import Scriptlet.Listing
import Scriptlet.Value

set_option autoImplicit false

/-!
The usual encoding of programs as documents. A node is listed as an array of nothing and its fields,
save for names and nulls, which are listed as their fields alone.
-/

namespace Scriptlet.Listing

/-- The fields of a node. -/
def fields (entries : List (String × Listing)) : Listing := array [null, object entries]

/-- A text, or null for none. -/
def ofText? : Option String → Listing
  | some s => str s
  | none => null

/-- How a name is indexed: not at all, or by a property. -/
def index (kind : Option String) (property : Listing) : Listing :=
  object [("type", ofText? kind), ("index", property)]

/-- A name without an index. -/
def name (text : String) : Listing := object [("name", str text), ("index", index none null)]

/-- An import path, its last part outermost. -/
def modulePath : List (Option String) → Listing
  | [] => null
  | part :: outer => fields [("name", ofText? part), ("index", modulePath outer)]

mutual

def ofValue : Value → Listing
  | .null | .complex .. | .builtin _ | .function .. => null
  | .bool b => bool b
  | .int n => int n
  | .float x => float x
  | .str s => str s
  | .list items => array (ofValues items)
  | .obj entries => object (ofEntries entries)
  | .node e => ofExpr e

def ofValues : List Value → List Listing
  | [] => []
  | v :: rest => ofValue v :: ofValues rest

def ofEntries : List (String × Value) → List (String × Listing)
  | [] => []
  | (key, v) :: rest => (key, ofValue v) :: ofEntries rest

def ofExpr : Expr → Listing
  | .datum v => ofValue v
  | .literal kind v =>
    match kind with
    | .null => object [("value", ofValue v)]
    | _ => fields [("value", ofValue v)]
  | .ident n => name n
  | .property n e => object [("name", str n), ("index", index (some "prop") (ofExpr e))]
  | .unary operator e => fields [("operator", str operator), ("value", ofExpr e)]
  | .binary operator l r =>
    fields [("operator", str operator), ("left", ofExpr l), ("right", ofExpr r)]
  | .assign binding n e =>
    fields [("type", ofText? binding), ("ident", name n), ("value", ofExpr e)]
  | .call n args => fields [("name", name n), ("args", array (ofExprs args))]
  | .define n params body =>
    fields [("name", str n), ("params", array (ofParameters params)), ("body", array (ofExprs body))]
  | .param p => ofParameter p
  | .ret e => fields [("value", ofExpr e)]
  | .conditional keyword condition body otherwise =>
    fields [("type", str keyword), ("expression", ofExpr condition), ("body", array (ofExprs body)),
      ("else_body", ofBranch otherwise)]
  | .module parents n => modulePath (n :: parents.reverse)

def ofExprs : List Expr → List Listing
  | [] => []
  | e :: rest => ofExpr e :: ofExprs rest

def ofBranch : Option (List Expr) → Listing
  | none => null
  | some body => array (ofExprs body)

def ofParameter : Parameter → Listing
  | .mk n binding default =>
    fields [("name", str n), ("type", ofText? binding), ("default", ofExpr default)]

def ofParameters : List Parameter → List Listing
  | [] => []
  | p :: rest => ofParameter p :: ofParameters rest

end

/-- The listing of a program. -/
def ofProgram (program : List Expr) : Listing := array (ofExprs program)

/-- The listing of a program on one line. -/
def oneLine (program : List Expr) : Except Fault String := write .line (ofProgram program)

/-- A program's listing as it is printed before the program runs. -/
def printed (program : List Expr) : Except Fault String := announce (ofProgram program)

end Scriptlet.Listing
