set_option autoImplicit false

/-!
Values and expressions. A program is a list of expressions; a value may hold an expression, and an
expression may stand for a value that was put into the program as it is.
-/

namespace Scriptlet

/-- The kinds of literals. -/
inductive LiteralKind
  | integer
  | floating
  | string
  | boolean
  | null
deriving Repr, DecidableEq

/-- The functions that are not defined in the language itself, each with the address that its text
shows. -/
inductive Builtin
  /-- Writes its arguments, one on a line. -/
  | print (address : String)
  /-- The texts of its arguments. -/
  | string (address : String)
  /-- Reads a line after a prompt. -/
  | input (address : String)
  /-- Gives its arguments back. Each definition has a number of its own. -/
  | echo (serial : Nat)
deriving Repr, DecidableEq

mutual

/-- What expressions evaluate to. -/
inductive Value
  | null
  | bool (b : Bool)
  | int (n : Int)
  | float (x : Float)
  | complex (re im : Float)
  | str (s : String)
  | list (items : List Value)
  /-- Entries in the order in which their keys were first put. -/
  | obj (entries : List (String × Value))
  | builtin (f : Builtin)
  /-- A function of the program. Each evaluation of a definition has a number of its own, by which the
  function is told from others, and an address, which its text shows. -/
  | function (serial : Nat) (address : String) (name : String) (params : List Parameter)
      (body : List Expr)
  | node (e : Expr)

/-- The expressions and statements of the language. -/
inductive Expr
  /-- A value that stands for itself; `null` where an expression is missing. -/
  | datum (v : Value)
  | literal (kind : LiteralKind) (v : Value)
  | ident (name : String)
  /-- A property of a named object. -/
  | property (name : String) (index : Expr)
  | unary (operator : String) (operand : Expr)
  | binary (operator : String) (left right : Expr)
  /-- A definition with `let` or `const`, or a reassignment without either. -/
  | assign (binding : Option String) (name : String) (value : Expr)
  | call (name : String) (args : List Expr)
  | define (name : String) (params : List Parameter) (body : List Expr)
  | param (p : Parameter)
  | ret (value : Expr)
  /-- `if`, `elseif` or `else`; an `else` has no condition. -/
  | conditional (keyword : String) (condition : Expr) (body : List Expr)
      (otherwise : Option (List Expr))
  /-- An import by its path: the parts before the last one, and the last one. -/
  | module (parents : List (Option String)) (name : Option String)

/-- A parameter of a function: its name, `let` or `const`, and its default. -/
inductive Parameter
  | mk (name : String) (binding : Option String) (default : Expr)

end

instance : Inhabited Value := ⟨.null⟩
instance : Inhabited Expr := ⟨.datum .null⟩
instance : Inhabited Parameter := ⟨.mk "" none (.datum .null)⟩

namespace Parameter

def name : Parameter → String
  | mk name _ _ => name

def binding : Parameter → Option String
  | mk _ binding _ => binding

def default : Parameter → Expr
  | mk _ _ default => default

end Parameter

namespace LiteralKind

def className : LiteralKind → String
  | integer => "IntegerLiteral"
  | floating => "FloatingPointLiteral"
  | string => "StringLiteral"
  | boolean => "BooleanLiteral"
  | null => "Null"

end LiteralKind

namespace Expr

/-- No expression at all. -/
def missing : Expr := datum .null

def int (n : Int) : Expr := literal .integer (.int n)

def float (x : Float) : Expr := literal .floating (.float x)

def str (s : String) : Expr := literal .string (.str s)

/-- An expression as a value: a value that stands for itself is that value. -/
def toValue : Expr → Value
  | datum v => v
  | e => .node e

/-- A value as an expression, so that `(ofValue v).toValue = v`. -/
def ofValue : Value → Expr
  | .node e => e
  | v => datum v

/-- The path of an import, from its root. -/
def modulePath (parents : List (Option String)) (name : Option String) : List (Option String) :=
  parents ++ [name]

end Expr

namespace Value

/-- What is shown in place of an address that is not known. -/
def noAddress : String := "0x0"

/-- The name of the kind of a value. -/
def kind : Value → String
  | null => "NoneType"
  | bool _ => "bool"
  | int _ => "int"
  | float _ => "float"
  | complex .. => "complex"
  | str _ => "str"
  | list _ => "list"
  | obj _ => "dict"
  | builtin _ | function .. => "function"
  | node e =>
    match e with
    | .datum _ => "NoneType"
    | .literal k _ => k.className
    | .ident _ | .property .. => "IdentLiteral"
    | .unary .. => "UnaryOperator"
    | .binary .. => "BinaryOperator"
    | .assign .. => "Assignment"
    | .call .. => "CallExpression"
    | .define .. => "Function"
    | .param _ => "FunctionParameter"
    | .ret _ => "Return"
    | .conditional .. => "Conditional"
    | .module .. => "Module"

/-- The entry of an object under a key. -/
def atKey? (key : String) : List (String × Value) → Option Value
  | [] => none
  | (k, v) :: rest => if k = key then some v else atKey? key rest

/-- Puts an entry in place of the one under its key, or at the end. -/
def putEntry (key : String) (value : Value) : List (String × Value) → List (String × Value)
  | [] => [(key, value)]
  | (k, v) :: rest => if k = key then (k, value) :: rest else (k, v) :: putEntry key value rest

/-- The object that a list of entries builds up. -/
def ofEntries (entries : List (String × Value)) : Value :=
  obj (entries.foldl (fun acc e => putEntry e.1 e.2 acc) [])

/-- A value that counts as true. -/
def truthy : Value → Bool
  | null => false
  | bool b => b
  | int n => n ≠ 0
  | float x => x != 0.0
  | complex re im => re != 0.0 || im != 0.0
  | str s => s ≠ ""
  | list items => !items.isEmpty
  | obj entries => !entries.isEmpty
  | builtin _ | function .. | node _ => true

/-- The value inside an expression: that of a literal, an operand, an assignment or a return. -/
def inner? : Expr → Option Value
  | .literal _ v => some v
  | .unary _ e | .assign _ _ e | .ret e => some e.toValue
  | _ => none

end Value

end Scriptlet
