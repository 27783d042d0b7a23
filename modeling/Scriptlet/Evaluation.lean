import Scriptlet.Expr.Read
import Scriptlet.Folding
import Scriptlet.Machine
import Scriptlet.Token.Scan

set_option autoImplicit false

/-!
Evaluation. The meaning of one expression is given in terms of the meaning of the expressions inside
and of the functions it calls, and `eval` ties the knot with a bound on the depth of that nesting.
-/

namespace Scriptlet

/-- What evaluating an expression gives: a value, a variable as it will be when it is looked at, or the
results of several statements. -/
inductive Result
  | value (v : Value)
  | cell (frame : Nat) (name : String)
  | block (results : List Result)

namespace Value

/-- The value inside an object or an expression; any other value is itself. -/
def unwrap : Value → Except Fault Value
  | node e => .ok ((inner? e).getD (node e))
  | obj entries =>
    match atKey? "value" entries with
    | some v => .ok v
    | none => .error (.noEntry "value")
  | v => .ok v

/-- Whether a value contains a text: as a key, an item or a part. -/
def contains (text : String) : Value → Except Fault Bool
  | obj entries => .ok (atKey? text entries).isSome
  | list items => .ok (items.any fun v => v.equal (str text))
  | str s => .ok ((s.splitOn text).length > 1 || text = "")
  | v => .error (.notContainer v.kind)

/-- The entry of a value under a key. -/
def subscript (key : String) : Value → Except Fault Value
  | obj entries =>
    match atKey? key entries with
    | some v => .ok v
    | none => .error (.noEntry key)
  | list _ => .error .listIndex
  | str _ => .error .stringIndex
  | v => .error (.notSubscriptable v.kind)

/-- One of the words for truth. -/
def isTruthWord (v : Value) : Bool := v.equal (str "true") || v.equal (str "false")

/-- What a condition comes to. A truth value and the numbers one and zero all count as true; of an
object the type decides. -/
def condition (v : Value) : Except Fault Value :=
  if v.isTruthWord then .ok v
  else if v.equal (bool true) || v.equal (bool false) then .ok (str "true")
  else do
    if ← v.contains "type" then
      let type ← v.subscript "type"
      if type.equal (str "null") then return str "false"
      else if !type.equal (str "bool") then return str "true"
      else return null
    else return null

/-- A value that an argument or a default may leave open. -/
def isOpen (v : Value) : Bool := v.equal null || v.equal (str "null")

/-- Falsy results of operators count as zero. -/
def orZero (v : Value) : Value := if v.truthy then v else int 0

/-- The value of a return statement. -/
def returned (v : Value) : Value := obj [("type", str "return"), ("value", v)]

/-- A returned truth value as a word. -/
def returnedWord : Value → Value
  | bool b => truth b
  | v => v

/-- The value that a function gives, from the one it returned. -/
def functionResult : Option Value → Except Fault Value
  | none | some null => .ok (str "null")
  | some (list items) =>
    match items with
    | [] => .error .outOfRange
    | first :: _ => do
      if first.isOpen then return str "null"
      else
        match ← first.subscript "value" with
        | null => return str "null"
        | _ => return list items
  | some v => .ok v

end Value

mutual

/-- A result as a value at this moment. -/
def Result.snapshot (store : Store) : Result → Value
  | .value v => v
  | .cell frame name =>
    match store.binding? frame name with
    | some binding => binding.toValue
    | none => .null
  | .block results => .list (snapshotAll store results)

def Result.snapshotAll (store : Store) : List Result → List Value
  | [] => []
  | r :: rest => r.snapshot store :: snapshotAll store rest

end

namespace Result

/-- The results that one stands for: lists stand for their items. -/
def spread : Result → List Result
  | block results => results
  | value (.list items) => items.map value
  | r => [r]

end Result

namespace Run

/-- A result as a value at this moment. -/
def snapshot (r : Result) : Run Value := do return r.snapshot (← get).store

/-- The value inside a result. -/
def unwrap (r : Result) : Run Value := do liftM (← snapshot r).unwrap

/-- Evaluates statements one after another. -/
def evalAll (ev : Expr → Run Result) : List Expr → Run (List Result)
  | [] => return []
  | e :: rest => do
    let results := (← ev e).spread
    return results ++ (← evalAll ev rest)

/-- Evaluates statements in a scope, with the given place of modules and verbosity. -/
def evalIn (ev : Expr → Run Result) (program : List Expr) (scope : Scope) (verbose : Bool)
    (folder : Option Path) : Run (List Result) := do
  modify fun m => { m with scope, verbose, folder }
  evalAll ev program

/-- Evaluates a block in the scope at hand. Inside blocks no module is found. -/
def evalBlock (ev : Expr → Run Result) (body : List Expr) : Run (List Result) := do
  evalIn ev body (← get).scope false none

/-- The variable or function of a name. -/
def evalName (name : String) : Run Result := do
  let scope ← demandScope "get_var"
  match ← lookup scope name with
  | (frame, .record _) => return .cell frame name
  | (_, .function f) => return .value f

/-- Binds the parameters of a function to its arguments, or else to their defaults. -/
def bindParameters (function : String) (scope : Scope) : List Parameter → List Value → Run Unit
  | [], _ => return ()
  | p :: params, args => do
    let default ←
      if p.default.toValue.truthy then liftM p.default.toValue.unwrap else pure .null
    let value := match args with
      | arg :: _ =>
        if !arg.isOpen then arg else if default.truthy then default else .str "null"
      | [] => if default.isOpen then .str "null" else default
    try
      let _ ← bindParameter scope p.name value p.binding
    catch fault => throw (.badParameter fault.message function)
    bindParameters function scope params args.tail

/-- The value that a statement returns from the function around it, if it does. -/
def returnedBy (result : Value) : Except Fault (Option Value) :=
  match result with
  | .obj entries => do
    if entries.isEmpty then return none
    else if (← Value.subscript "type" result).equal (.str "return") then
      return some (← Value.subscript "value" result).returnedWord
    else return none
  | _ => .ok none

/-- The first of the results of a statement. -/
def firstResult : List Result → Run Value
  | [] => throw .outOfRange
  | r :: _ => do
    match ← snapshot r with
    | .list [] => return .list []
    | .list (v :: _) => return v
    | v => return v

/-- Runs the statements of a function up to the first that returns. -/
def evalBody (ev : Expr → Run Result) (scope : Scope) : List Expr → Run (Option Value)
  | [] => return none
  | e :: rest => do
    let result ← firstResult (← evalIn ev [e] scope false none)
    match ← liftM (returnedBy result) with
    | some v => return some v
    | none => evalBody ev scope rest

/-- Steps out of the scope at hand. -/
def leaveScope : Run Unit := do
  let scope ← demandScope "parent"
  modify fun m => { m with scope := scope.tail }

/-- Calls a value with arguments, in a scope made for the call. -/
def call (ev : Expr → Run Result) (callee : Value) (scope : Scope) (args : List Value) :
    Run Result := do
  match callee with
  | .builtin f => return .value (← callBuiltin f args)
  | .function _ _ name params body =>
    if params.length < args.length then
      throw (.tooManyArguments name params.length args.length)
    bindParameters name scope params args
    let returned ← evalBody ev scope body
    leaveScope
    return .value (← liftM (Value.functionResult returned))
  | v => throw (.notCallable v.kind)

/-- What a result stands for as an argument: the value inside. The results of a block stay what they
are. -/
def argument : Result → Run Result
  | .block results => return .block results
  | r => return .value (← unwrap r)

/-- Evaluates arguments one after another. -/
def evalEach (ev : Expr → Run Result) : List Expr → Run (List Result)
  | [] => return []
  | e :: rest => do
    let arg ← argument (← ev e)
    return arg :: (← evalEach ev rest)

/-- Evaluates arguments to values. A variable inside of a block is looked at after the last one. -/
def evalArguments (ev : Expr → Run Result) (args : List Expr) : Run (List Value) := do
  let results ← evalEach ev args
  return Result.snapshotAll (← get).store results

/-- Evaluates a call by name. -/
def evalCall (ev : Expr → Run Result) (name : String) (args : List Expr) : Run Result := do
  let around ← demandScope "extend"
  let scope ← extend around (some ("call_" ++ name)) false
  let callee ← evalName name
  let args ← evalArguments ev args
  call ev (← snapshot callee) scope args

/-- Evaluates a property of a named object. Of a path of properties only the first counts. -/
def evalProperty (ev : Expr → Run Result) (name : String) (index : Expr) : Run Result := do
  match index with
  | .datum .null => evalName name
  | _ =>
    let object ← snapshot (← evalName name)
    let type ← liftM (object.subscript "type")
    if !type.equal (.str "obj") then
      throw (.notIndexable name (← liftM type.text))
    let object ← liftM (object.subscript "value")
    match index with
    | .ident property | .property property _ =>
      if ← liftM (object.contains property) then
        return .value (← liftM (object.subscript property))
      else throw (.noProperty name property)
    | .call callee args => evalCall ev callee args
    | _ => return .value .null

/-- The text of a module that is found by the first part of its path. Found directories have none. -/
def moduleText (files : Files) (folder : Option Path) (path : List (Option String)) :
    Except Fault String :=
  let relative := path.head? = some (some ".")
  let path := if relative then path.dropLast else path
  match path with
  | [] => .error .outOfRange
  | first :: _ =>
    let failed := Fault.importFailed (first.getD "None")
    match folder, first with
    | some folder, some name =>
      if !relative && files.isDirectory (folder.join name) then .error (.unassigned "module")
      else
        match files.read? (folder.join (name ++ ".jk")) with
        | some text => .ok text
        | none => .error failed
    | _, _ => .error failed

/-- Reads a program from its text, and lists it if the machine is verbose. -/
def readProgram (text : String) (verbose : Bool) : Run (List Expr) := do
  let tokens ← liftM (Token.ofText text)
  let program ← liftM (Expr.ofTokens tokens)
  if verbose then write (← liftM ((← get).host.listing program))
  return program

/-- Runs a module in the scope at hand. -/
def evalModule (ev : Expr → Run Result) (path : List (Option String)) : Run Result := do
  let m ← get
  let text ← liftM (moduleText m.files m.folder path)
  let program ← readProgram text m.verbose
  let program ← liftM (Expr.foldProgram program).1
  return .block (← evalIn ev program m.scope m.verbose m.folder)

/-- The value to be assigned: the one inside, or the whole if it has none inside. Nothing is assigned as
the word null. -/
def assignedValue (v : Value) : Except Fault Value :=
  let inner : Except Fault Value := match v.unwrap with
    | .error (.noEntry _) => .ok v
    | other => other
  inner.map fun v => if v.equal .null then .str "null" else v

/-- The meaning of an expression, from the meaning of those inside it. -/
def evalWith (ev : Expr → Run Result) : Expr → Run Result
  | .datum (.obj entries) => return .value (.obj entries)
  | .datum _ | .param _ => return .value .null
  | .literal .boolean v => return .value (.bool (v.equal (.str "true")))
  | .literal .null _ => return .value (.obj [("type", .str "null"), ("value", .str "null")])
  | .literal _ v => return .value v
  | .ident name => evalName name
  | .property name index => evalProperty ev name index
  | .unary operator operand => do
    let operand ← ev operand
    match UnaryOperator.ofSymbol? operator with
    | none => throw (.noEntry operator)
    | some op => return .value (← liftM (op.apply (← unwrap operand))).orZero
  | .binary operator left right => do
    let left ← ev left
    let right ← ev right
    match Operator.ofSymbol? operator with
    | none => throw (.noEntry operator)
    | some op =>
      let left ← unwrap left
      let right ← unwrap right
      return .value (← liftM (op.apply left right)).orZero
  | .module parents name => evalModule ev (Expr.modulePath parents name)
  | .assign binding name value => do
    let value ← liftM (assignedValue (← snapshot (← ev value)))
    let scope ← demandScope "set_var"
    return .value (← assign scope name value binding)
  | .conditional _ (.datum .null) body _ => do
    let _ ← evalBlock ev body
    return .value .null
  | .conditional _ condition body otherwise => do
    let outcome ← liftM (← snapshot (← ev condition)).condition
    if !outcome.isTruthWord then throw .badCondition
    else if outcome.equal (.str "true") then return .block (← evalBlock ev body)
    else
      match otherwise with
      | some (e :: _) => ev e
      | _ => return .value .null
  | .call name args => evalCall ev name args
  | .define name params body => do
    let m ← get
    set { m with serial := m.serial + 1 }
    let scope ← demandScope "def_func"
    let f := Value.function m.serial (m.host.address m.serial) name params body
    return .value (← defineFunction scope name f)
  | .ret value => do
    let v ← unwrap (← ev value)
    return .value v.returned

/-- The meaning of an expression whose evaluation nests at most so deep. -/
def eval : Nat → Expr → Run Result
  | 0, _ => throw .outOfFuel
  | fuel + 1, e => evalWith (eval fuel) e

/-- Evaluates a program in a scope. -/
def evalProgram (fuel : Nat) (program : List Expr) (scope : Scope) (verbose : Bool)
    (folder : Option Path) : Run (List Result) :=
  evalIn (eval fuel) program scope verbose folder

/-- How deep evaluation may nest. -/
def depthLimit : Nat := 100000

/-- Reads, folds and evaluates a program in a scope. -/
def runText (text : String) (scope : Scope) (verbose : Bool) (folder : Option Path) :
    Run (List Result) := do
  let program ← readProgram text verbose
  let program ← liftM (Expr.foldProgram program).1
  evalProgram depthLimit program scope verbose folder

end Run

end Scriptlet
