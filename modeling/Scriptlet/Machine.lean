import Scriptlet.Files
import Scriptlet.Host.Plain
import Scriptlet.Store
import Scriptlet.Value.Text

set_option autoImplicit false

/-!
The machine that programs run on: the store, the scope at hand, the console, the files and the host. A
run that fails keeps what the machine has become.
-/

namespace Scriptlet

/-- What is typed in and written out. -/
structure Console where
  input : List Char
  /-- Whether a read beyond the input is an interrupt and not an end. -/
  interrupts : Bool
  /-- Whether there was a read beyond the input. -/
  starved : Bool
  output : String

namespace Console

/-- A console with some input. -/
def ofInput (text : String) (interrupts : Bool) : Console := ⟨text.toList, interrupts, false, ""⟩

def write (console : Console) (text : String) : Console :=
  { console with output := console.output ++ text }

/-- Takes a line of the input, without its line feed. -/
def readLine (console : Console) : Except Fault String × Console :=
  if console.input.isEmpty then
    (.error (if console.interrupts then .interrupted else .endOfInput),
      { console with starved := true })
  else
    let line := console.input.takeWhile (· ≠ '\n')
    (.ok (String.ofList line), { console with input := console.input.drop (line.length + 1) })

end Console

/-- The state of a run. -/
structure Machine where
  store : Store
  /-- The scope at hand; empty after a function without a body was called at the outermost scope. -/
  scope : Scope
  console : Console
  files : Files
  /-- Where imported modules are looked for, if anywhere. -/
  folder : Option Path
  /-- Whether programs are listed before they run. -/
  verbose : Bool
  /-- How many functions were defined. -/
  serial : Nat
  host : Host

/-- A computation on the machine. -/
abbrev Run := ExceptT Fault (StateM Machine)

namespace Run

/-- Runs a computation: its result or fault, and the machine after it. -/
def exec {α : Type} (r : Run α) (machine : Machine) : Except Fault α × Machine :=
  StateT.run (ExceptT.run r) machine

/-- Writes to the console. -/
def write (text : String) : Run Unit :=
  modify fun m => { m with console := m.console.write text }

/-- Reads a line from the console. -/
def readLine : Run String := do
  let m ← get
  let (line, console) := m.console.readLine
  set { m with console }
  liftM line

/-- Runs an operation on the store. -/
def onStore {α : Type} (f : Store → Except Fault α × Store) : Run α := do
  let m ← get
  let (result, store) := f m.store
  set { m with store }
  liftM result

/-- The scope at hand, of which a member is wanted. -/
def demandScope (member : String) : Run Scope := do
  match (← get).scope with
  | [] => throw (.noAttribute "NoneType" member)
  | scope => return scope

/-- The part of a scope in which a name is bound. -/
def find (scope : Scope) (name : String) : Run (Option Scope) := do
  write ((← get).store.searchTrace scope name)
  return (← get).store.find scope name

/-- Looks a name up from a scope. -/
def lookup (scope : Scope) (name : String) : Run (Nat × Binding) := do
  write ((← get).store.searchTrace scope name)
  liftM ((← get).store.get scope name)

/-- Defines or reassigns a variable from a scope. -/
def assign (scope : Scope) (name : String) (value : Value) (binding : Option String) :
    Run Value := do
  write ((← get).store.setTrace scope name)
  onStore fun store => store.set scope name value binding

/-- Binds a parameter in a scope. -/
def bindParameter (scope : Scope) (name : String) (value : Value) (binding : Option String) :
    Run Value := do
  write ((← get).store.searchTrace scope name)
  onStore fun store => store.setParameter scope name value binding

/-- Defines a function in a scope. -/
def defineFunction (scope : Scope) (name : String) (f : Value) : Run Value := do
  write ((← get).store.defineTrace scope name)
  onStore fun store => store.defineFunction scope name f

/-- Makes a scope inside another one. -/
def extend (scope : Scope) (label : Option String) (traced : Bool) : Run Scope := do
  let m ← get
  let (inner, store) := m.store.extend scope label traced
  set { m with store }
  return inner

/-- Defines the builtin functions in a scope. -/
def addBuiltins (scope : Scope) : Run Unit := do
  let host := (← get).host
  let _ ← defineFunction scope "print" (.builtin (.print (host.builtinAddress "print")))
  let _ ← defineFunction scope "string" (.builtin (.string (host.builtinAddress "string")))
  let _ ← defineFunction scope "input" (.builtin (.input (host.builtinAddress "input")))

/-- Joins texts with spaces; every argument has to be a string. -/
def joinTexts : Nat → List Value → Except Fault (List String)
  | _, [] => .ok []
  | position, .str s :: rest => do return s :: (← joinTexts (position + 1) rest)
  | position, v :: _ => .error (.notJoinable position v.kind)

/-- The text of a value, where one that counts as false is shown as null. -/
def shownText (v : Value) : Except Fault String := if v.truthy then v.text else .ok "null"

/-- Calls a builtin function. -/
def callBuiltin (f : Builtin) (args : List Value) : Run Value :=
  match f with
  | .print _ => do
    let text := "\n".intercalate (← liftM (args.mapM Value.text))
    write ((if text = "" then "null" else text) ++ "\n")
    return .null
  | .string _ => do
    match ← liftM (args.mapM shownText) with
    | [text] => return .str text
    | texts => return .list (texts.map .str)
  | .input _ => do
    write (" ".intercalate (← liftM (joinTexts 0 args)))
    return .str (← readLine)
  | .echo _ => return .list args

end Run

/-- A fresh machine with one empty frame. -/
def Machine.fresh (console : Console) (files : Files) (traced : Bool) (host : Host := .plain) :
    Machine :=
  { store := .single traced, scope := [0], console, files, folder := none, verbose := false,
    serial := 0, host }

/-- A fresh machine with the builtin functions. -/
def Machine.freshWithBuiltins (console : Console) (files : Files) (host : Host := .plain) : Machine :=
  ((Run.addBuiltins [0]).exec (.fresh console files false host)).2

end Scriptlet
