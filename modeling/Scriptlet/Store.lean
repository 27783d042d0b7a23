import Scriptlet.Fault
import Scriptlet.Value

set_option autoImplicit false

/-!
The store of variables: frames of named bindings, and scopes that see several frames, the innermost
first. A name is looked up in the first frame that binds it.
-/

namespace Scriptlet

/-- What a variable holds: its value, the name of the value's type, and how it was bound. -/
structure Record where
  value : Value
  type : String
  binding : Option String

/-- What a name stands for. -/
inductive Binding
  | record (r : Record)
  | function (f : Value)

/-- A record as an object. -/
def Record.toValue (r : Record) : Value :=
  .obj [("value", r.value), ("type", .str r.type),
    ("var_type", match r.binding with
      | some binding => .str binding
      | none => .null)]

/-- A binding as a value. -/
def Binding.toValue : Binding → Value
  | record r => r.toValue
  | function f => f

/-- The names bound in one scope, in the order in which they were first bound. -/
structure Frame where
  label : Option String
  /-- Whether searches that begin at this frame are traced. -/
  traced : Bool
  entries : List (String × Binding)

namespace Frame

/-- A frame without names. -/
def empty (label : Option String) (traced : Bool) : Frame := ⟨label, traced, []⟩

def find? (frame : Frame) (name : String) : Option Binding :=
  (frame.entries.find? fun e => e.1 = name).map (·.2)

def binds (frame : Frame) (name : String) : Bool := (frame.find? name).isSome

/-- Puts a binding in place of the one under its name, or at the end. -/
def putEntry (name : String) (binding : Binding) :
    List (String × Binding) → List (String × Binding)
  | [] => [(name, binding)]
  | e :: rest => if e.1 = name then (name, binding) :: rest else e :: putEntry name binding rest

def put (frame : Frame) (name : String) (binding : Binding) : Frame :=
  { frame with entries := putEntry name binding frame.entries }

def names (frame : Frame) : List String := frame.entries.map (·.1)

end Frame

/-- The numbers of the frames that are seen from a place, the innermost first. Outside of all frames
it is empty. -/
abbrev Scope := List Nat

/-- How many frames lie around the innermost one. -/
def Scope.depth (scope : Scope) : Nat := scope.length - 1

/-- All frames that were ever made. -/
structure Store where
  frames : Array Frame

/-- The name of the type of a value that a variable can hold. -/
def Value.typeName? : Value → Option String
  | int _ | bool _ => some "int"
  | float _ => some "float"
  | str _ => some "string"
  | obj _ => some "obj"
  | _ => none

namespace Store

/-- A store with one empty frame. -/
def single (traced : Bool) : Store := ⟨#[.empty none traced]⟩

def frame? (store : Store) (id : Nat) : Option Frame := store.frames[id]?

/-- The binding of a name in one frame. -/
def binding? (store : Store) (id : Nat) (name : String) : Option Binding :=
  (store.frame? id).bind (·.find? name)

/-- Makes a frame inside a scope. -/
def extend (store : Store) (scope : Scope) (label : Option String) (traced : Bool) :
    Scope × Store :=
  (store.frames.size :: scope, ⟨store.frames.push (.empty label traced)⟩)

/-- Binds a name in one frame. -/
def put (store : Store) (id : Nat) (name : String) (binding : Binding) : Store :=
  ⟨store.frames.modify id (·.put name binding)⟩

/-- The innermost part of a scope, beginning at the first frame that binds the name. -/
def find (store : Store) : Scope → String → Option Scope
  | [], _ => none
  | id :: outer, name =>
    if (store.binding? id name).isSome then some (id :: outer) else find store outer name

/-- The frame that a name is found in, and its binding there. -/
def get (store : Store) (scope : Scope) (name : String) : Except Fault (Nat × Binding) :=
  match store.find scope name with
  | some (id :: _) =>
    match store.binding? id name with
    | some binding => .ok (id, binding)
    | none => .error (.undefined name)
  | _ => .error (.undefined name)

/-- The record for a value, which has to be of a type that variables can hold. -/
def recordFor (value : Value) (binding : Option String) : Except Fault Record :=
  match value.typeName? with
  | some type => .ok ⟨value, type, binding⟩
  | none => .error (.unassigned "val_type")

/-- Binds a name in one frame to a record for the value. -/
def bindRecord (store : Store) (id : Nat) (name : String) (value : Value)
    (binding : Option String) : Except Fault Value × Store :=
  match recordFor value binding with
  | .ok record => (.ok value, store.put id name (.record record))
  | .error fault => (.error fault, store)

/-- Changes a record to hold another value. A value of no type is put in before it is found out, so
that the record keeps its old type. -/
def update (store : Store) (id : Nat) (name : String) (record : Record) (value : Value) :
    Except Fault Value × Store :=
  match value.typeName? with
  | some type => (.ok value, store.put id name (.record { record with value, type }))
  | none => (.error (.unassigned "val_type"), store.put id name (.record { record with value }))

/-- Binds a parameter in the innermost frame, whatever the name means further out. -/
def setParameter (store : Store) (scope : Scope) (name : String) (value : Value)
    (binding : Option String) : Except Fault Value × Store :=
  match scope with
  | id :: _ => store.bindRecord id name value binding
  | [] => (.error (.noAttribute "NoneType" "set_var"), store)

/-- Defines a name that is not bound yet, or reassigns the nearest variable of the name. A binding
`let` or `const` defines, none reassigns. -/
def set (store : Store) (scope : Scope) (name : String) (value : Value)
    (binding : Option String) : Except Fault Value × Store :=
  match store.find scope name with
  | some (id :: _) =>
    if binding.isSome then (.error (.alreadyDefined name), store)
    else
      match store.binding? id name with
      | some (.record record) =>
        if record.binding = some "const" then (.error (.constant name), store)
        else store.update id name record value
      | _ => (.error (.notSubscriptable "function"), store)
  | _ =>
    if binding.getD "" = "" then (.error (.unbound name), store)
    else store.setParameter scope name value binding

/-- Defines a function under a name that is not bound yet. -/
def defineFunction (store : Store) (scope : Scope) (name : String) (f : Value) :
    Except Fault Value × Store :=
  match store.find scope name, scope with
  | some _, _ => (.error (.functionDefined name), store)
  | none, id :: _ => (.ok f, store.put id name (.function f))
  | none, [] => (.error (.noAttribute "NoneType" "def_func"), store)

/-- The names bound in the innermost frame of a scope. -/
def names (store : Store) : Scope → List String
  | [] => []
  | id :: _ => ((store.frame? id).map Frame.names).getD []

/-- Whether searches from a scope are traced. -/
def isTraced (store : Store) : Scope → Bool
  | [] => false
  | id :: _ => ((store.frame? id).map Frame.traced).getD false

/-- One line for each frame that a search for the name visits, with the names at its beginning. -/
def visits (store : Store) (seen : String) : Scope → String → String
  | [], _ => ""
  | id :: outer, name =>
    s!"Searching {Scope.depth (id :: outer)}.. found {seen}\n" ++
      if (store.binding? id name).isSome then "" else visits store seen outer name

/-- What a search for a name writes when it is traced. -/
def searchTrace (store : Store) (scope : Scope) (name : String) : String :=
  if store.isTraced scope then
    s!"Searching for {name} in scopes..\n" ++
      store.visits (Text.quotedList (store.names scope)) scope name
  else ""

/-- What setting a name writes: the search for it, and a second search where it was found. -/
def setTrace (store : Store) (scope : Scope) (name : String) : String :=
  store.searchTrace scope name ++
    match store.find scope name with
    | some found => store.searchTrace found name
    | none => ""

/-- What defining a function writes. -/
def defineTrace (store : Store) (scope : Scope) (name : String) : String :=
  store.searchTrace scope name ++
    if store.isTraced scope && (store.find scope name).isNone then
      s!"Defining {name} in {Scope.depth scope}\n"
    else ""

/-- A scope as text, the outermost frame first. -/
def scopeText (store : Store) : Scope → String
  | [] => "null"
  | id :: outer =>
    scopeText store outer ++ s!"->{Scope.depth (id :: outer)}:" ++
      Text.quotedList (store.names (id :: outer))

/-- The bindings of the innermost frame of a scope. -/
def bindings (store : Store) : Scope → List (String × Value)
  | [] => []
  | id :: _ =>
    match store.frame? id with
    | some frame => frame.entries.map fun e => (e.1, e.2.toValue)
    | none => []

end Store

end Scriptlet
