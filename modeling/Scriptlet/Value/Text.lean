import Scriptlet.Number.Decimal
import Scriptlet.Number.Numeral
import Scriptlet.Value

set_option autoImplicit false

/-!
The text of a value. A string is its own text; inside a list or an object it stands quoted.
-/

namespace Scriptlet.Value

/-- The address of a builtin function. -/
def builtinAddress : Builtin → String
  | .print address | .string address | .input address => address
  | .echo _ => noAddress

/-- The text of a builtin function. -/
def builtinText (address : String) : String :=
  s!"<function Environment.add_builtins.<locals>.<lambda> at {address}>"

/-- The text of a function of the program. -/
def functionText (address : String) : String :=
  s!"<function Interpreter.make_function.<locals>.function at {address}>"

/-- The text of an expression, which shows only its class: where expressions lie is not kept. No program
that is read from a text comes to a value that is an expression. -/
def nodeText (kind : String) : String := s!"<jink.utils.classes.{kind} object at {noAddress}>"

mutual

/-- The text of a value inside another one. -/
def quoted : Value → Except Fault String
  | null => .ok "None"
  | bool b => .ok (if b then "True" else "False")
  | int n => Number.intText n
  | float x => .ok (Number.floatText x)
  | complex re im => .ok (Number.complexText re im)
  | str s => .ok (Text.quoted s)
  | list items => do
    let texts ← quotedItems items
    return "[" ++ ", ".intercalate texts ++ "]"
  | obj entries => do
    let texts ← quotedEntries entries
    return "\x7b" ++ ", ".intercalate texts ++ "\x7d"
  | builtin f => .ok (builtinText (builtinAddress f))
  | function _ address .. => .ok (functionText address)
  | node e => .ok (nodeText (kind (node e)))

def quotedItems : List Value → Except Fault (List String)
  | [] => .ok []
  | v :: rest => do
    let text ← quoted v
    let texts ← quotedItems rest
    return text :: texts

def quotedEntries : List (String × Value) → Except Fault (List String)
  | [] => .ok []
  | (key, v) :: rest => do
    let text ← quoted v
    let texts ← quotedEntries rest
    return (Text.quoted key ++ ": " ++ text) :: texts

end

/-- The text of a value. -/
def text : Value → Except Fault String
  | str s => .ok s
  | v => quoted v

end Scriptlet.Value
