import Scriptlet.Number.Decimal
import Scriptlet.Number.Numeral

set_option autoImplicit false

/-!
Listings: documents of arrays, objects and scalars, written on one line or indented. How a program is
made into a document is left to the host.
-/

namespace Scriptlet

/-- A document. -/
inductive Listing
  | null
  | bool (b : Bool)
  | int (n : Int)
  | float (x : Float)
  | str (s : String)
  | array (items : List Listing)
  | object (fields : List (String × Listing))

namespace Listing

/-- A UTF-16 unit as an escape. -/
def unitEscape (unit : Nat) : List Char := '\\' :: 'u' :: Text.hexDigits 4 unit

/-- A character between double quotes, in ASCII. -/
def escape (c : Char) : List Char :=
  if c = '"' || c = '\\' then ['\\', c]
  else if c = '\n' then ['\\', 'n']
  else if c = '\r' then ['\\', 'r']
  else if c = '\t' then ['\\', 't']
  else if c.toNat = 8 then ['\\', 'b']
  else if c.toNat = 12 then ['\\', 'f']
  else if 32 ≤ c.toNat && c.toNat < 127 then [c]
  else if c.toNat < 0x10000 then unitEscape c.toNat
  else
    let above := c.toNat - 0x10000
    unitEscape (0xd800 + above / 0x400) ++ unitEscape (0xdc00 + above % 0x400)

/-- A string between double quotes. -/
def stringText (s : String) : String := String.ofList ('"' :: s.toList.flatMap escape ++ ['"'])

/-- A double, with words of its own for those that are not finite. -/
def floatText (x : Float) : String :=
  if x.isNaN then "NaN"
  else if x.isInf then (if x < 0.0 then "-Infinity" else "Infinity")
  else Number.floatText x

/-- How the parts of a document are set apart: on one line, or each on its own line at a depth. -/
inductive Style
  | line
  | indented (depth : Nat)

namespace Style

/-- The style of the parts inside. -/
def inside : Style → Style
  | line => line
  | indented depth => indented (depth + 1)

/-- A break before a part. -/
def lineBreak : Style → String
  | line => ""
  | indented depth => "\n" ++ String.ofList (List.replicate (2 * depth) ' ')

/-- Parts between brackets. -/
def enclose (style : Style) (opening closing : String) (parts : List String) : String :=
  if parts.isEmpty then opening ++ closing
  else
    let separator := match style with
      | line => ", "
      | indented _ => "," ++ style.inside.lineBreak
    opening ++ style.inside.lineBreak ++ separator.intercalate parts ++ style.lineBreak ++ closing

end Style

mutual

/-- The text of a document. -/
def write : Style → Listing → Except Fault String
  | _, null => .ok "null"
  | _, bool b => .ok (if b then "true" else "false")
  | _, int n => Number.intText n
  | _, float x => .ok (floatText x)
  | _, str s => .ok (stringText s)
  | style, array items => do
    return style.enclose "[" "]" (← writeItems style.inside items)
  | style, object fields => do
    return style.enclose "\x7b" "\x7d" (← writeFields style.inside fields)

def writeItems : Style → List Listing → Except Fault (List String)
  | _, [] => .ok []
  | style, item :: rest => do
    let text ← write style item
    return text :: (← writeItems style rest)

def writeFields : Style → List (String × Listing) → Except Fault (List String)
  | _, [] => .ok []
  | style, (key, value) :: rest => do
    let text ← write style value
    return (stringText key ++ ": " ++ text) :: (← writeFields style rest)

end

/-- The rule above and below a printed listing. -/
def rule : String := "\n--------------------------------\n"

/-- The document of a program as it is printed before the program runs. -/
def announce (document : Listing) : Except Fault String := do
  return " ".intercalate ["AST:", rule, ← write (.indented 0) document, rule] ++ "\n"

end Listing

end Scriptlet
