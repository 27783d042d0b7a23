import Scriptlet.Number.Binary
import Scriptlet.Fault
import Scriptlet.Text.Blank
import Scriptlet.Text.Digit

set_option autoImplicit false

/-!
Reading numerals. Blanks may stand around a numeral, a sign before it, single underscores between its
digits, and its digits may be those of any script.
-/

namespace Scriptlet.Number

/-- The most digits an integer may have as a text. -/
def digitLimit : Nat := 4300

/-- The text of an integer, unless it has too many digits. -/
def intText (n : Int) : Except Fault String :=
  if n.natAbs < Nat.pow 10 digitLimit then .ok (toString n) else .error .tooLongToPrint

/-- A blank around a numeral: of the ASCII characters only tabs, line ends and the space. -/
def isPadding (c : Char) : Bool :=
  if c.toNat < 127 then c = ' ' || 9 ≤ c.toNat && c.toNat ≤ 13 else Text.isBlank c

/-- A decimal digit as a character of ASCII; other characters stand for themselves. -/
def plainDigit (c : Char) : Char :=
  match Text.decimalValue? c with
  | some d => Char.ofNat (48 + d)
  | none => c

/-- The numeral within its padding, with plain digits. -/
def unpadded (text : String) : List Char :=
  ((text.toList.dropWhile isPadding).reverse.dropWhile isPadding).reverse.map plainDigit

/-- The number that plain digits stand for. -/
def digitsValue (digits : List Char) : Nat :=
  digits.foldl (fun n c => n * 10 + (c.toNat - 48)) 0

/-- Splits off a leading sign; `true` if it is a minus. -/
def splitSign : List Char → Bool × List Char
  | '-' :: rest => (true, rest)
  | '+' :: rest => (false, rest)
  | rest => (false, rest)

/-- Every underscore stands between two digits. -/
def underscoresFit : List Char → Bool
  | [] => true
  | [c] => c ≠ '_'
  | a :: b :: rest =>
    (a ≠ '_' || b.isDigit) && (b ≠ '_' || a.isDigit) && underscoresFit (b :: rest)

/-- Reads a whole number. -/
def readInt (text : String) : Except Fault Int :=
  let (negative, body) := splitSign (unpadded text)
  let run := body.takeWhile fun c => c.isDigit || c = '_'
  let digits := run.filter Char.isDigit
  if run.head? = some '_' || !underscoresFit run || digits.isEmpty then .error (.notInt text)
  else if digitLimit < digits.length then .error (.tooManyDigits digits.length)
  else if run.length < body.length then .error (.notInt text)
  else
    let value : Int := digitsValue digits
    .ok (if negative then -value else value)

/-- The exponent after a mantissa: nothing, or `e`, a sign and digits up to the end. -/
def readExponent : List Char → Option Int
  | [] => some 0
  | c :: rest =>
    if c = 'e' || c = 'E' then
      let (negative, digits) := splitSign rest
      if digits.isEmpty || !digits.all Char.isDigit then none
      else some (if negative then -(digitsValue digits : Int) else digitsValue digits)
    else none

/-- The double nearest to `value · 10 ^ exponent`. A number beyond all doubles is infinite, and one
far below them is zero. -/
def decimalFloat (value : Nat) (exponent : Int) : Float :=
  let size : Int := (Nat.toDigits 10 value).length + exponent
  if value = 0 || size < -330 then 0.0
  else if 310 < size then infinity
  else
    let ratio := if exponent < 0 then nearest? value (Nat.pow 10 exponent.natAbs)
      else nearest? (value * Nat.pow 10 exponent.natAbs) 1
    ratio.getD infinity

/-- Reads a number with a decimal point. -/
def readFloat (text : String) : Except Fault Float :=
  let plain := unpadded text
  let (negative, body) := splitSign (plain.filter (· ≠ '_'))
  let whole := body.takeWhile Char.isDigit
  let afterWhole := body.drop whole.length
  let tail := if afterWhole.head? = some '.' then afterWhole.drop 1 else afterWhole
  let fraction := if afterWhole.head? = some '.' then tail.takeWhile Char.isDigit else []
  match readExponent (tail.drop fraction.length) with
  | some exponent =>
    if !underscoresFit plain || (whole.isEmpty && fraction.isEmpty) then .error (.notFloat text)
    else
      let size := decimalFloat (digitsValue (whole ++ fraction)) (exponent - fraction.length)
      .ok (if negative then -size else size)
  | none => .error (.notFloat text)

end Scriptlet.Number
