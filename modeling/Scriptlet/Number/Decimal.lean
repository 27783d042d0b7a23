import Scriptlet.Number.Binary

set_option autoImplicit false

/-!
Decimal text of doubles: the fewest digits that read back as the same double, and of those the
decimal nearest to it. Numbers from `0.0001` up to `10 ^ 16` are written in full, others with an
exponent of ten.
-/

namespace Scriptlet.Number

/-- The decimal number `digits · 10 ^ exponent`. -/
structure Decimal where
  digits : Nat
  exponent : Int
deriving Repr, DecidableEq

/-- Moves trailing zeros of the digits into the exponent. The fuel is the most zeros moved. -/
def Decimal.trim : Nat → Decimal → Decimal
  | 0, d => d
  | fuel + 1, d =>
    if d.digits ≠ 0 && d.digits % 10 = 0 then trim fuel ⟨d.digits / 10, d.exponent + 1⟩ else d

/-- The least `p` with `num / den < 10 ^ p`, where `num / den` is not zero, found near a guess. -/
def decimalPlace (num den : Nat) : Int :=
  let guess : Int := (((num.log2 : Int) - den.log2 - 1) * 30103).fdiv 100000
  let below (p : Int) : Bool :=
    if p < 0 then num * Nat.pow 10 p.natAbs < den else num < den * Nat.pow 10 p.natAbs
  if below guess then guess
  else if below (guess + 1) then guess + 1
  else if below (guess + 2) then guess + 2
  else guess + 3

/-- The interval of reals that round to `mantissa · 2 ^ exponent`, over four times its ratio: the
numerators of the low end, the number itself and the high end, and their common denominator. -/
def roundingInterval (mantissa : Nat) (exponent : Int) : Nat × Nat × Nat × Nat :=
  let (num, den) := ratioOf mantissa (exponent - 2)
  let unit := num / mantissa
  let below := if mantissa = Nat.pow 2 52 && exponent > -1074 then unit else 2 * unit
  (4 * num - below, 4 * num, 4 * num + 2 * unit, den)

/-- The decimal with the given number of digits nearest to the number, if one of its two neighbours
on that grid lies in the interval. -/
def digitsWithin? (low value high den : Nat) (closed : Bool) (place : Int) (count : Nat) :
    Option Decimal :=
  let exponent := place - count
  let (scale, step) : Nat × Nat :=
    if exponent < 0 then (Nat.pow 10 exponent.natAbs, den)
    else (1, den * Nat.pow 10 exponent.natAbs)
  let below := value * scale / step
  let above := below + 1
  let belowFits := if closed then low * scale ≤ below * step else low * scale < below * step
  let aboveFits := if closed then above * step ≤ high * scale else above * step < high * scale
  let belowGap := value * scale - below * step
  let aboveGap := above * step - value * scale
  if belowFits && (!aboveFits || belowGap < aboveGap || belowGap = aboveGap && below % 2 = 0) then
    some ⟨below, exponent⟩
  else if aboveFits then some ⟨above, exponent⟩
  else none

/-- The shortest decimal that reads back as `mantissa · 2 ^ exponent`. Seventeen digits always do. -/
def shortest (mantissa : Nat) (exponent : Int) : Decimal :=
  if mantissa = 0 then ⟨0, 0⟩
  else
    let (low, value, high, den) := roundingInterval mantissa exponent
    let place := decimalPlace value den
    let closed := mantissa % 2 = 0
    let found := (List.range 17).findSome? fun i =>
      digitsWithin? low value high den closed place (i + 1)
    (found.getD ⟨mantissa, exponent⟩).trim 17

/-- How decimals are laid out: up to which place in full, and whether a whole number keeps `.0`. -/
structure Layout where
  leastPlace : Int
  greatestPlace : Int
  keepPoint : Bool

/-- Written in full from the fourth place after the point up to sixteen places before it. -/
def plainLayout : Layout := ⟨-3, 16, true⟩

/-- As the plain layout, but whole numbers stand without a point. -/
def bareLayout : Layout := { plainLayout with keepPoint := false }

/-- At least two digits of an exponent, after its sign. -/
def exponentText (e : Int) : String :=
  let digits := toString e.natAbs
  (if e < 0 then "e-" else "e+") ++ (if digits.length < 2 then "0" ++ digits else digits)

/-- The text of a non-negative decimal without trailing zeros. -/
def Decimal.text (layout : Layout) (d : Decimal) : String :=
  let digits := Nat.toDigits 10 d.digits
  let place : Int := if d.digits = 0 then 1 else d.exponent + digits.length
  if place < layout.leastPlace || layout.greatestPlace < place then
    let tail := digits.drop 1
    String.ofList (digits.take 1 ++ (if tail.isEmpty then [] else '.' :: tail))
      ++ exponentText (place - 1)
  else if place ≤ 0 then
    String.ofList ('0' :: '.' :: List.replicate place.natAbs '0' ++ digits)
  else
    let whole := digits.take place.natAbs
    let zeros := List.replicate (place.natAbs - digits.length) '0'
    let tail := digits.drop place.natAbs
    let ending := if tail.isEmpty then (if layout.keepPoint then ['.', '0'] else []) else '.' :: tail
    String.ofList (whole ++ zeros ++ ending)

/-- The text of a double in a layout. -/
def layoutText (layout : Layout) (x : Float) : String :=
  match Binary.ofFloat? x with
  | some b =>
    (if b.negative then "-" else "") ++ (shortest b.mantissa b.exponent).text layout
  | none => if x.isNaN then "nan" else if x < 0.0 then "-inf" else "inf"

/-- The text of a double. -/
def floatText (x : Float) : String := layoutText plainLayout x

/-- The text of a complex number: the imaginary part alone if the real part is a plain zero. -/
def complexText (re im : Float) : String :=
  let imaginary := layoutText bareLayout im
  if re == 0.0 && !signBit re then imaginary ++ "j"
  else
    let sign := if imaginary.startsWith "-" then "" else "+"
    "(" ++ layoutText bareLayout re ++ sign ++ imaginary ++ "j)"

end Scriptlet.Number
