set_option autoImplicit false

/-!
Double-precision numbers taken apart and put together exactly. A finite number is
`± mantissa · 2 ^ exponent`; a ratio of natural numbers is rounded to the nearest double, a half to the
one with the even mantissa.
-/

namespace Scriptlet.Number

/-- A finite double: its sign, and its size as `mantissa · 2 ^ exponent`. -/
structure Binary where
  negative : Bool
  mantissa : Nat
  exponent : Int
deriving Repr, DecidableEq

/-- Takes a finite double apart. Infinities and not-a-number have no parts. -/
def Binary.ofFloat? (x : Float) : Option Binary :=
  let bits := x.toBits.toNat
  let negative := bits / Nat.pow 2 63 = 1
  let exponent : Nat := bits / Nat.pow 2 52 % Nat.pow 2 11
  let fraction : Nat := bits % Nat.pow 2 52
  if exponent = 2047 then none
  else if exponent = 0 then some ⟨negative, fraction, -1074⟩
  else some ⟨negative, Nat.pow 2 52 + fraction, (exponent : Int) - 1075⟩

/-- The numerator and denominator of `mantissa · 2 ^ exponent`. -/
def ratioOf (mantissa : Nat) (exponent : Int) : Nat × Nat :=
  if exponent < 0 then (mantissa, Nat.pow 2 exponent.natAbs)
  else (mantissa * Nat.pow 2 exponent.natAbs, 1)

/-- The sign-carrying numerator and the denominator of a finite double. -/
def Binary.ratio (b : Binary) : Int × Nat :=
  let (num, den) := ratioOf b.mantissa b.exponent
  (if b.negative then -(num : Int) else num, den)

/-- `num / den` to the nearest natural number, a half to the even one. -/
def roundHalfEven (num den : Nat) : Nat :=
  let q := num / den
  let r := num % den
  if 2 * r < den then q else if den < 2 * r then q + 1 else q + q % 2

/-- The ratio `num / (den · 2 ^ exponent)` as a numerator and a denominator. -/
def scaleDown (num den : Nat) (exponent : Int) : Nat × Nat :=
  if exponent < 0 then (num * Nat.pow 2 exponent.natAbs, den)
  else (num, den * Nat.pow 2 exponent.natAbs)

/-- The exponent with which `num / den` has a mantissa of 53 bits, or the least exponent of all. -/
def exponentFor (num den : Nat) : Int :=
  let guess : Int := (num.log2 : Int) - den.log2 - 52
  let (n, d) := scaleDown num den guess
  max (-1074) (if n / d < Nat.pow 2 52 then guess - 1 else guess)

/-- The double nearest to `num / den`, unless it is too large for one. -/
def nearest? (num den : Nat) : Option Float :=
  if num = 0 then some 0.0
  else
    let exponent := exponentFor num den
    let (n, d) := scaleDown num den exponent
    let mantissa := roundHalfEven n d
    let bits : Int := (exponent + 1074) * Int.pow 2 52 + mantissa
    if bits < 2047 * Int.pow 2 52 then some (Float.ofBits (UInt64.ofNat bits.toNat)) else none

/-- The positive infinite double. -/
def infinity : Float := Float.ofBits 0x7ff0000000000000

/-- The double nearest to an integer, unless it is too large for one. -/
def ofInt? (n : Int) : Option Float :=
  (nearest? n.natAbs 1).map fun x => if n < 0 then -x else x

/-- Whether the sign bit is set. -/
def signBit (x : Float) : Bool := x.toBits.toNat / Nat.pow 2 63 = 1

/-- The size of `x` with the sign of `y`. -/
def withSign (x y : Float) : Float := if signBit y then -x.abs else x.abs

/-- How an integer compares with a double; `none` if the double is not a number. -/
def compareInt (n : Int) (x : Float) : Option Ordering :=
  match Binary.ofFloat? x with
  | some b => let (num, den) := b.ratio; some (compare (n * den) num)
  | none => if x.isNaN then none else some (if x < 0.0 then .gt else .lt)

end Scriptlet.Number
