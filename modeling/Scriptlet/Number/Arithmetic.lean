import Scriptlet.Number.Binary
import Scriptlet.Fault

set_option autoImplicit false

/-!
Arithmetic of integers, doubles and complex numbers. Integers are unbounded; where an integer meets a
double it is rounded to one, but comparisons are exact.
-/

namespace Scriptlet.Number

/-- A number of one of three kinds. -/
inductive Num
  | int (n : Int)
  | float (x : Float)
  | complex (re im : Float)

/-- Not a number. -/
def notANumber : Float := 0.0 / 0.0

/-- An integer as a double. -/
def toFloat (n : Int) : Except Fault Float :=
  match ofInt? n with
  | some x => .ok x
  | none => .error (.overflow .intToFloat)

/-- The remainder of `x` by `y` with the sign of `x`, exactly. -/
def remainder (x y : Float) : Float :=
  match Binary.ofFloat? x, Binary.ofFloat? y with
  | some a, some b =>
    if b.mantissa = 0 then notANumber
    else
      let base := min a.exponent b.exponent
      let left := a.mantissa * Nat.pow 2 (a.exponent - base).natAbs
      let right := b.mantissa * Nat.pow 2 (b.exponent - base).natAbs
      let (num, den) := ratioOf (left % right) base
      withSign ((nearest? num den).getD 0.0) x
  | some _, none => if y.isNaN then y else x
  | none, _ => notANumber

/-- An odd whole number. -/
def isOddWhole (x : Float) : Bool := remainder x.abs 2.0 == 1.0

/-- The largest whole double not above `x / y`, up to one rounding of the quotient. -/
def floorQuotient (x y : Float) : Float :=
  let rem := remainder x y
  let quotient := (x - rem) / y
  let quotient := if rem != 0.0 && (y < 0.0) != (rem < 0.0) then quotient - 1.0 else quotient
  if quotient != 0.0 then
    let whole := quotient.floor
    if quotient - whole > 0.5 then whole + 1.0 else whole
  else withSign 0.0 (x / y)

/-- The quotient of two integers, rounded once. -/
def intQuotient (a b : Int) : Except Fault Float :=
  if b = 0 then .error (.zeroDivision .intQuotient)
  else
    match nearest? a.natAbs b.natAbs with
    | some x => .ok (if (a < 0) != (b < 0) then -x else x)
    | none => .error (.overflow .quotient)

/-- The whole square root, bit by bit from the given place down. -/
def wholeRoot (n : Nat) : Nat → Nat → Nat
  | 0, root => root
  | place + 1, root =>
    let next := root + Nat.pow 2 place
    wholeRoot n place (if next * next ≤ n then next else root)

/-- The length of a complex number: the root of a sum of squares, to 80 bits and then rounded. -/
def magnitude (re im : Float) : Float :=
  if im == 0.0 then re.abs
  else if re == 0.0 then im.abs
  else
    match Binary.ofFloat? re, Binary.ofFloat? im with
    | some a, some b =>
      let base := min a.exponent b.exponent
      let left := a.mantissa * Nat.pow 2 (a.exponent - base).natAbs
      let right := b.mantissa * Nat.pow 2 (b.exponent - base).natAbs
      let square := left * left + right * right
      let shift := 80 - square.log2 / 2
      let root := wholeRoot (square * Nat.pow 4 shift) (square.log2 / 2 + shift + 1) 0
      let odd := if root * root = square * Nat.pow 4 shift then 2 * root else 2 * root + 1
      let (num, den) := scaleDown odd (Nat.pow 2 (shift + 1)) (-base)
      (nearest? num den).getD infinity
    | _, _ => if re.isInf || im.isInf then infinity else notANumber

/-- The product of complex numbers. -/
def complexProduct (a b : Float × Float) : Float × Float :=
  (a.1 * b.1 - a.2 * b.2, a.1 * b.2 + a.2 * b.1)

/-- The quotient of complex numbers, scaled by the larger part of the divisor. -/
def complexQuotient (a b : Float × Float) : Option (Float × Float) :=
  if b.1.abs ≥ b.2.abs then
    if b.1 == 0.0 then none
    else
      let ratio := b.2 / b.1
      let den := b.1 + b.2 * ratio
      some ((a.1 + a.2 * ratio) / den, (a.2 - a.1 * ratio) / den)
  else if b.2.abs ≥ b.1.abs then
    let ratio := b.1 / b.2
    let den := b.1 * ratio + b.2
    some ((a.1 * ratio + a.2) / den, (a.2 * ratio - a.1) / den)
  else some (notANumber, notANumber)

/-- Repeated squaring: `square` is the base raised to the place of the lowest bit left. -/
def complexPowerNat (square : Float × Float) (n : Nat) (acc : Float × Float) : Float × Float :=
  if n = 0 then acc
  else
    complexPowerNat (complexProduct square square) (n / 2)
      (if n % 2 = 1 then complexProduct acc square else acc)
termination_by n

/-- A complex power by way of length and angle. -/
def polarPower (a b : Float × Float) : Option (Float × Float) :=
  if b.1 == 0.0 && b.2 == 0.0 then some (1.0, 0.0)
  else if a.1 == 0.0 && a.2 == 0.0 then
    if b.2 != 0.0 || b.1 < 0.0 then none else some (0.0, 0.0)
  else
    let size := magnitude a.1 a.2
    let angle := Float.atan2 a.2 a.1
    let length := size.pow b.1
    let phase := angle * b.1
    if b.2 != 0.0 then
      let length := length / Float.exp (angle * b.2)
      let phase := phase + b.2 * Float.log size
      some (length * phase.cos, length * phase.sin)
    else some (length * phase.cos, length * phase.sin)

/-- A complex power. Whole exponents up to a hundred are taken by repeated squaring. -/
def complexPower (a b : Float × Float) : Except Fault Num :=
  let small := b.2 == 0.0 && b.1 == b.1.floor && b.1.abs ≤ 100.0
  let result :=
    if small then
      let power := complexPowerNat a b.1.abs.toUInt64.toNat (1.0, 0.0)
      if b.1 > 0.0 then some power else complexQuotient (1.0, 0.0) power
    else polarPower a b
  match result with
  | none => .error (.zeroDivision .complexPower)
  | some (re, im) =>
    if re.isInf || im.isInf then .error (.overflow .complexPower) else .ok (.complex re im)

/-- A power of doubles. A negative base with a broken exponent has a complex power. -/
def floatPower (base exponent : Float) : Except Fault Num :=
  if exponent == 0.0 then .ok (.float 1.0)
  else if base.isNaN then .ok (.float base)
  else if exponent.isNaN then .ok (.float (if base == 1.0 then 1.0 else exponent))
  else if exponent.isInf then
    if base.abs == 1.0 then .ok (.float 1.0)
    else if (exponent > 0.0) == (base.abs > 1.0) then .ok (.float exponent.abs)
    else .ok (.float 0.0)
  else if base.isInf then
    if exponent > 0.0 then .ok (.float (if isOddWhole exponent then base else base.abs))
    else .ok (.float (if isOddWhole exponent then withSign 0.0 base else 0.0))
  else if base == 0.0 then
    if exponent < 0.0 then .error (.zeroDivision .power)
    else .ok (.float (if isOddWhole exponent then base else 0.0))
  else if base < 0.0 && exponent != exponent.floor then complexPower (base, 0.0) (exponent, 0.0)
  else
    let size := if base.abs == 1.0 then 1.0 else base.abs.pow exponent
    if size.isInf then .error (.overflow .power)
    else .ok (.float (if base < 0.0 && isOddWhole exponent then -size else size))

/-- A power of integers: exact unless the exponent is negative. -/
def intPower (base exponent : Int) : Except Fault Num :=
  if 0 ≤ exponent then
    if base = 1 || exponent = 0 then .ok (.int 1)
    else if base = 0 then .ok (.int 0)
    else if base = -1 then .ok (.int (if exponent % 2 = 0 then 1 else -1))
    else .ok (.int (base.pow exponent.toNat))
  else do floatPower (← toFloat base) (← toFloat exponent)

namespace Num

/-- The double of a real number; a complex number has none. -/
def real? : Num → Option (Except Fault Float)
  | int n => some (toFloat n)
  | float x => some (.ok x)
  | complex .. => none

/-- The parts of any number. -/
def parts : Num → Except Fault (Float × Float)
  | int n => do return (← toFloat n, 0.0)
  | float x => .ok (x, 0.0)
  | complex re im => .ok (re, im)

/-- An operation on two numbers: on doubles if both are real and one is a double, else on complex
numbers. -/
def mixed (onFloat : Float → Float → Except Fault Num)
    (onComplex : Float × Float → Float × Float → Except Fault Num) (a b : Num) : Except Fault Num :=
  match a.real?, b.real? with
  | some x, some y => do onFloat (← x) (← y)
  | _, _ => do onComplex (← a.parts) (← b.parts)

def add : Num → Num → Except Fault Num
  | int a, int b => .ok (int (a + b))
  | a, b => mixed (fun x y => .ok (float (x + y))) (fun x y => .ok (complex (x.1 + y.1) (x.2 + y.2))) a b

def sub : Num → Num → Except Fault Num
  | int a, int b => .ok (int (a - b))
  | a, b => mixed (fun x y => .ok (float (x - y))) (fun x y => .ok (complex (x.1 - y.1) (x.2 - y.2))) a b

def mul : Num → Num → Except Fault Num
  | int a, int b => .ok (int (a * b))
  | a, b =>
    mixed (fun x y => .ok (float (x * y)))
      (fun x y => let p := complexProduct x y; .ok (complex p.1 p.2)) a b

def div : Num → Num → Except Fault Num
  | int a, int b => do return float (← intQuotient a b)
  | a, b =>
    mixed
      (fun x y => if y == 0.0 then .error (.zeroDivision .floatQuotient) else .ok (float (x / y)))
      (fun x y =>
        match complexQuotient x y with
        | some q => .ok (complex q.1 q.2)
        | none => .error (.zeroDivision .complexQuotient)) a b

def pow : Num → Num → Except Fault Num
  | int a, int b => intPower a b
  | a, b => mixed floatPower complexPower a b

/-- The quotient rounded down; complex numbers have none. -/
def floorDiv? : Num → Num → Option (Except Fault Num)
  | int a, int b =>
    some (if b = 0 then .error (.zeroDivision .intFloor) else .ok (int (a.fdiv b)))
  | a, b =>
    match a.real?, b.real? with
    | some x, some y => some do
      let x ← x
      let y ← y
      if y == 0.0 then throw (.zeroDivision .floatFloor) else return float (floorQuotient x y)
    | _, _ => none

/-- The order of two reals, `none` if one is not a number. -/
def floatOrder (x y : Float) : Option Ordering :=
  if x < y then some .lt else if y < x then some .gt else if x == y then some .eq else none

/-- The order of two numbers: of complex numbers there is none at all, and with not-a-number there is
no order between the two. -/
def order? : Num → Num → Option (Option Ordering)
  | int a, int b => some (some (compare a b))
  | int a, float y => some (compareInt a y)
  | float x, int b => some ((compareInt b x).map Ordering.swap)
  | float x, float y => some (floatOrder x y)
  | _, _ => none

/-- Equality of numbers of any kinds. -/
def equal : Num → Num → Bool
  | complex a b, complex c d => a == c && b == d
  | complex a b, y => b == 0.0 && order? (float a) y == some (some .eq)
  | x, complex a b => b == 0.0 && order? (float a) x == some (some .eq)
  | x, y => order? x y == some (some .eq)

end Num

end Scriptlet.Number
