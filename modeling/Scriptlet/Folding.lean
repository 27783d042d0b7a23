import Scriptlet.Number.Numeral
import Scriptlet.Operator
import Scriptlet.Value.Text

set_option autoImplicit false

/-!
Constant folding. Operators on literals are worked out before a program runs. The bodies of functions,
conditionals and returns are left as they are.

Folding also changes the program that it is given: the value of an assignment and the arguments of a
call are put in place of the ones that stood there. So `fold` gives both the folded expression and what
has become of the given one, which counts also after a fault.
-/

namespace Scriptlet

/-- What folding gives, and what has become of the thing folded. -/
abbrev Folded (α : Type) := Except Fault α × α

namespace Expr

/-- A value as a whole number. -/
def wholeOf : Value → Except Fault Int
  | .int n => .ok n
  | .bool b => .ok (if b then 1 else 0)
  | .str s => Number.readInt s
  | v => .error (.noInt v.kind)

/-- The value inside an operand that is to be folded. -/
def operandValue (e : Expr) : Except Fault Value :=
  match Value.inner? e with
  | some v => .ok v
  | none => .error (.noAttribute e.toValue.kind "value")

/-- The folded form of an operator before its operand, which is that operator itself unless the operand
is a number. -/
def foldUnary (operator : String) (operand : Expr) (self : Expr) : Except Fault Expr :=
  match operand with
  | literal .integer v => do
    return int (← wholeOf (← UnaryOperator.applySymbol operator v))
  | literal .floating v => do return literal .floating (← UnaryOperator.applySymbol operator v)
  | _ => .ok self

/-- The folded form of two strings, or of a string and a number, under an operator. -/
def foldStrings (operator : String) (left right : Expr) (self : Expr) : Except Fault Expr :=
  match left, right with
  | literal .string v, literal .string w =>
    if operator ≠ "+" then .error .onlyConcatenation
    else do return str ((← v.text) ++ (← w.text))
  | literal .string v, literal .integer n =>
    if operator ≠ "*" then .error .onlyRepetition
    else do return literal .string (← (Value.str (← v.text)).mul n)
  | _, _ => .ok self

/-- The folded form of an operator between two operands, which is that operator itself unless the
result is a number or a string. -/
def foldBinary (operator : String) (left right : Expr) (self : Expr) : Except Fault Expr :=
  match Operator.ofSymbol? operator with
  | none => .error (.noEntry operator)
  | some op => do
    let v ← operandValue left
    let w ← operandValue right
    match ← op.apply v w with
    | .int n => return int n
    | .bool b => return literal .integer (.bool b)
    | .float x => return float x
    | _ => foldStrings operator left right self

mutual

/-- Folds an expression. -/
def fold : Expr → Folded Expr
  | unary operator operand =>
    match fold operand with
    | (.error fault, operand) => (.error fault, unary operator operand)
    | (.ok folded, operand) =>
      (foldUnary operator folded (unary operator operand), unary operator operand)
  | binary operator left right =>
    match fold left with
    | (.error fault, left) => (.error fault, binary operator left right)
    | (.ok foldedLeft, left) =>
      match fold right with
      | (.error fault, right) => (.error fault, binary operator left right)
      | (.ok foldedRight, right) =>
        (foldBinary operator foldedLeft foldedRight (binary operator left right),
          binary operator left right)
  | assign binding name value =>
    match fold value with
    | (.error fault, value) => (.error fault, assign binding name value)
    | (.ok folded, _) => (.ok (assign binding name folded), assign binding name folded)
  | call name args =>
    match foldAll args with
    | (.error fault, args) => (.error fault, call name args)
    | (.ok folded, _) => (.ok (call name folded), call name folded)
  | e => (.ok e, e)

/-- Folds expressions one after another up to the first fault. -/
def foldAll : List Expr → Folded (List Expr)
  | [] => (.ok [], [])
  | e :: rest =>
    match fold e with
    | (.error fault, e) => (.error fault, e :: rest)
    | (.ok folded, e) =>
      match foldAll rest with
      | (.error fault, rest) => (.error fault, e :: rest)
      | (.ok others, rest) => (.ok (folded :: others), e :: rest)

end

/-- The statements that a folded statement stands for: a list stands for its items. -/
def spread : Expr → List Expr
  | datum (.list items) => items.map ofValue
  | e => [e]

/-- Folds the statements of a program. -/
def foldProgram (program : List Expr) : Folded (List Expr) :=
  let (folded, after) := foldAll program
  (folded.map (·.flatMap spread), after)

/-- Folds a program that may be missing. -/
def foldProgram? : Option (List Expr) → Except Fault (List Expr) × Option (List Expr)
  | none => (.error .noProgram, none)
  | some program =>
    let (folded, after) := foldProgram program
    (folded, some after)

end Expr

end Scriptlet
