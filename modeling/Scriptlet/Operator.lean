import Scriptlet.Value.Compare

set_option autoImplicit false

/-! The operators of the language on values. -/

namespace Scriptlet

namespace Value

/-- A number as a value. -/
def ofNum : Number.Num → Value
  | .int n => int n
  | .float x => float x
  | .complex re im => complex re im

/-- The largest count that a list or a string can be repeated by. -/
def countLimit : Int := Int.pow 2 63

/-- The most items that a repetition may have. -/
def sizeLimit : Nat := Nat.pow 2 40

/-- The whole number that a value is, as a count of repetitions. -/
def count? : Value → Option Int
  | bool b => some (if b then 1 else 0)
  | int n => some n
  | _ => none

/-- A sequence repeated; none or fewer times give the empty one. -/
def repeatItems {α : Type} (items : List α) (times : Int) (tooLong : Fault) :
    Except Fault (List α) :=
  if countLimit ≤ times || times < -countLimit then .error (.overflow .repeatCount)
  else if items.isEmpty then .ok []
  else if countLimit.toNat ≤ items.length * times.toNat then .error tooLong
  else if sizeLimit < items.length * times.toNat then .error .outOfMemory
  else .ok (List.replicate times.toNat items).flatten

/-- A string or a list times a count. -/
def repeated (times : Int) : Value → Option (Except Fault Value)
  | str s => some do
    return str (String.ofList (← repeatItems s.toList times (.overflow .repeatedText)))
  | list items => some do return list (← repeatItems items times .outOfMemory)
  | _ => none

def add (v w : Value) : Except Fault Value :=
  match v, w with
  | str s, str t => .ok (str (s ++ t))
  | list items, list others => .ok (list (items ++ others))
  | str _, _ => .error (.notConcatenable "str" w.kind)
  | list _, _ => .error (.notConcatenable "list" w.kind)
  | _, _ =>
    match num? v, num? w with
    | some n, some m => ofNum <$> n.add m
    | _, _ => .error (.unsupported "+" v.kind w.kind)

/-- Whether a value can be repeated. -/
def isSequence : Value → Bool
  | str _ | list _ => true
  | _ => false

def mul (v w : Value) : Except Fault Value :=
  match num? v, num? w with
  | some n, some m => ofNum <$> n.mul m
  | _, _ =>
    if v.isSequence then
      match count? w with
      | some times => (repeated times v).getD (.error (.notRepeatable w.kind))
      | none => .error (.notRepeatable w.kind)
    else if w.isSequence then
      match count? v with
      | some times => (repeated times w).getD (.error (.notRepeatable v.kind))
      | none => .error (.notRepeatable v.kind)
    else .error (.unsupported "*" v.kind w.kind)

/-- An operator that is defined on numbers alone. -/
def numeric (symbol : String)
    (f : Number.Num → Number.Num → Option (Except Fault Number.Num)) (v w : Value) :
    Except Fault Value :=
  match num? v, num? w with
  | some n, some m =>
    match f n m with
    | some result => ofNum <$> result
    | none => .error (.unsupported symbol v.kind w.kind)
  | _, _ => .error (.unsupported symbol v.kind w.kind)

def sub : Value → Value → Except Fault Value := numeric "-" fun n m => some (n.sub m)

def div : Value → Value → Except Fault Value := numeric "/" fun n m => some (n.div m)

def floorDiv : Value → Value → Except Fault Value := numeric "//" Number.Num.floorDiv?

def pow : Value → Value → Except Fault Value := numeric "** or pow()" fun n m => some (n.pow m)

/-- Truth as the language writes it. -/
def truth (b : Bool) : Value := str (if b then "true" else "false")

end Value

/-- The operators between two operands. -/
inductive Operator
  | add
  | sub
  | div
  | floorDiv
  | mul
  | pow
  | relation (r : Value.Relation)
  | eq
  | ne
deriving Repr, DecidableEq

namespace Operator

/-- The operator that a symbol stands for. Symbols that can be written but have no meaning, such as
`%` and `&&`, have none. -/
def ofSymbol? : String → Option Operator
  | "+" => some add
  | "-" => some sub
  | "/" => some div
  | "//" => some floorDiv
  | "*" => some mul
  | "^" => some pow
  | ">" => some (relation .greater)
  | "<" => some (relation .less)
  | ">=" => some (relation .atLeast)
  | "<=" => some (relation .atMost)
  | "==" => some eq
  | "!=" => some ne
  | _ => none

def apply : Operator → Value → Value → Except Fault Value
  | add, v, w => v.add w
  | sub, v, w => v.sub w
  | div, v, w => v.div w
  | floorDiv, v, w => v.floorDiv w
  | mul, v, w => v.mul w
  | pow, v, w => v.pow w
  | relation r, v, w => Value.truth <$> v.related r w
  | eq, v, w => .ok (Value.truth (v.equal w))
  | ne, v, w => .ok (Value.truth (!v.equal w))

/-- Applies the operator of a symbol. -/
def applySymbol (symbol : String) (v w : Value) : Except Fault Value :=
  match ofSymbol? symbol with
  | some op => op.apply v w
  | none => .error (.noEntry symbol)

end Operator

/-- The operators on one operand. -/
inductive UnaryOperator
  | truth
  | negate
  | increment
  | decrement
  | keep
deriving Repr, DecidableEq

namespace UnaryOperator

/-- The operator that a symbol stands for. -/
def ofSymbol? : String → Option UnaryOperator
  | "!" => some truth
  | "-" => some negate
  | "++" => some increment
  | "++:post" => some keep
  | "--" => some decrement
  | _ => none

/-- Negation takes the double of a value away from it. -/
def apply : UnaryOperator → Value → Except Fault Value
  | truth, v => .ok (Value.truth v.truthy)
  | negate, v => do v.sub (← v.mul (.int 2))
  | increment, v => v.add (.int 1)
  | decrement, v => v.sub (.int 1)
  | keep, v =>
    match v with
    | .null => .ok (.int 0)
    | _ => .ok v

/-- Applies the operator of a symbol. -/
def applySymbol (symbol : String) (v : Value) : Except Fault Value :=
  match ofSymbol? symbol with
  | some op => op.apply v
  | none => .error (.noEntry symbol)

end UnaryOperator

end Scriptlet
