import Scriptlet.Number.Arithmetic
import Scriptlet.Value

set_option autoImplicit false

/-!
Equality and order of values. Numbers of different kinds compare by size, and truth values count as
one and zero. Strings compare by code points and lists item by item. Two objects are equal when they
have equal entries in any order. Functions are equal when they come from the same definition, and no
two expressions are equal.
-/

namespace Scriptlet.Value

/-- The number that a value is. -/
def num? : Value → Option Number.Num
  | bool b => some (.int (if b then 1 else 0))
  | int n => some (.int n)
  | float x => some (.float x)
  | complex re im => some (.complex re im)
  | _ => none

/-- A number and a value that is the same number. -/
def equalNum (n : Number.Num) (other : Value) : Bool :=
  match num? other with
  | some m => n.equal m
  | none => false

mutual

/-- Equality of values. -/
def equal : Value → Value → Bool
  | null, other => match other with
    | null => true
    | _ => false
  | str s, other => match other with
    | str t => s == t
    | _ => false
  | list items, other => match other with
    | list others => equalItems items others
    | _ => false
  | obj entries, other => match other with
    | obj others => entries.length == others.length && equalEntries entries others
    | _ => false
  | builtin f, other => match other with
    | builtin g => f == g
    | _ => false
  | function serial .., other => match other with
    | function serial' .. => serial == serial'
    | _ => false
  | node _, _ => false
  | bool b, other => equalNum (.int (if b then 1 else 0)) other
  | int n, other => equalNum (.int n) other
  | float x, other => equalNum (.float x) other
  | complex re im, other => equalNum (.complex re im) other

def equalItems : List Value → List Value → Bool
  | [], [] => true
  | v :: rest, w :: rest' => equal v w && equalItems rest rest'
  | _, _ => false

def equalEntries : List (String × Value) → List (String × Value) → Bool
  | [], _ => true
  | (key, v) :: rest, others =>
    (match atKey? key others with
      | some w => equal v w
      | none => false) && equalEntries rest others

end

/-- The four orderings. -/
inductive Relation
  | less
  | greater
  | atMost
  | atLeast
deriving Repr, DecidableEq

namespace Relation

def symbol : Relation → String
  | less => "<"
  | greater => ">"
  | atMost => "<="
  | atLeast => ">="

/-- Whether the relation admits an order. -/
def admits : Relation → Ordering → Bool
  | less, o => o == .lt
  | greater, o => o == .gt
  | atMost, o => o != .gt
  | atLeast, o => o != .lt

end Relation

mutual

/-- Whether two values stand in a relation. Lists are decided by their first unequal items. -/
def related (r : Relation) : Value → Value → Except Fault Bool
  | str s, other => match other with
    | str t => .ok (r.admits (compare s.toList t.toList))
    | _ => .error (.notOrdered r.symbol "str" other.kind)
  | list items, other => match other with
    | list others => relatedItems r items others
    | _ => .error (.notOrdered r.symbol "list" other.kind)
  | v, other =>
    match num? v, num? other with
    | some n, some m =>
      match n.order? m with
      | some (some o) => .ok (r.admits o)
      | some none => .ok false
      | none => .error (.notOrdered r.symbol v.kind other.kind)
    | _, _ => .error (.notOrdered r.symbol v.kind other.kind)

def relatedItems (r : Relation) : List Value → List Value → Except Fault Bool
  | [], others => .ok (r.admits (compare 0 others.length))
  | _ :: _, [] => .ok (r.admits .gt)
  | v :: rest, w :: rest' => if equal v w then relatedItems r rest rest' else related r v w

end

end Scriptlet.Value
