import Mathlib.Logic.Function.Basic
import Scriptlet.Proofs.Value.Renumber

set_option autoImplicit false

/-!
Functions at other addresses. The host decides where functions lie, and their texts show it.
`Value.unaddressed` leaves the addresses out. Values that are the same without addresses, under numbers
that correspond, become the same when the functions in one of them are put where those in the other lie
(`exists_readdressed`).
-/

namespace Scriptlet

def Builtin.unaddressed : Builtin → Builtin
  | .print _ => .print Value.noAddress
  | .string _ => .string Value.noAddress
  | .input _ => .input Value.noAddress
  | .echo serial => .echo serial

mutual

/-- A value without the addresses of the functions in it. -/
def Value.unaddressed : Value → Value
  | .null => .null
  | .bool b => .bool b
  | .int n => .int n
  | .float x => .float x
  | .complex re im => .complex re im
  | .str s => .str s
  | .list items => .list (Value.unaddressedItems items)
  | .obj entries => .obj (Value.unaddressedEntries entries)
  | .builtin g => .builtin g.unaddressed
  | .function serial _ name params body => .function serial Value.noAddress name params body
  | .node e => .node e.unaddressed

def Value.unaddressedItems : List Value → List Value
  | [] => []
  | v :: rest => v.unaddressed :: Value.unaddressedItems rest

def Value.unaddressedEntries : List (String × Value) → List (String × Value)
  | [] => []
  | (key, v) :: rest => (key, v.unaddressed) :: Value.unaddressedEntries rest

/-- Of an expression only those parts have addresses that can be taken out of it as values. -/
def Expr.unaddressed : Expr → Expr
  | .datum v => .datum v.unaddressed
  | .literal kind v => .literal kind v.unaddressed
  | .ident name => .ident name
  | .property name index => .property name index
  | .unary operator operand => .unary operator operand.unaddressed
  | .binary operator left right => .binary operator left right
  | .assign binding name value => .assign binding name value.unaddressed
  | .call name args => .call name args
  | .define name params body => .define name params body
  | .param p => .param p
  | .ret value => .ret value.unaddressed
  | .conditional keyword condition body otherwise => .conditional keyword condition body otherwise
  | .module parents name => .module parents name

end

mutual

/-- Numbers and addresses have nothing to do with each other. -/
theorem Value.unaddressed_renumber (f : Nat → Nat) :
    ∀ v : Value, (v.renumber f).unaddressed = v.unaddressed.renumber f
  | .null | .bool _ | .int _ | .float _ | .complex .. | .str _ | .builtin _ | .function .. => by
      simp only [Value.renumber, Value.unaddressed]
  | .list items => by
      simp only [Value.renumber, Value.unaddressed, Value.unaddressedItems_renumberItems f items]
  | .obj entries => by
      simp only [Value.renumber, Value.unaddressed, Value.unaddressedEntries_renumberEntries f entries]
  | .node e => by simp only [Value.renumber, Value.unaddressed, Expr.unaddressed_renumber f e]

theorem Value.unaddressedItems_renumberItems (f : Nat → Nat) : ∀ items : List Value,
    Value.unaddressedItems (Value.renumberItems f items) =
      Value.renumberItems f (Value.unaddressedItems items)
  | [] => rfl
  | v :: rest => by
      simp only [Value.renumberItems, Value.unaddressedItems, Value.unaddressed_renumber f v,
        Value.unaddressedItems_renumberItems f rest]

theorem Value.unaddressedEntries_renumberEntries (f : Nat → Nat) :
    ∀ entries : List (String × Value),
      Value.unaddressedEntries (Value.renumberEntries f entries) =
        Value.renumberEntries f (Value.unaddressedEntries entries)
  | [] => rfl
  | (key, v) :: rest => by
      simp only [Value.renumberEntries, Value.unaddressedEntries, Value.unaddressed_renumber f v,
        Value.unaddressedEntries_renumberEntries f rest]

theorem Expr.unaddressed_renumber (f : Nat → Nat) :
    ∀ e : Expr, (e.renumber f).unaddressed = e.unaddressed.renumber f
  | .datum v => by simp only [Expr.renumber, Expr.unaddressed, Value.unaddressed_renumber f v]
  | .literal kind v => by
      simp only [Expr.renumber, Expr.unaddressed, Value.unaddressed_renumber f v]
  | .unary operator operand => by
      simp only [Expr.renumber, Expr.unaddressed, Expr.unaddressed_renumber f operand]
  | .assign binding name value => by
      simp only [Expr.renumber, Expr.unaddressed, Expr.unaddressed_renumber f value]
  | .ret value => by simp only [Expr.renumber, Expr.unaddressed, Expr.unaddressed_renumber f value]
  | .ident _ | .property .. | .binary .. | .call .. | .define .. | .param _ | .conditional ..
  | .module .. => by simp only [Expr.renumber, Expr.unaddressed]

end

section Renumbering

variable {f g : Nat → Nat}

mutual

/-- Whether two renumberings give the same does not depend on addresses. -/
theorem Value.renumber_congr : ∀ {v : Value},
    v.unaddressed.renumber f = v.unaddressed.renumber g → v.renumber f = v.renumber g
  | .null, _ | .bool _, _ | .int _, _ | .float _, _ | .complex .., _ | .str _, _ | .builtin _, _ => by
      simp only [Value.renumber]
  | .function serial address name params body, same => by
      simp only [Value.unaddressed, Value.renumber, Value.function.injEq] at same
      rw [Value.renumber, Value.renumber, same.1]
  | .list items, same => by
      simp only [Value.unaddressed, Value.renumber, Value.list.injEq] at same
      rw [Value.renumber, Value.renumber, Value.renumberItems_congr same]
  | .obj entries, same => by
      simp only [Value.unaddressed, Value.renumber, Value.obj.injEq] at same
      rw [Value.renumber, Value.renumber, Value.renumberEntries_congr same]
  | .node e, same => by
      simp only [Value.unaddressed, Value.renumber, Value.node.injEq] at same
      rw [Value.renumber, Value.renumber, Expr.renumber_congr same]

theorem Value.renumberItems_congr : ∀ {items : List Value},
    Value.renumberItems f (Value.unaddressedItems items) =
      Value.renumberItems g (Value.unaddressedItems items) →
    Value.renumberItems f items = Value.renumberItems g items
  | [], _ => rfl
  | v :: rest, same => by
      simp only [Value.unaddressedItems, Value.renumberItems, List.cons.injEq] at same
      rw [Value.renumberItems, Value.renumberItems, Value.renumber_congr same.1,
        Value.renumberItems_congr same.2]

theorem Value.renumberEntries_congr : ∀ {entries : List (String × Value)},
    Value.renumberEntries f (Value.unaddressedEntries entries) =
      Value.renumberEntries g (Value.unaddressedEntries entries) →
    Value.renumberEntries f entries = Value.renumberEntries g entries
  | [], _ => rfl
  | (key, v) :: rest, same => by
      simp only [Value.unaddressedEntries, Value.renumberEntries, List.cons.injEq, Prod.mk.injEq]
        at same
      rw [Value.renumberEntries, Value.renumberEntries, Value.renumber_congr same.1.2,
        Value.renumberEntries_congr same.2]

theorem Expr.renumber_congr : ∀ {e : Expr},
    e.unaddressed.renumber f = e.unaddressed.renumber g → e.renumber f = e.renumber g
  | .datum v, same => by
      simp only [Expr.unaddressed, Expr.renumber, Expr.datum.injEq] at same
      rw [Expr.renumber, Expr.renumber, Value.renumber_congr same]
  | .literal kind v, same => by
      simp only [Expr.unaddressed, Expr.renumber, Expr.literal.injEq] at same
      rw [Expr.renumber, Expr.renumber, Value.renumber_congr same.2]
  | .unary operator operand, same => by
      simp only [Expr.unaddressed, Expr.renumber, Expr.unary.injEq] at same
      rw [Expr.renumber, Expr.renumber, Expr.renumber_congr same.2]
  | .assign binding name value, same => by
      simp only [Expr.unaddressed, Expr.renumber, Expr.assign.injEq] at same
      rw [Expr.renumber, Expr.renumber, Expr.renumber_congr same.2.2]
  | .ret value, same => by
      simp only [Expr.unaddressed, Expr.renumber, Expr.ret.injEq] at same
      rw [Expr.renumber, Expr.renumber, Expr.renumber_congr same]
  | .ident _, _ | .property .., _ | .binary .., _ | .call .., _ | .define .., _ | .param _, _
  | .conditional .., _ | .module .., _ => by simp only [Expr.renumber]

end

namespace Value

variable {v w : Value}

/-- Values that differ in addresses only are renumbered to the same by the same renumberings. -/
theorem renumber_eq_of_unaddressed (same : w.unaddressed = v.unaddressed)
    (equal : v.renumber f = v.renumber g) : w.renumber f = w.renumber g := by
  apply renumber_congr
  rw [same, ← unaddressed_renumber, ← unaddressed_renumber, equal]

/-- The functions in a value can be put where those in another one lie, if but for addresses the values
are the same. -/
theorem exists_readdressed (distinct : Function.Injective f)
    (same : (v.renumber f).unaddressed = (w.renumber g).unaddressed) :
    ∃ u : Value, u.unaddressed = v.unaddressed ∧ u.renumber f = w.renumber g := by
  -- Going back from the numbers of the first value, the second gets the numbers of the first.
  let back := Function.invFun f
  have left_inverse : back ∘ f = id := Function.invFun_comp distinct
  rw [unaddressed_renumber, unaddressed_renumber] at same
  have numbered : (w.renumber (back ∘ g)).unaddressed = v.unaddressed := by
    rw [unaddressed_renumber, ← renumber_renumber, ← same, renumber_renumber, left_inverse, renumber_id]
  refine ⟨w.renumber (back ∘ g), numbered, ?_⟩
  rw [renumber_renumber]
  apply renumber_congr
  rw [← renumber_renumber, ← unaddressed_renumber, numbered, same]

end Value

end Renumbering

end Scriptlet
