import Scriptlet.Proofs.Evaluation.Depth
import Scriptlet.Proofs.Folding.Steps

set_option autoImplicit false

/-!
Expressions that do the same wherever they stand, and expressions that are constant: they give one
value and leave the machine alone.
-/

namespace Scriptlet.Run

/-- Each of two expressions does what the other does. -/
def Equivalent (e e' : Expr) : Prop := ∃ depth, Refines depth e e' ∧ Refines depth e' e

theorem equivalent_refl (e : Expr) : Equivalent e e := ⟨0, refines_refl 0 e, refines_refl 0 e⟩

theorem equivalent_unary {x x' : Expr} (operator : String) (operand : Equivalent x x') :
    Equivalent (.unary operator x) (.unary operator x') := by
  obtain ⟨depth, forward, backward⟩ := operand
  exact ⟨depth, refines_unary operator forward, refines_unary operator backward⟩

theorem equivalent_binary {l l' r r' : Expr} (operator : String) (left : Equivalent l l')
    (right : Equivalent r r') : Equivalent (.binary operator l r) (.binary operator l' r') := by
  obtain ⟨first, forward, backward⟩ := left
  obtain ⟨second, forward', backward'⟩ := right
  have inFirst : first ≤ max first second := Nat.le_max_left _ _
  have inSecond : second ≤ max first second := Nat.le_max_right _ _
  exact ⟨max first second,
    refines_binary operator (refines_le inFirst forward) (refines_le inSecond forward'),
    refines_binary operator (refines_le inFirst backward) (refines_le inSecond backward')⟩

theorem equivalent_assign {e e' : Expr} (binding : Option String) (name : String)
    (value : Equivalent e e') : Equivalent (.assign binding name e) (.assign binding name e') := by
  obtain ⟨depth, forward, backward⟩ := value
  exact ⟨depth, refines_assign binding name forward, refines_assign binding name backward⟩

/-- One depth is enough for all expressions of a list. -/
theorem refines_of_equivalent {es es' : List Expr} (each : List.Forall₂ Equivalent es es') :
    ∃ depth, List.Forall₂ (Refines depth) es es' ∧ List.Forall₂ (Refines depth) es' es := by
  induction each with
  | nil => exact ⟨0, .nil, .nil⟩
  | cons first _ ih =>
      obtain ⟨depth, forward, backward⟩ := first
      obtain ⟨others, forward', backward'⟩ := ih
      have inFirst : depth ≤ max depth others := Nat.le_max_left _ _
      have inOthers : others ≤ max depth others := Nat.le_max_right _ _
      exact ⟨max depth others,
        .cons (refines_le inFirst forward) (forward'.imp fun _ _ => refines_le inOthers),
        .cons (refines_le inFirst backward) (backward'.imp fun _ _ => refines_le inOthers)⟩

theorem equivalent_call {args args' : List Expr} (name : String)
    (each : List.Forall₂ Equivalent args args') :
    Equivalent (.call name args) (.call name args') := by
  obtain ⟨depth, forward, backward⟩ := refines_of_equivalent each
  exact ⟨depth, refines_call name forward, refines_call name backward⟩

theorem evaluates_iff {program program' : List Expr}
    (each : List.Forall₂ Equivalent program program') (scope : Scope) (verbose : Bool)
    (folder : Option Path) (machine : Machine) (outcome : Except Fault (List Result) × Machine) :
    Evaluates program scope verbose folder machine outcome ↔
      Evaluates program' scope verbose folder machine outcome := by
  obtain ⟨depth, forward, backward⟩ := refines_of_equivalent each
  exact ⟨evaluates_of_refines forward, evaluates_of_refines backward⟩

/-- An expression gives a value and nothing else, with any bound from some depth on. -/
def Constant (e : Expr) (v : Value) : Prop :=
  ∃ depth, ∀ n, depth ≤ n → ∀ machine, (eval n e).exec machine = (.ok (.value v), machine)

theorem constant_literal {kind : LiteralKind} (v : Value) (notBoolean : kind ≠ .boolean)
    (notNull : kind ≠ .null) : Constant (.literal kind v) v := by
  refine ⟨1, fun n deep machine => ?_⟩
  obtain ⟨m, rfl⟩ : ∃ m, n = m + 1 := ⟨n - 1, by omega⟩
  cases kind with
  | boolean => exact absurd rfl notBoolean
  | null => exact absurd rfl notNull
  | _ => rfl

theorem refines_of_constant {e e' : Expr} {v : Value} {depth depth' : Nat}
    (left : ∀ n, depth ≤ n → ∀ machine, (eval n e).exec machine = (.ok (.value v), machine))
    (right : ∀ n, depth' ≤ n → ∀ machine, (eval n e').exec machine = (.ok (.value v), machine)) :
    Refines depth' e e' := by
  intro n machine
  rcases eval_below (Nat.le_add_right n depth) e machine with stopped | same
  · exact Or.inl stopped
  · rw [same, left (n + depth) (by omega) machine, right (n + depth') (by omega) machine]
    exact Or.inr rfl

theorem equivalent_of_constant {e e' : Expr} {v : Value} (left : Constant e v)
    (right : Constant e' v) : Equivalent e e' := by
  obtain ⟨depth, left⟩ := left
  obtain ⟨depth', right⟩ := right
  exact ⟨max depth depth', refines_le (Nat.le_max_right _ _) (refines_of_constant left right),
    refines_le (Nat.le_max_left _ _) (refines_of_constant right left)⟩

theorem constant_of_equivalent {e e' : Expr} {v : Value} (equivalent : Equivalent e e')
    (constant : Constant e' v) : Constant e v := by
  obtain ⟨extra, -, backward⟩ := equivalent
  obtain ⟨depth, constant⟩ := constant
  refine ⟨depth + extra, fun n deep machine => ?_⟩
  obtain ⟨m, rfl⟩ : ∃ m, n = m + extra := ⟨n - extra, by omega⟩
  have given := constant m (by omega) machine
  rcases backward m machine with stopped | same
  · rw [given] at stopped
    cases stopped
  · rw [← same, given]

theorem constant_unary {x : Expr} {v w r : Value} {symbol : String} {op : UnaryOperator}
    (operand : Constant x v) (inner : v.unwrap = .ok w)
    (known : UnaryOperator.ofSymbol? symbol = some op) (applied : op.apply w = .ok r) :
    Constant (.unary symbol x) r.orZero := by
  obtain ⟨depth, operand⟩ := operand
  refine ⟨depth + 1, fun n deep machine => ?_⟩
  obtain ⟨m, rfl⟩ : ∃ m, n = m + 1 := ⟨n - 1, by omega⟩
  simp [eval, evalWith, operand m (by omega), known, Result.snapshot, inner, applied]

theorem constant_binary {l r : Expr} {v v' w w' result : Value} {symbol : String} {op : Operator}
    (left : Constant l v) (right : Constant r w) (innerLeft : v.unwrap = .ok v')
    (innerRight : w.unwrap = .ok w') (known : Operator.ofSymbol? symbol = some op)
    (applied : op.apply v' w' = .ok result) : Constant (.binary symbol l r) result.orZero := by
  obtain ⟨depth, left⟩ := left
  obtain ⟨depth', right⟩ := right
  refine ⟨max depth depth' + 1, fun n deep machine => ?_⟩
  obtain ⟨m, rfl⟩ : ∃ m, n = m + 1 := ⟨n - 1, by omega⟩
  simp [eval, evalWith, left m (by omega), right m (by omega), known, Result.snapshot, innerLeft,
    innerRight, applied]

end Scriptlet.Run
