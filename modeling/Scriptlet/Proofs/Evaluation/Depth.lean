import Mathlib.Data.List.Forall2
import Scriptlet.Proofs.Evaluation.Exec

set_option autoImplicit false

/-!
Evaluation does not depend on the bound on its depth, once it is high enough. A run is below another if
it does the same unless it meets its bound. Everything but the evaluator itself is monotone in this
order, so that a higher bound is always above a lower one.
-/

namespace Scriptlet.Run

variable {α β : Type}

/-- A run does what another one does, unless it goes deeper than it may. -/
def Below (r s : Run α) : Prop :=
  ∀ machine, (r.exec machine).1 = .error .outOfFuel ∨ r.exec machine = s.exec machine

theorem below_refl (r : Run α) : Below r r := fun _ => Or.inr rfl

theorem below_trans {r s t : Run α} (first : Below r s) (second : Below s t) : Below r t := by
  intro machine
  rcases first machine with stopped | same
  · exact Or.inl stopped
  · rw [same]
    exact second machine

theorem below_outOfFuel (r : Run α) : Below (throw .outOfFuel) r := fun _ => Or.inl rfl

theorem below_bind {r s : Run α} {k l : α → Run β} (first : Below r s)
    (others : ∀ a, Below (k a) (l a)) : Below (r >>= k) (s >>= l) := by
  intro machine
  simp only [exec_bind]
  rcases first machine with stopped | same
  · cases result : r.exec machine with
    | mk outcome left =>
        rw [result] at stopped
        simp only at stopped
        subst stopped
        exact Or.inl rfl
  · rw [← same]
    cases result : r.exec machine with
    | mk outcome left =>
        cases outcome with
        | ok a => exact others a left
        | error fault => exact Or.inr rfl

theorem below_bind_right {r : Run α} {k l : α → Run β} (others : ∀ a, Below (k a) (l a)) :
    Below (r >>= k) (r >>= l) :=
  below_bind (below_refl r) others

theorem below_bind_left {r s : Run α} {k : α → Run β} (first : Below r s) :
    Below (r >>= k) (s >>= k) :=
  below_bind first fun a => below_refl (k a)

theorem evalWith_conditional {ev : Expr → Run Result} {keyword : String} {condition : Expr}
    {body : List Expr} {otherwise : Option (List Expr)} (present : condition ≠ .datum .null) :
    evalWith ev (.conditional keyword condition body otherwise) = do
      let outcome ← liftM (← snapshot (← ev condition)).condition
      if !outcome.isTruthWord then throw .badCondition
      else if outcome.equal (.str "true") then return .block (← evalBlock ev body)
      else
        match otherwise with
        | some (e :: _) => ev e
        | _ => return .value .null := by
  cases condition with
  | datum v =>
      cases v with
      | null => exact absurd rfl present
      | _ => rfl
  | _ => rfl

section Evaluators

variable {ev ev' : Expr → Run Result}

/-- Expressions one by one under two evaluators. -/
def Each (ev ev' : Expr → Run Result) (es es' : List Expr) : Prop :=
  List.Forall₂ (fun e e' => Below (ev e) (ev' e')) es es'

theorem each_same (below : ∀ e, Below (ev e) (ev' e)) (es : List Expr) : Each ev ev' es es :=
  List.forall₂_same.mpr fun e _ => below e

theorem evalAll_below {es es' : List Expr} (each : Each ev ev' es es') :
    Below (evalAll ev es) (evalAll ev' es') := by
  induction each with
  | nil => exact below_refl _
  | cons first _ ih => exact below_bind first fun _ => below_bind_left ih

theorem evalIn_below {es es' : List Expr} (each : Each ev ev' es es') (scope : Scope)
    (verbose : Bool) (folder : Option Path) :
    Below (evalIn ev es scope verbose folder) (evalIn ev' es' scope verbose folder) :=
  below_bind_right fun _ => evalAll_below each

theorem evalBlock_below (below : ∀ e, Below (ev e) (ev' e)) (body : List Expr) :
    Below (evalBlock ev body) (evalBlock ev' body) :=
  below_bind_right fun _ => evalIn_below (each_same below body) _ _ _

theorem evalBody_below (below : ∀ e, Below (ev e) (ev' e)) (scope : Scope) (body : List Expr) :
    Below (evalBody ev scope body) (evalBody ev' scope body) := by
  induction body with
  | nil => exact below_refl _
  | cons e rest ih =>
      refine below_bind (evalIn_below (each_same below [e]) _ _ _) fun results => ?_
      refine below_bind_right fun result => below_bind_right fun returned => ?_
      cases returned with
      | none => exact ih
      | some v => exact below_refl _

theorem call_below (below : ∀ e, Below (ev e) (ev' e)) (callee : Value) (scope : Scope)
    (args : List Value) : Below (call ev callee scope args) (call ev' callee scope args) := by
  cases callee with
  | function serial address name params body =>
      by_cases many : params.length < args.length
      · simp only [call, many, ↓reduceIte]
        exact below_bind_right fun _ => below_bind_right fun _ =>
          below_bind_left (evalBody_below below scope body)
      · simp only [call, many, ↓reduceIte]
        exact below_bind_right fun _ => below_bind_left (evalBody_below below scope body)
  | _ => exact below_refl _

theorem evalEach_below {es es' : List Expr} (each : Each ev ev' es es') :
    Below (evalEach ev es) (evalEach ev' es') := by
  induction each with
  | nil => exact below_refl _
  | cons first _ ih => exact below_bind first fun _ => below_bind_right fun _ => below_bind_left ih

theorem evalArguments_below {es es' : List Expr} (each : Each ev ev' es es') :
    Below (evalArguments ev es) (evalArguments ev' es') :=
  below_bind_left (evalEach_below each)

theorem evalCall_below (below : ∀ e, Below (ev e) (ev' e)) (name : String) {es es' : List Expr}
    (each : Each ev ev' es es') : Below (evalCall ev name es) (evalCall ev' name es') := by
  refine below_bind_right fun around => below_bind_right fun scope => below_bind_right fun callee => ?_
  refine below_bind (evalArguments_below each) fun args => ?_
  exact below_bind_right fun value => call_below below value scope args

theorem evalModule_below (below : ∀ e, Below (ev e) (ev' e)) (path : List (Option String)) :
    Below (evalModule ev path) (evalModule ev' path) := by
  refine below_bind_right fun machine => below_bind_right fun text => below_bind_right fun program => ?_
  refine below_bind_right fun folded => ?_
  exact below_bind_left (evalIn_below (each_same below folded) _ _ _)

theorem evalProperty_below (below : ∀ e, Below (ev e) (ev' e)) (name : String) (index : Expr) :
    Below (evalProperty ev name index) (evalProperty ev' name index) := by
  unfold evalProperty
  split
  · exact below_refl _
  · refine below_bind_right fun result => below_bind_right fun object => below_bind_right fun type => ?_
    split
    · exact below_refl _
    · exact below_refl _
    · rename_i callee args _
      have called := evalCall_below below callee (each_same below args)
      by_cases object : type.equal (.str "obj") = true
      · simp only [object, Bool.not_true, Bool.false_eq_true, ↓reduceIte]
        exact below_bind_right fun _ => called
      · simp only [object, Bool.not_false, ↓reduceIte]
        exact below_bind_right fun _ => below_bind_right fun _ => below_bind_right fun _ => called
    · exact below_refl _

theorem evalConditional_below (below : ∀ e, Below (ev e) (ev' e)) (keyword : String)
    (condition : Expr) (body : List Expr) (otherwise : Option (List Expr)) :
    Below (evalWith ev (.conditional keyword condition body otherwise))
      (evalWith ev' (.conditional keyword condition body otherwise)) := by
  by_cases missing : condition = .datum .null
  · subst missing
    exact below_bind_left (evalBlock_below below body)
  · rw [evalWith_conditional missing, evalWith_conditional missing]
    refine below_bind (below condition) fun result => below_bind_right fun value => ?_
    refine below_bind_right fun outcome => ?_
    split
    · exact below_refl _
    · split
      · exact below_bind_left (evalBlock_below below body)
      · split
        · exact below _
        · exact below_refl _

theorem evalWith_below (below : ∀ e, Below (ev e) (ev' e)) (e : Expr) :
    Below (evalWith ev e) (evalWith ev' e) := by
  cases e with
  | datum v => cases v <;> exact below_refl _
  | literal kind v => cases kind <;> exact below_refl _
  | ident name => exact below_refl _
  | property name index => exact evalProperty_below below name index
  | unary operator operand => exact below_bind_left (below operand)
  | binary operator left right =>
      exact below_bind (below left) fun _ => below_bind_left (below right)
  | assign binding name value => exact below_bind_left (below value)
  | call name args => exact evalCall_below below name (each_same below args)
  | define name params body => exact below_refl _
  | param p => exact below_refl _
  | ret value => exact below_bind_left (below value)
  | conditional keyword condition body otherwise =>
      exact evalConditional_below below keyword condition body otherwise
  | module parents name => exact evalModule_below below _

end Evaluators

theorem eval_succ_below (n : Nat) (e : Expr) : Below (eval n e) (eval (n + 1) e) := by
  induction n generalizing e with
  | zero => exact below_outOfFuel _
  | succ n ih => exact evalWith_below ih e

theorem eval_below {n m : Nat} (le : n ≤ m) (e : Expr) : Below (eval n e) (eval m e) := by
  induction le with
  | refl => exact below_refl _
  | step _ ih => exact below_trans ih (eval_succ_below _ e)

/-- What a program does on a machine, with any bound on the depth that is high enough. -/
def Evaluates (program : List Expr) (scope : Scope) (verbose : Bool) (folder : Option Path)
    (machine : Machine) (outcome : Except Fault (List Result) × Machine) : Prop :=
  outcome.1 ≠ .error .outOfFuel ∧
    ∃ fuel, (evalProgram fuel program scope verbose folder).exec machine = outcome

/-- An expression does what another one does, which may go so many levels deeper. -/
def Refines (depth : Nat) (e e' : Expr) : Prop := ∀ n, Below (eval n e) (eval (n + depth) e')

theorem refines_refl (depth : Nat) (e : Expr) : Refines depth e e :=
  fun n => eval_below (Nat.le_add_right n depth) e

theorem refines_le {depth deeper : Nat} {e e' : Expr} (le : depth ≤ deeper)
    (refines : Refines depth e e') : Refines deeper e e' :=
  fun n => below_trans (refines n) (eval_below (by omega) e')

/-- Refinement inside an expression, level by level: at level zero there is nothing to show. -/
theorem refines_step {depth : Nat} {e e' : Expr}
    (step : ∀ n, Below (evalWith (eval n) e) (evalWith (eval (n + depth)) e')) :
    Refines depth e e' := by
  intro n
  cases n with
  | zero => exact below_outOfFuel _
  | succ n =>
      rw [Nat.add_right_comm]
      exact step n

theorem refines_unary {depth : Nat} {x x' : Expr} (operator : String)
    (operand : Refines depth x x') : Refines depth (.unary operator x) (.unary operator x') :=
  refines_step fun n => below_bind_left (operand n)

theorem refines_binary {depth : Nat} {l l' r r' : Expr} (operator : String)
    (left : Refines depth l l') (right : Refines depth r r') :
    Refines depth (.binary operator l r) (.binary operator l' r') :=
  refines_step fun n => below_bind (left n) fun _ => below_bind_left (right n)

theorem refines_assign {depth : Nat} {e e' : Expr} (binding : Option String) (name : String)
    (value : Refines depth e e') : Refines depth (.assign binding name e) (.assign binding name e') :=
  refines_step fun n => below_bind_left (value n)

theorem each_of_refines {depth : Nat} {es es' : List Expr}
    (refines : List.Forall₂ (Refines depth) es es') (n : Nat) :
    Each (eval n) (eval (n + depth)) es es' :=
  refines.imp fun _ _ each => each n

theorem refines_call {depth : Nat} {args args' : List Expr} (name : String)
    (refines : List.Forall₂ (Refines depth) args args') :
    Refines depth (.call name args) (.call name args') :=
  refines_step fun n =>
    evalCall_below (eval_below (Nat.le_add_right n depth)) name (each_of_refines refines n)

theorem evaluates_of_refines {depth : Nat} {program program' : List Expr} {scope : Scope}
    {verbose : Bool} {folder : Option Path} {machine : Machine}
    {outcome : Except Fault (List Result) × Machine}
    (refines : List.Forall₂ (Refines depth) program program')
    (evaluates : Evaluates program scope verbose folder machine outcome) :
    Evaluates program' scope verbose folder machine outcome := by
  obtain ⟨finished, fuel, evaluated⟩ := evaluates
  refine ⟨finished, fuel + depth, ?_⟩
  rcases evalIn_below (each_of_refines refines fuel) scope verbose folder machine with stopped | same
  · rw [← evaluated] at finished
    exact absurd stopped finished
  · rw [← evaluated]
    exact same.symm

end Scriptlet.Run
