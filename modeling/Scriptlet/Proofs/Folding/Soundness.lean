import Scriptlet.Proofs.Evaluation.Equivalence
import Scriptlet.Proofs.Folding.Steps

set_option autoImplicit false

/-!
Folding does not change what a program does. There is one exception: an operator whose result counts as
false gives zero when it is evaluated, but keeps its result when it is folded. So the folded program does
the same as the given one as long as no operator is folded to an empty string or to a broken zero.
-/

namespace Scriptlet.Expr

mutual

/-- The expressions that folding goes through, from the outside in. -/
def visited : Expr → List Expr
  | unary operator operand => unary operator operand :: visited operand
  | binary operator left right => binary operator left right :: (visited left ++ visited right)
  | assign binding name value => assign binding name value :: visited value
  | call name args => call name args :: visitedAll args
  | e => [e]

def visitedAll : List Expr → List Expr
  | [] => []
  | e :: rest => visited e ++ visitedAll rest

end

def isOperator : Expr → Bool
  | unary .. | binary .. => true
  | _ => false

/-- An operator that is folded to a literal does not lose a value that counts as false to zero. -/
def KeepsValue (e : Expr) : Prop :=
  e.isOperator = true → ∀ kind v, e.fold.1 = .ok (.literal kind v) → v.truthy = true ∨ v = .int 0

/-- Every operator that folding meets keeps its value. -/
def Faithful (e : Expr) : Prop := ∀ inner ∈ e.visited, inner.KeepsValue

theorem self_mem_visited (e : Expr) : e ∈ e.visited := by
  cases e <;> simp [visited]

theorem mem_visitedAll {inner : Expr} {es : List Expr} :
    inner ∈ visitedAll es ↔ ∃ e ∈ es, inner ∈ e.visited := by
  induction es with
  | nil => simp [visitedAll]
  | cons e rest ih => simp [visitedAll, ih]

open Run (Equivalent Constant)

theorem stands_unwrap {e : Expr} {v : Value} (stands : Stands e v) : v.unwrap = .ok v := by
  obtain ⟨kind, -, holds, direct⟩ := stands
  cases kind with
  | integer =>
      obtain ⟨n, rfl⟩ := holds
      rfl
  | floating =>
      rcases holds with ⟨x, rfl⟩ | ⟨b, rfl⟩ <;> rfl
  | string =>
      obtain ⟨s, rfl⟩ := holds
      rfl
  | boolean => exact absurd rfl direct
  | null => cases holds

theorem constant_of_stands {e : Expr} {v : Value} (stands : Stands e v) : Constant e v := by
  obtain ⟨kind, rfl, holds, direct⟩ := stands
  refine Run.constant_literal v direct ?_
  rintro rfl
  cases holds

theorem orZero_of_kept {v : Value} (kept : v.truthy = true ∨ v = .int 0) : v.orZero = v := by
  rcases kept with truthy | rfl
  · simp [Value.orZero, truthy]
  · rfl

/-- Folding an expression gives an equivalent one, and leaves an equivalent one behind. -/
def FoldsWell (e : Expr) : Prop :=
  ∀ e' after, fold e = (.ok e', after) → Equivalent e e' ∧ Equivalent e after

theorem foldsWell_of_fold_self {e : Expr} (same : fold e = (.ok e, e)) : FoldsWell e := by
  intro e' after folded
  rw [same] at folded
  obtain ⟨result, rfl⟩ := Prod.mk.inj folded
  obtain rfl := Except.ok.inj result
  exact ⟨Run.equivalent_refl e, Run.equivalent_refl e⟩

theorem foldsWell_unary {symbol : String} {x : Expr} (regular : Regular x) (operand : FoldsWell x)
    (keeps : KeepsValue (.unary symbol x)) : FoldsWell (.unary symbol x) := by
  intro e after folded
  obtain ⟨x', left, inner, rfl, step⟩ := fold_unary_ok folded
  obtain ⟨equivalent, equivalentLeft⟩ := operand x' left inner
  have afterwards := Run.equivalent_unary symbol equivalentLeft
  refine ⟨?_, afterwards⟩
  rcases foldUnary_ok (fold_regular regular inner).1 step with
    rfl | ⟨op, v, r, known, stands, applied, result⟩
  · exact afterwards
  · have constant : Constant (.unary symbol x) r.orZero :=
      Run.constant_unary (Run.constant_of_equivalent equivalent (constant_of_stands stands))
        (stands_unwrap stands) known applied
    obtain ⟨kind, literal, -⟩ := id result
    rw [orZero_of_kept (keeps rfl kind r (by rw [folded, literal]))] at constant
    exact Run.equivalent_of_constant constant (constant_of_stands result)

theorem foldsWell_binary {symbol : String} {l r : Expr} (regularLeft : Regular l)
    (regularRight : Regular r) (first : FoldsWell l) (second : FoldsWell r)
    (keeps : KeepsValue (.binary symbol l r)) : FoldsWell (.binary symbol l r) := by
  intro e after folded
  obtain ⟨l', r', left, right, foldedLeft, foldedRight, rfl, step⟩ := fold_binary_ok folded
  obtain ⟨equivalentL, equivalentLeft⟩ := first l' left foldedLeft
  obtain ⟨equivalentR, equivalentRight⟩ := second r' right foldedRight
  have afterwards := Run.equivalent_binary symbol equivalentLeft equivalentRight
  refine ⟨?_, afterwards⟩
  rcases foldBinary_ok (fold_regular regularLeft foldedLeft).1
    (fold_regular regularRight foldedRight).1 step with
    rfl | ⟨op, v, w, result, known, standsLeft, standsRight, applied, stands, -⟩
  · exact afterwards
  · have constant : Constant (.binary symbol l r) result.orZero :=
      Run.constant_binary (Run.constant_of_equivalent equivalentL (constant_of_stands standsLeft))
        (Run.constant_of_equivalent equivalentR (constant_of_stands standsRight))
        (stands_unwrap standsLeft) (stands_unwrap standsRight) known applied
    obtain ⟨kind, literal, -⟩ := id stands
    rw [orZero_of_kept (keeps rfl kind result (by rw [folded, literal]))] at constant
    exact Run.equivalent_of_constant constant (constant_of_stands stands)

theorem foldsWell_assign {binding : Option String} {name : String} {x : Expr} (value : FoldsWell x) :
    FoldsWell (.assign binding name x) := by
  intro e after folded
  obtain ⟨x', left, inner, rfl, rfl⟩ := fold_assign_ok folded
  have assigned := Run.equivalent_assign binding name (value x' left inner).1
  exact ⟨assigned, assigned⟩

theorem foldAll_equivalent {es es' after : List Expr} (each : ∀ e ∈ es, FoldsWell e)
    (folded : foldAll es = (.ok es', after)) :
    List.Forall₂ Equivalent es es' ∧ List.Forall₂ Equivalent es after := by
  induction es generalizing es' after with
  | nil =>
      obtain ⟨result, rfl⟩ := Prod.mk.inj folded
      obtain rfl := Except.ok.inj result
      exact ⟨.nil, .nil⟩
  | cons e rest ih =>
      obtain ⟨e', others, left, right, first, second, rfl, rfl⟩ := foldAll_cons_ok folded
      obtain ⟨equivalent, equivalentLeft⟩ := each e (by simp) e' left first
      obtain ⟨equivalents, lefts⟩ := ih (fun e member => each e (by simp [member])) second
      exact ⟨.cons equivalent equivalents, .cons equivalentLeft lefts⟩

theorem foldsWell_call {name : String} {args : List Expr} (each : ∀ a ∈ args, FoldsWell a) :
    FoldsWell (.call name args) := by
  intro e after folded
  obtain ⟨args', left, inner, rfl, rfl⟩ := fold_call_ok folded
  have called := Run.equivalent_call name (foldAll_equivalent each inner).1
  exact ⟨called, called⟩

theorem foldsWell {e : Expr} (regular : Regular e) (faithful : Faithful e) : FoldsWell e := by
  induction regular with
  | unary symbol regular operand =>
      refine foldsWell_unary regular (operand fun inner member => faithful inner ?_)
        (faithful _ (self_mem_visited _))
      simp [visited, member]
  | binary symbol regularLeft regularRight left right =>
      refine foldsWell_binary regularLeft regularRight
        (left fun inner member => faithful inner ?_) (right fun inner member => faithful inner ?_)
        (faithful _ (self_mem_visited _))
      · simp [visited, member]
      · simp [visited, member]
  | assign binding name _ value =>
      refine foldsWell_assign (value fun inner member => faithful inner ?_)
      simp [visited, member]
  | call name _ each =>
      refine foldsWell_call fun a argument => each a argument fun inner member => faithful inner ?_
      exact List.mem_cons_of_mem _ (mem_visitedAll.mpr ⟨a, argument, member⟩)
  | _ => exact foldsWell_of_fold_self rfl

theorem spread_regular {e : Expr} (regular : Regular e) : spread e = [e] := by
  cases regular <;> rfl

theorem flatMap_spread {es : List Expr} (regular : ∀ e ∈ es, Regular e) : es.flatMap spread = es := by
  induction es with
  | nil => rfl
  | cons e rest ih =>
      rw [List.flatMap_cons, spread_regular (regular e (by simp)),
        ih fun e member => regular e (by simp [member]), List.singleton_append]

/-- A program that was read and could be folded does the same as the folded program, and the same as
what folding has left of the program, on every machine and from every scope: the same results or the
same fault, after which the machine is the same too. -/
theorem foldProgram_evaluates {tokens : List Token} {program folded : List Expr}
    (read : ofTokens tokens = .ok program) (succeeds : (foldProgram program).1 = .ok folded)
    (faithful : ∀ e ∈ program, Faithful e) (scope : Scope) (verbose : Bool) (folder : Option Path)
    (machine : Machine) (outcome : Except Fault (List Result) × Machine) :
    (Run.Evaluates folded scope verbose folder machine outcome ↔
      Run.Evaluates program scope verbose folder machine outcome) ∧
    (Run.Evaluates (foldProgram program).2 scope verbose folder machine outcome ↔
      Run.Evaluates program scope verbose folder machine outcome) := by
  have regular := ofTokens_regular read
  have each : ∀ e ∈ program, FoldsWell e := fun e member =>
    foldsWell (regular e member) (faithful e member)
  cases result : foldAll program with
  | mk outcome' after =>
      simp only [foldProgram, result] at succeeds ⊢
      cases outcome' with
      | error fault => cases succeeds
      | ok es =>
          obtain ⟨equivalents, lefts⟩ := foldAll_equivalent each result
          have regulars : ∀ e ∈ es, Regular e :=
            foldAll_regular (fun e member _ _ folded => fold_regular (regular e member) folded) result
          obtain rfl : es = folded := by
            rw [← Except.ok.inj succeeds]
            exact (flatMap_spread regulars).symm
          exact ⟨(Run.evaluates_iff equivalents scope verbose folder machine outcome).symm,
            (Run.evaluates_iff lefts scope verbose folder machine outcome).symm⟩

theorem foldProgram_evaluates_repetition : ∃ (tokens : List Token) (program folded : List Expr),
    program = [.assign none "x" (.binary "-" (.int 2) (.int 2)), .binary "*" (.str "ab") (.int 2)] ∧
    folded = [.assign none "x" (.int 0), .str "abab"] ∧ ofTokens tokens = .ok program ∧
    (foldProgram program).1 = .ok folded ∧ (∀ e ∈ program, Faithful e) ∧
    ∀ scope verbose folder machine outcome,
      Run.Evaluates folded scope verbose folder machine outcome ↔
        Run.Evaluates program scope verbose folder machine outcome := by
  let tokens : List Token :=
    [⟨some .identifier, "x", 1, 1⟩, ⟨some .operator, "=", 1, 3⟩, ⟨some .number, "2", 1, 5⟩,
      ⟨some .operator, "-", 1, 7⟩, ⟨some .number, "2", 1, 9⟩, ⟨some .newline, "newline", 1, 10⟩,
      ⟨some .string, "ab", 2, 1⟩, ⟨some .operator, "*", 2, 6⟩, ⟨some .number, "2", 2, 8⟩]
  let program : List Expr :=
    [.assign none "x" (.binary "-" (.int 2) (.int 2)), .binary "*" (.str "ab") (.int 2)]
  have read : ofTokens tokens = .ok program := rfl
  have succeeds : (foldProgram program).1 = .ok [.assign none "x" (.int 0), .str "abab"] := rfl
  have difference : KeepsValue (.binary "-" (.int 2) (.int 2)) := by
    rintro - kind v folded
    obtain ⟨rfl, rfl⟩ : kind = .integer ∧ v = .int 0 := by
      have same : (Except.ok (.int 0) : Except Fault Expr) = .ok (.literal kind v) := folded
      cases same
      exact ⟨rfl, rfl⟩
    exact Or.inr rfl
  have repetition : KeepsValue (.binary "*" (.str "ab") (.int 2)) := by
    rintro - kind v folded
    have same : (Except.ok (.str "abab") : Except Fault Expr) = .ok (.literal kind v) := folded
    cases same
    exact Or.inl rfl
  have other : ∀ e : Expr, e.isOperator = false → KeepsValue e := by
    intro e notOperator operator
    rw [notOperator] at operator
    cases operator
  have faithful : ∀ e ∈ program, Faithful e := by
    intro e member inner inside
    simp only [program, List.mem_cons, List.not_mem_nil, or_false] at member
    rcases member with rfl | rfl
    · simp only [visited, int, List.mem_cons, List.cons_append, List.nil_append, List.not_mem_nil,
        or_false] at inside
      rcases inside with rfl | rfl | rfl | rfl
      · exact other _ rfl
      · exact difference
      · exact other _ rfl
      · exact other _ rfl
    · simp only [visited, int, str, List.mem_cons, List.cons_append, List.nil_append,
        List.not_mem_nil, or_false] at inside
      rcases inside with rfl | rfl | rfl
      · exact repetition
      · exact other _ rfl
      · exact other _ rfl
  refine ⟨tokens, program, _, rfl, rfl, read, succeeds, faithful, ?_⟩
  intro scope verbose folder machine outcome
  exact (foldProgram_evaluates read succeeds faithful scope verbose folder machine outcome).1

end Scriptlet.Expr
