import Scriptlet.Proofs.Folding.Soundness

set_option autoImplicit false

/-!
Folding twice is the same as folding once. Where an operator is not folded, folding gives the expression
that it was given, in which the values of assignments and the arguments of calls have been put in place.
So the argument is about both: what folding gives, and what it leaves behind.
-/

namespace Scriptlet.Expr

/-- What folding gives stays as it is when it is folded again, and what folding leaves behind folds to
the same once more. -/
def Refolds (e : Expr) : Prop :=
  ∀ e' after, fold e = (.ok e', after) → fold after = (.ok e', after) ∧ fold e' = (.ok e', e')

theorem fold_of_stands {e : Expr} {v : Value} (stands : Stands e v) : fold e = (.ok e, e) := by
  obtain ⟨kind, rfl, -⟩ := stands
  rfl

theorem refolds_of_fold_self {e : Expr} (same : fold e = (.ok e, e)) : Refolds e := by
  intro e' after folded
  obtain ⟨result, rfl⟩ := Prod.mk.inj (same.symm.trans folded)
  obtain rfl := Except.ok.inj result
  exact ⟨same, same⟩

theorem refolds_unary {symbol : String} {x : Expr} (regular : Regular x) (operand : Refolds x) :
    Refolds (.unary symbol x) := by
  intro e after folded
  obtain ⟨x', left, inner, rfl, step⟩ := fold_unary_ok folded
  have again : fold (.unary symbol left) = (.ok e, .unary symbol left) := by
    rw [fold, (operand x' left inner).1]
    exact congrArg (·, unary symbol left) step
  refine ⟨again, ?_⟩
  rcases foldUnary_ok (fold_regular regular inner).1 step with rfl | ⟨_, _, _, _, _, _, stands⟩
  · exact again
  · exact fold_of_stands stands

theorem refolds_binary {symbol : String} {l r : Expr} (regularLeft : Regular l)
    (regularRight : Regular r) (first : Refolds l) (second : Refolds r) :
    Refolds (.binary symbol l r) := by
  intro e after folded
  obtain ⟨l', r', left, right, foldedLeft, foldedRight, rfl, step⟩ := fold_binary_ok folded
  have again : fold (.binary symbol left right) = (.ok e, .binary symbol left right) := by
    rw [fold, (first l' left foldedLeft).1]
    simp only [(second r' right foldedRight).1]
    exact congrArg (·, binary symbol left right) step
  refine ⟨again, ?_⟩
  rcases foldBinary_ok (fold_regular regularLeft foldedLeft).1
    (fold_regular regularRight foldedRight).1 step with rfl | ⟨_, _, _, _, _, _, _, _, stands, _⟩
  · exact again
  · exact fold_of_stands stands

/-- The value of an assignment is put in place, so that what is given and what is left are the same. -/
theorem refolds_assign {binding : Option String} {name : String} {x : Expr} (value : Refolds x) :
    Refolds (.assign binding name x) := by
  intro e after folded
  obtain ⟨x', left, inner, rfl, rfl⟩ := fold_assign_ok folded
  have again : fold (.assign binding name x') =
      (.ok (.assign binding name x'), .assign binding name x') := by
    rw [fold, (value x' left inner).2]
  exact ⟨again, again⟩

theorem foldAll_refolds {es es' after : List Expr} (each : ∀ e ∈ es, Refolds e)
    (folded : foldAll es = (.ok es', after)) :
    foldAll after = (.ok es', after) ∧ foldAll es' = (.ok es', es') := by
  induction es generalizing es' after with
  | nil =>
      obtain ⟨result, rfl⟩ := Prod.mk.inj folded
      obtain rfl := Except.ok.inj result
      exact ⟨rfl, rfl⟩
  | cons e rest ih =>
      obtain ⟨e', others, left, right, first, second, rfl, rfl⟩ := foldAll_cons_ok folded
      obtain ⟨here, there⟩ := List.forall_mem_cons.mp each
      obtain ⟨leftAgain, again⟩ := here e' left first
      obtain ⟨rightAgain, othersAgain⟩ := ih there second
      constructor
      · simp only [foldAll, leftAgain, rightAgain]
      · simp only [foldAll, again, othersAgain]

theorem refolds_call {name : String} {args : List Expr} (each : ∀ a ∈ args, Refolds a) :
    Refolds (.call name args) := by
  intro e after folded
  obtain ⟨args', left, inner, rfl, rfl⟩ := fold_call_ok folded
  have again : fold (.call name args') = (.ok (.call name args'), .call name args') := by
    rw [fold, (foldAll_refolds each inner).2]
  exact ⟨again, again⟩

theorem refolds {e : Expr} (regular : Regular e) : Refolds e := by
  induction regular with
  | unary symbol regular operand => exact refolds_unary regular operand
  | binary symbol regularLeft regularRight left right =>
      exact refolds_binary regularLeft regularRight left right
  | assign binding name _ value => exact refolds_assign value
  | call name _ each => exact refolds_call each
  | _ => exact refolds_of_fold_self rfl

/-- A program that was read and folded is folded for good: folding it again succeeds, gives the same
program and leaves it as it is. What the first folding has left of the program that was read folds to
the same program too, and is left as it is. -/
theorem foldProgram_idempotent {tokens : List Token} {program folded : List Expr}
    (read : ofTokens tokens = .ok program) (succeeds : (foldProgram program).1 = .ok folded) :
    foldProgram folded = (.ok folded, folded) ∧
      foldProgram (foldProgram program).2 = (.ok folded, (foldProgram program).2) := by
  have regular := ofTokens_regular read
  have each : ∀ e ∈ program, Refolds e := fun e member => refolds (regular e member)
  cases result : foldAll program with
  | mk outcome after =>
      simp only [foldProgram, result] at succeeds ⊢
      cases outcome with
      | error fault => cases succeeds
      | ok es =>
          have regulars : ∀ e ∈ es, Regular e :=
            foldAll_regular (fun e member _ _ folded => fold_regular (regular e member) folded) result
          have plain : es.flatMap spread = es := flatMap_spread regulars
          obtain rfl : es = folded := plain.symm.trans (Except.ok.inj succeeds)
          obtain ⟨leftAgain, again⟩ := foldAll_refolds each result
          simp only [leftAgain, again, Except.map, plain, and_self]

/-- An argument is folded and put in place, and an operator that cannot be folded is kept with the sum
inside of it. -/
theorem foldProgram_idempotent_kept : ∃ (tokens : List Token) (program folded : List Expr),
    program = [.call "f" [.binary "+" (.int 1) (.int 2)],
      .unary "!" (.binary "+" (.str "a") (.str "b"))] ∧
    folded = [.call "f" [.int 3], .unary "!" (.binary "+" (.str "a") (.str "b"))] ∧
    ofTokens tokens = .ok program ∧ (foldProgram program).1 = .ok folded ∧
    foldProgram folded = (.ok folded, folded) := by
  let tokens : List Token :=
    [⟨some .identifier, "f", 1, 1⟩, ⟨some .lparen, "(", 1, 2⟩, ⟨some .number, "1", 1, 3⟩,
      ⟨some .operator, "+", 1, 5⟩, ⟨some .number, "2", 1, 7⟩, ⟨some .rparen, ")", 1, 8⟩,
      ⟨some .newline, "newline", 1, 9⟩, ⟨some .operator, "!", 2, 1⟩, ⟨some .lparen, "(", 2, 2⟩,
      ⟨some .string, "a", 2, 3⟩, ⟨some .operator, "+", 2, 7⟩, ⟨some .string, "b", 2, 9⟩,
      ⟨some .rparen, ")", 2, 12⟩]
  let program : List Expr := [.call "f" [.binary "+" (.int 1) (.int 2)],
    .unary "!" (.binary "+" (.str "a") (.str "b"))]
  have read : ofTokens tokens = .ok program := rfl
  have succeeds : (foldProgram program).1 =
      .ok [.call "f" [.int 3], .unary "!" (.binary "+" (.str "a") (.str "b"))] := rfl
  exact ⟨tokens, program, _, rfl, rfl, read, succeeds, (foldProgram_idempotent read succeeds).1⟩

end Scriptlet.Expr
