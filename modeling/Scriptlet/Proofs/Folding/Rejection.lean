import Scriptlet.Proofs.Folding.Soundness

set_option autoImplicit false

/-!
Which programs folding rejects. A program may run to its end although folding fails on it, because
folding looks at the values that are stored in operands and not at what they come to. For a program that
runs to its end, folding fails exactly if it goes through an operator that is blocked.
-/

namespace Scriptlet.Expr

/-- The expressions right inside of an expression that folding goes on to. -/
def parts : Expr → List Expr
  | unary _ operand => [operand]
  | binary _ left right => [left, right]
  | assign _ _ value => [value]
  | call _ args => args
  | _ => []

/-- What passes from an expression to its parts holds of all that folding goes through. -/
theorem forall_visited {P : Expr → Prop} (inward : ∀ e, P e → ∀ part ∈ e.parts, P part) {e : Expr}
    (regular : Regular e) (whole : P e) : ∀ inner ∈ e.visited, P inner := by
  induction regular with
  | unary symbol _ operand =>
      exact List.forall_mem_cons.mpr ⟨whole, operand (inward _ whole _ (by simp [parts]))⟩
  | binary symbol _ _ first second =>
      refine List.forall_mem_cons.mpr ⟨whole, List.forall_mem_append.mpr ⟨?_, ?_⟩⟩
      · exact first (inward _ whole _ (by simp [parts]))
      · exact second (inward _ whole _ (by simp [parts]))
  | assign binding name _ value =>
      exact List.forall_mem_cons.mpr ⟨whole, value (inward _ whole _ (by simp [parts]))⟩
  | call name _ each =>
      refine List.forall_mem_cons.mpr ⟨whole, fun inner member => ?_⟩
      obtain ⟨a, argument, member⟩ := mem_visitedAll.mp member
      exact each a argument (inward _ whole a argument) inner member
  | _ => exact List.forall_mem_singleton.mpr whole

end Scriptlet.Expr

namespace Scriptlet.Run

/-- The expression is evaluated to its end from some machine. -/
def Completes (e : Expr) : Prop :=
  ∃ fuel machine result after, (eval fuel e).exec machine = (.ok result, after)

theorem constant_result {e : Expr} {v : Value} {fuel : Nat} {machine after : Machine}
    {result : Result} (constant : Constant e v)
    (evaluated : (eval fuel e).exec machine = (.ok result, after)) : result = .value v := by
  obtain ⟨depth, constant⟩ := constant
  rcases eval_below (Nat.le_add_right fuel depth) e machine with stopped | same
  · rw [evaluated] at stopped
    cases stopped
  · rw [evaluated, constant (fuel + depth) (by omega) machine] at same
    exact Except.ok.inj (Prod.mk.inj same).1

theorem eval_unary_ok {fuel : Nat} {symbol : String} {x : Expr} {machine after : Machine}
    {result : Result} (evaluated : (eval fuel (.unary symbol x)).exec machine = (.ok result, after)) :
    ∃ n inner op v r, (eval n x).exec machine = (.ok inner, after) ∧
      UnaryOperator.ofSymbol? symbol = some op ∧ (inner.snapshot after.store).unwrap = .ok v ∧
      op.apply v = .ok r ∧ result = .value r.orZero := by
  cases fuel with
  | zero => cases evaluated
  | succ n =>
      obtain ⟨inner, between, operand, evaluated⟩ := exec_bind_ok evaluated
      split at evaluated
      · cases evaluated
      · rename_i op known
        obtain ⟨v, store, unwrapped, evaluated⟩ := exec_bind_ok evaluated
        obtain ⟨inside, rfl⟩ := exec_unwrap_ok unwrapped
        obtain ⟨r, store, lifted, evaluated⟩ := exec_bind_ok evaluated
        obtain ⟨applied, rfl⟩ := exec_lift_ok lifted
        obtain ⟨given, rfl⟩ := Prod.mk.inj evaluated
        exact ⟨n, inner, op, v, r, operand, known, inside, applied, (Except.ok.inj given).symm⟩

theorem eval_binary_ok {fuel : Nat} {symbol : String} {l r : Expr} {machine after : Machine}
    {result : Result} (evaluated : (eval fuel (.binary symbol l r)).exec machine = (.ok result, after)) :
    ∃ n between first second op v w, (eval n l).exec machine = (.ok first, between) ∧
      (eval n r).exec between = (.ok second, after) ∧ Operator.ofSymbol? symbol = some op ∧
      (first.snapshot after.store).unwrap = .ok v ∧ (second.snapshot after.store).unwrap = .ok w ∧
      ∃ u, op.apply v w = .ok u := by
  cases fuel with
  | zero => cases evaluated
  | succ n =>
      obtain ⟨first, between, left, evaluated⟩ := exec_bind_ok evaluated
      obtain ⟨second, store, right, evaluated⟩ := exec_bind_ok evaluated
      split at evaluated
      · cases evaluated
      · rename_i op known
        obtain ⟨v, store, unwrapped, evaluated⟩ := exec_bind_ok evaluated
        obtain ⟨insideLeft, rfl⟩ := exec_unwrap_ok unwrapped
        obtain ⟨w, store, unwrapped, evaluated⟩ := exec_bind_ok evaluated
        obtain ⟨insideRight, rfl⟩ := exec_unwrap_ok unwrapped
        obtain ⟨u, store, lifted, evaluated⟩ := exec_bind_ok evaluated
        obtain ⟨applied, rfl⟩ := exec_lift_ok lifted
        obtain ⟨-, rfl⟩ := Prod.mk.inj evaluated
        exact ⟨n, between, first, second, op, v, w, left, right, known, insideLeft, insideRight, u,
          applied⟩

theorem evalEach_ok {n : Nat} {args : List Expr} {machine after : Machine} {results : List Result}
    (evaluated : (evalEach (eval n) args).exec machine = (.ok results, after)) :
    ∀ a ∈ args, Completes a := by
  induction args generalizing machine after results with
  | nil => simp
  | cons e rest ih =>
      obtain ⟨result, between, first, evaluated⟩ := exec_bind_ok evaluated
      obtain ⟨v, store, -, evaluated⟩ := exec_bind_ok evaluated
      obtain ⟨others, store', others', -⟩ := exec_bind_ok evaluated
      exact List.forall_mem_cons.mpr ⟨⟨n, machine, result, between, first⟩, ih others'⟩

theorem evalAll_ok {n : Nat} {program : List Expr} {machine after : Machine} {results : List Result}
    (evaluated : (evalAll (eval n) program).exec machine = (.ok results, after)) :
    ∀ e ∈ program, Completes e := by
  induction program generalizing machine after results with
  | nil => simp
  | cons e rest ih =>
      obtain ⟨result, between, first, evaluated⟩ := exec_bind_ok evaluated
      obtain ⟨others, store, others', -⟩ := exec_bind_ok evaluated
      exact List.forall_mem_cons.mpr ⟨⟨n, machine, result, between, first⟩, ih others'⟩

/-- What folding goes on to is evaluated too. -/
theorem completes_parts (e : Expr) (completes : Completes e) : ∀ part ∈ e.parts, Completes part := by
  obtain ⟨fuel, machine, result, after, evaluated⟩ := completes
  cases e with
  | unary symbol x =>
      obtain ⟨n, given, _, _, _, operand, -⟩ := eval_unary_ok evaluated
      exact List.forall_mem_singleton.mpr ⟨n, machine, given, after, operand⟩
  | binary symbol l r =>
      obtain ⟨n, between, given, given', _, _, _, left, right, -⟩ := eval_binary_ok evaluated
      refine List.forall_mem_cons.mpr ⟨⟨n, machine, given, between, left⟩, ?_⟩
      exact List.forall_mem_singleton.mpr ⟨n, between, given', after, right⟩
  | assign binding name x =>
      cases fuel with
      | zero => cases evaluated
      | succ n =>
          obtain ⟨given, between, value, -⟩ := exec_bind_ok evaluated
          exact List.forall_mem_singleton.mpr ⟨n, machine, given, between, value⟩
  | call name args =>
      cases fuel with
      | zero => cases evaluated
      | succ n =>
          -- the scope is found, a new one is opened and the name is looked up before the arguments
          obtain ⟨_, _, -, evaluated⟩ := exec_bind_ok evaluated
          obtain ⟨_, _, -, evaluated⟩ := exec_bind_ok evaluated
          obtain ⟨_, _, -, evaluated⟩ := exec_bind_ok evaluated
          obtain ⟨_, _, arguments, -⟩ := exec_bind_ok evaluated
          obtain ⟨_, _, each, -⟩ := exec_bind_ok arguments
          exact evalEach_ok each
  | _ =>
      intro part member
      cases member

end Scriptlet.Run

namespace Scriptlet.Expr

open Run (Completes Constant)

/-- The expression is folded to a number or a string, and that is also what it evaluates to. -/
def Exact (e : Expr) : Prop := Faithful e ∧ ∃ e' v, e.fold.1 = .ok e' ∧ Stands e' v

/-- An operator that folding fails on although its operands are folded. -/
inductive Blocked : Expr → Prop
  /-- The test of a whole number is a word, and so not the whole number that it is taken for. -/
  | test {x : Expr} {n : Int} (operand : x.fold.1 = .ok (.int n)) : Blocked (.unary "!" x)
  /-- There is no value stored in an operand that is a name, a property, a call, an object or an
  operator between two others. -/
  | empty {symbol : String} {l r l' r' : Expr} (left : l.fold.1 = .ok l') (right : r.fold.1 = .ok r')
      (nothing : Value.inner? l' = none ∨ Value.inner? r' = none) : Blocked (.binary symbol l r)
  /-- The operator is not defined on the values stored in its operands, where these are not what the
  operands evaluate to. -/
  | misread {symbol : String} {l r l' r' : Expr} {v w : Value} {op : Operator} {fault : Fault}
      (left : l.fold.1 = .ok l') (right : r.fold.1 = .ok r') (stored : Value.inner? l' = some v)
      (stored' : Value.inner? r' = some w) (known : Operator.ofSymbol? symbol = some op)
      (undefined : op.apply v w = .error fault) (inexact : ¬ (Exact l ∧ Exact r)) :
      Blocked (.binary symbol l r)
  /-- Two strings are compared. -/
  | compared {symbol : String} {l r : Expr} {s t : String} (left : l.fold.1 = .ok (.str s))
      (right : r.fold.1 = .ok (.str t)) (other : symbol ≠ "+") : Blocked (.binary symbol l r)
  /-- A string is compared with a whole number. -/
  | mismatched {symbol : String} {l r : Expr} {s : String} {n : Int} (left : l.fold.1 = .ok (.str s))
      (right : r.fold.1 = .ok (.int n)) (other : symbol ≠ "*") : Blocked (.binary symbol l r)

theorem fold_unary_of_ok {symbol : String} {x x' : Expr} (operand : x.fold.1 = .ok x') :
    (fold (.unary symbol x)).1 = foldUnary symbol x' (.unary symbol x.fold.2) := by
  have inner : fold x = (.ok x', x.fold.2) := Prod.ext operand rfl
  rw [fold, inner]

theorem fold_binary_of_ok {symbol : String} {l r l' r' : Expr} (left : l.fold.1 = .ok l')
    (right : r.fold.1 = .ok r') : (fold (.binary symbol l r)).1 =
      foldBinary symbol l' r' (.binary symbol l.fold.2 r.fold.2) := by
  have first : fold l = (.ok l', l.fold.2) := Prod.ext left rfl
  have second : fold r = (.ok r', r.fold.2) := Prod.ext right rfl
  rw [fold, first, second]

/-- Nothing but a string comes of a string, so that the rules for strings decide. -/
theorem foldBinary_error_of_strings {symbol s : String} {r self : Expr} {fault : Fault}
    (failed : foldStrings symbol (.str s) r self = .error fault) :
    ∃ fault, foldBinary symbol (.str s) r self = .error fault := by
  cases folded : foldBinary symbol (.str s) r self with
  | error fault => exact ⟨fault, rfl⟩
  | ok e =>
      unfold foldBinary at folded
      split at folded
      · cases folded
      · obtain ⟨v, stored, folded⟩ := Fault.bind_eq_ok.mp folded
        obtain rfl : Value.str s = v := Option.some.inj (operandValue_ok stored)
        obtain ⟨w, -, folded⟩ := Fault.bind_eq_ok.mp folded
        obtain ⟨result, applied, folded⟩ := Fault.bind_eq_ok.mp folded
        have noNumber : ¬ (Value.num? result).isSome := by
          intro number
          cases (Operator.apply_numeric applied number).1
        split at folded
        · exact absurd rfl noNumber
        · exact absurd rfl noNumber
        · exact absurd rfl noNumber
        · rw [failed] at folded
          cases folded

theorem fold_error_of_blocked {e : Expr} (blocked : Blocked e) : ∃ fault, e.fold.1 = .error fault := by
  cases blocked with
  | @test x n operand =>
      rw [fold_unary_of_ok operand]
      obtain ⟨fault, failed⟩ := wholeOf_truth (Value.int n).truthy
      exact ⟨fault, by simp [foldUnary, int, UnaryOperator.applySymbol, UnaryOperator.ofSymbol?,
        UnaryOperator.apply, failed]⟩
  | @empty symbol l r l' r' left right nothing =>
      rw [fold_binary_of_ok left right]
      unfold foldBinary
      cases Operator.ofSymbol? symbol with
      | none => exact ⟨_, rfl⟩
      | some op =>
          cases first : Value.inner? l' with
          | none => exact ⟨_, by simp only [operandValue, first]; rfl⟩
          | some v =>
              have second : Value.inner? r' = none := by simpa [first] using nothing
              exact ⟨_, by simp only [operandValue, first, second]; rfl⟩
  | misread left right stored stored' known undefined =>
      rw [fold_binary_of_ok left right]
      exact ⟨_, by simp only [foldBinary, known, operandValue, stored, stored', Fault.ok_bind,
        undefined]; rfl⟩
  | compared left right other =>
      rw [fold_binary_of_ok left right]
      exact foldBinary_error_of_strings (if_pos other)
  | mismatched left right other =>
      rw [fold_binary_of_ok left right]
      exact foldBinary_error_of_strings (if_pos other)

/-- Folding the expression succeeds. -/
def Folds (e : Expr) : Prop := ∃ e', e.fold.1 = .ok e'

theorem not_blocked_of_folds {e : Expr} (folds : Folds e) : ¬ Blocked e := by
  intro blocked
  obtain ⟨e', folded⟩ := folds
  obtain ⟨fault, failed⟩ := fold_error_of_blocked blocked
  rw [folded] at failed
  cases failed

theorem foldAll_succeeds_iff {es : List Expr} :
    (∃ es', (foldAll es).1 = .ok es') ↔ ∀ e ∈ es, Folds e := by
  induction es with
  | nil => exact ⟨fun _ => by simp, fun _ => ⟨[], rfl⟩⟩
  | cons e rest ih =>
      rw [List.forall_mem_cons, ← ih]
      constructor
      · rintro ⟨es', folded⟩
        obtain ⟨e', others, left, right, first, second, -⟩ := foldAll_cons_ok (Prod.ext folded rfl)
        exact ⟨⟨e', by rw [first]⟩, others, by rw [second]⟩
      · rintro ⟨⟨e', first⟩, others, second⟩
        have head : fold e = (.ok e', e.fold.2) := Prod.ext first rfl
        have tail : foldAll rest = (.ok others, (foldAll rest).2) := Prod.ext second rfl
        exact ⟨e' :: others, by rw [foldAll, head, tail]⟩

/-- An expression is folded only if its parts are. -/
theorem folds_parts (e : Expr) (folds : Folds e) : ∀ part ∈ e.parts, Folds part := by
  obtain ⟨e', folded⟩ := folds
  cases e with
  | unary symbol x =>
      obtain ⟨x', _, operand, -⟩ := fold_unary_ok (Prod.ext folded rfl)
      exact List.forall_mem_singleton.mpr ⟨x', by rw [operand]⟩
  | binary symbol l r =>
      obtain ⟨l', r', _, _, left, right, -⟩ := fold_binary_ok (Prod.ext folded rfl)
      refine List.forall_mem_cons.mpr ⟨⟨l', by rw [left]⟩, ?_⟩
      exact List.forall_mem_singleton.mpr ⟨r', by rw [right]⟩
  | assign binding name x =>
      obtain ⟨x', _, value, -⟩ := fold_assign_ok (Prod.ext folded rfl)
      exact List.forall_mem_singleton.mpr ⟨x', by rw [value]⟩
  | call name args =>
      obtain ⟨args', _, each, -⟩ := fold_call_ok (Prod.ext folded rfl)
      have succeeds : (foldAll args).1 = .ok args' := by rw [each]
      exact foldAll_succeeds_iff.mp ⟨args', succeeds⟩
  | _ =>
      intro part member
      cases member

theorem foldUnary_word {symbol : String} {x self : Expr} {b : Bool} (regular : Regular x)
    (operator : self.isOperator = true)
    (folded : foldUnary symbol x self = .ok (.literal .floating (Value.truth b))) :
    UnaryOperator.ofSymbol? symbol = some .truth ∨
      UnaryOperator.ofSymbol? symbol = some .keep ∧ ∃ b', x = .literal .floating (Value.truth b') := by
  unfold foldUnary at folded
  split at folded
  · obtain ⟨r, -, folded⟩ := Fault.bind_eq_ok.mp folded
    obtain ⟨k, -, impossible⟩ := Fault.map_eq_ok.mp folded
    cases impossible
  · rename_i v
    obtain ⟨r, applied, same⟩ := Fault.map_eq_ok.mp folded
    obtain rfl : r = Value.truth b := by cases same; rfl
    obtain ⟨op, known, applied⟩ := UnaryOperator.applySymbol_ok applied
    have holds : LiteralKind.floating.Holds v := by cases regular; assumption
    rcases holds with ⟨y, rfl⟩ | ⟨b', rfl⟩
    · rcases op.apply_float y with rfl | ⟨z, number⟩
      · exact Or.inl known
      · cases applied.symm.trans number
    · rcases UnaryOperator.apply_word applied with rfl | rfl
      · exact Or.inl known
      · exact Or.inr ⟨known, b', rfl⟩
  · obtain rfl := Except.ok.inj folded
    cases operator

theorem orZero_word (b : Bool) : (Value.truth b).orZero = Value.truth b := by
  cases b <;> rfl

/-- A word that folding has stored as a number comes of a test, and a test evaluates to a word. -/
theorem eval_word {x : Expr} {b : Bool} {fuel : Nat} {machine after : Machine} {result : Result}
    (regular : Regular x) (folded : x.fold.1 = .ok (.literal .floating (Value.truth b)))
    (evaluated : (Run.eval fuel x).exec machine = (.ok result, after)) :
    ∃ b', result = .value (Value.truth b') := by
  induction regular generalizing b fuel machine after result with
  | @literal kind v holds =>
      cases folded
      have stands : Stands (.literal .floating (Value.truth b)) (Value.truth b) :=
        ⟨.floating, rfl, Or.inr ⟨b, rfl⟩, by simp⟩
      exact ⟨b, Run.constant_result (constant_of_stands stands) evaluated⟩
  | @unary symbol x regular operand =>
      obtain ⟨x', left, inner, -, step⟩ := fold_unary_ok (Prod.ext folded rfl)
      obtain ⟨n, given, op, v, r, inside, known, unwrapped, applied, rfl⟩ :=
        Run.eval_unary_ok evaluated
      rcases foldUnary_word (fold_regular regular inner).1 rfl step with test | ⟨keep, b', rfl⟩
      · obtain rfl : op = .truth := Option.some.inj (known.symm.trans test)
        obtain rfl := Except.ok.inj applied
        exact ⟨v.truthy, by rw [orZero_word]⟩
      · obtain rfl : op = .keep := Option.some.inj (known.symm.trans keep)
        obtain ⟨b'', rfl⟩ := operand (by rw [inner]) inside
        obtain rfl : Value.truth b'' = v := Except.ok.inj unwrapped
        obtain rfl : Value.truth b'' = r := Except.ok.inj applied
        exact ⟨b'', by rw [orZero_word]⟩
  | binary symbol regularLeft regularRight =>
      obtain ⟨l', r', left, right, foldedLeft, foldedRight, -, step⟩ :=
        fold_binary_ok (Prod.ext folded rfl)
      rcases foldBinary_ok (fold_regular regularLeft foldedLeft).1
        (fold_regular regularRight foldedRight).1 step with
        impossible | ⟨_, _, _, _, _, _, _, _, ⟨kind, literal, -⟩, number | ⟨s, impossible⟩⟩
      · cases impossible
      · cases literal
        cases number
      · cases impossible
  | assign binding name _ _ =>
      obtain ⟨x', left, -, impossible, -⟩ := fold_assign_ok (Prod.ext folded rfl)
      cases impossible
  | call name _ _ =>
      obtain ⟨args', left, -, impossible, -⟩ := fold_call_ok (Prod.ext folded rfl)
      cases impossible
  | _ => cases folded

theorem unary_folds {symbol : String} {x : Expr} (regular : Regular x)
    (completes : Completes (.unary symbol x)) (free : ¬ Blocked (.unary symbol x)) (operand : Folds x) :
    Folds (.unary symbol x) := by
  obtain ⟨x', folded⟩ := operand
  have regular' : Regular x' := (fold_regular regular (Prod.ext folded rfl)).1
  obtain ⟨fuel, machine, result, after, evaluated⟩ := completes
  obtain ⟨n, given, op, v, r, inside, known, unwrapped, applied, -⟩ := Run.eval_unary_ok evaluated
  unfold Folds
  rw [fold_unary_of_ok folded]
  unfold foldUnary
  split
  · rename_i u
    obtain ⟨k, rfl⟩ : LiteralKind.integer.Holds u := by cases regular'; assumption
    rcases op.apply_int k with rfl | ⟨m, number⟩
    · exact absurd (UnaryOperator.eq_test known ▸ Blocked.test folded) free
    · exact ⟨.int m, by simp [UnaryOperator.applySymbol, known, number, wholeOf]⟩
  · rename_i u
    have holds : LiteralKind.floating.Holds u := by cases regular'; assumption
    have defined : ∃ w, op.apply u = .ok w := by
      rcases holds with ⟨y, rfl⟩ | ⟨b, rfl⟩
      · rcases op.apply_float y with rfl | ⟨z, number⟩
        · exact ⟨_, rfl⟩
        · exact ⟨_, number⟩
      · -- the operand evaluates to a word too, and so shows which operators there can be
        obtain ⟨b', rfl⟩ := eval_word regular folded inside
        obtain rfl : Value.truth b' = v := Except.ok.inj unwrapped
        rcases UnaryOperator.apply_word applied with rfl | rfl
        · exact ⟨_, rfl⟩
        · exact ⟨_, rfl⟩
    obtain ⟨w, defined⟩ := defined
    exact ⟨.literal .floating w, by simp [UnaryOperator.applySymbol, known, defined]⟩
  · exact ⟨_, rfl⟩

theorem inner_of_stands {e : Expr} {v : Value} (stands : Stands e v) : Value.inner? e = some v := by
  obtain ⟨kind, rfl, -⟩ := stands
  rfl

/-- An expression that is folded exactly evaluates to the value that is stored in the folded one. -/
theorem eval_exact {e e' : Expr} {v u : Value} {fuel : Nat} {machine after : Machine} {result : Result}
    {store : Store} (regular : Regular e) (exact : Exact e) (folded : e.fold.1 = .ok e')
    (stored : Value.inner? e' = some v)
    (evaluated : (Run.eval fuel e).exec machine = (.ok result, after))
    (unwrapped : (result.snapshot store).unwrap = .ok u) : u = v := by
  obtain ⟨faithful, e'', w, folded', stands⟩ := exact
  obtain rfl : e' = e'' := Except.ok.inj (folded.symm.trans folded')
  obtain rfl : v = w := Option.some.inj (stored.symm.trans (inner_of_stands stands))
  have equivalent := (foldsWell regular faithful e' _ (Prod.ext folded rfl)).1
  have constant := Run.constant_of_equivalent equivalent (constant_of_stands stands)
  obtain rfl := Run.constant_result constant evaluated
  have direct := stands_unwrap stands
  exact Except.ok.inj (unwrapped.symm.trans direct)

theorem foldStrings_succeeds {symbol : String} {l r l' r' self : Expr} {op : Operator}
    {v w result : Value} (free : ¬ Blocked (.binary symbol l r)) (foldedLeft : l.fold.1 = .ok l')
    (foldedRight : r.fold.1 = .ok r') (regularLeft : Regular l') (regularRight : Regular r')
    (known : Operator.ofSymbol? symbol = some op) (left : Value.inner? l' = some v)
    (right : Value.inner? r' = some w) (applied : op.apply v w = .ok result) :
    ∃ e, foldStrings symbol l' r' self = .ok e := by
  unfold foldStrings
  split
  · rename_i v' w'
    obtain ⟨s, rfl⟩ : LiteralKind.string.Holds v' := by cases regularLeft; assumption
    obtain ⟨t, rfl⟩ : LiteralKind.string.Holds w' := by cases regularRight; assumption
    split
    · rename_i other
      exact absurd (.compared foldedLeft foldedRight other) free
    · exact ⟨.str (s ++ t), rfl⟩
  · rename_i v' n'
    obtain ⟨s, rfl⟩ : LiteralKind.string.Holds v' := by cases regularLeft; assumption
    obtain ⟨n, rfl⟩ : LiteralKind.integer.Holds n' := by cases regularRight; assumption
    obtain rfl := Option.some.inj left
    obtain rfl := Option.some.inj right
    split
    · rename_i other
      exact absurd (.mismatched foldedLeft foldedRight other) free
    · rename_i times
      obtain rfl : symbol = "*" := by simpa using times
      obtain rfl : Operator.mul = op := Option.some.inj known
      have product : (Value.str s).mul (.int n) = .ok result := applied
      exact ⟨.literal .string result, by simp only [Value.text, Fault.ok_bind, product]; rfl⟩
  · exact ⟨_, rfl⟩

theorem binary_folds {symbol : String} {l r : Expr} (regularLeft : Regular l) (regularRight : Regular r)
    (completes : Completes (.binary symbol l r)) (free : ¬ Blocked (.binary symbol l r))
    (left : Folds l) (right : Folds r) : Folds (.binary symbol l r) := by
  obtain ⟨l', foldedLeft⟩ := left
  obtain ⟨r', foldedRight⟩ := right
  obtain ⟨fuel, machine, given, after, evaluated⟩ := completes
  obtain ⟨n, between, first, second, op, v, w, evaluatedLeft, evaluatedRight, known, unwrappedLeft,
    unwrappedRight, u, applied⟩ := Run.eval_binary_ok evaluated
  unfold Folds
  rw [fold_binary_of_ok foldedLeft foldedRight]
  cases storedLeft : Value.inner? l' with
  | none => exact absurd (.empty foldedLeft foldedRight (Or.inl storedLeft)) free
  | some v' =>
  cases storedRight : Value.inner? r' with
  | none => exact absurd (.empty foldedLeft foldedRight (Or.inr storedRight)) free
  | some w' =>
  cases folding : op.apply v' w' with
  | error fault =>
      -- if both operands were exact, evaluation would have failed on the same values
      refine absurd ?_ free
      refine .misread foldedLeft foldedRight storedLeft storedRight known folding ?_
      rintro ⟨exactLeft, exactRight⟩
      have same := eval_exact regularLeft exactLeft foldedLeft storedLeft evaluatedLeft unwrappedLeft
      have same' :=
        eval_exact regularRight exactRight foldedRight storedRight evaluatedRight unwrappedRight
      rw [same, same', folding] at applied
      cases applied
  | ok result =>
      simp only [foldBinary, known, operandValue, storedLeft, storedRight, Fault.ok_bind, folding]
      split
      · exact ⟨_, rfl⟩
      · exact ⟨_, rfl⟩
      · exact ⟨_, rfl⟩
      · exact foldStrings_succeeds free foldedLeft foldedRight
          (fold_regular regularLeft (Prod.ext foldedLeft rfl)).1
          (fold_regular regularRight (Prod.ext foldedRight rfl)).1 known storedLeft storedRight folding

/-- An expression that is evaluated to its end is folded as well unless an operator is in the way. -/
theorem folds_of_completes {e : Expr} (regular : Regular e) (completes : Completes e)
    (free : ∀ inner ∈ e.visited, ¬ Blocked inner) : Folds e := by
  induction regular with
  | unary symbol regular operand =>
      obtain ⟨here, inside⟩ := List.forall_mem_cons.mp free
      have parts := Run.completes_parts _ completes
      exact unary_folds regular completes here (operand (parts _ (by simp [Expr.parts])) inside)
  | binary symbol regularLeft regularRight first second =>
      obtain ⟨here, inside⟩ := List.forall_mem_cons.mp free
      obtain ⟨left, right⟩ := List.forall_mem_append.mp inside
      have parts := Run.completes_parts _ completes
      exact binary_folds regularLeft regularRight completes here
        (first (parts _ (by simp [Expr.parts])) left) (second (parts _ (by simp [Expr.parts])) right)
  | @assign binding name x _ value =>
      obtain ⟨-, inside⟩ := List.forall_mem_cons.mp free
      have parts := Run.completes_parts _ completes
      obtain ⟨x', folded⟩ := value (parts _ (by simp [Expr.parts])) inside
      have inner : fold x = (.ok x', x.fold.2) := Prod.ext folded rfl
      exact ⟨.assign binding name x', by rw [fold, inner]⟩
  | @call name args _ each =>
      obtain ⟨-, inside⟩ := List.forall_mem_cons.mp free
      have arguments : ∀ a ∈ args, Folds a := fun a argument =>
        each a argument (Run.completes_parts _ completes a argument) fun inner member =>
          inside inner (mem_visitedAll.mpr ⟨a, argument, member⟩)
      obtain ⟨args', folded⟩ := foldAll_succeeds_iff.mpr arguments
      have inner : foldAll args = (.ok args', (foldAll args).2) := Prod.ext folded rfl
      exact ⟨.call name args', by rw [fold, inner]⟩
  | _ => exact ⟨_, rfl⟩

theorem foldProgram_ok_iff {program : List Expr} :
    (∃ folded, (foldProgram program).1 = .ok folded) ↔ ∀ e ∈ program, Folds e := by
  rw [← foldAll_succeeds_iff]
  constructor
  · rintro ⟨folded, succeeds⟩
    obtain ⟨es, folds, -⟩ := Fault.map_eq_ok.mp succeeds
    exact ⟨es, folds⟩
  · rintro ⟨es, folds⟩
    exact ⟨es.flatMap spread, by simp only [foldProgram, folds, Except.map]⟩

/-- A program that was read and runs to its end on some machine is folded without a fault exactly if
folding goes through no operator that is blocked. -/
theorem foldProgram_succeeds_iff {tokens : List Token} {program : List Expr} {scope : Scope}
    {verbose : Bool} {folder : Option Path} {machine after : Machine} {results : List Result}
    (read : ofTokens tokens = .ok program)
    (runs : Run.Evaluates program scope verbose folder machine (.ok results, after)) :
    (∃ folded, (foldProgram program).1 = .ok folded) ↔
      ∀ e ∈ program, ∀ inner ∈ e.visited, ¬ Blocked inner := by
  obtain ⟨-, fuel, evaluated⟩ := runs
  obtain ⟨_, _, -, evaluated⟩ := Run.exec_bind_ok evaluated
  have completes := Run.evalAll_ok evaluated
  have regular := ofTokens_regular read
  rw [foldProgram_ok_iff]
  constructor
  · intro folds e member inner inside
    have folded := forall_visited folds_parts (regular e member) (folds e member)
    exact not_blocked_of_folds (folded inner inside)
  · intro free e member
    exact folds_of_completes (regular e member) (completes e member) (free e member)

theorem foldProgram_succeeds_iff_comparison : ∃ (tokens : List Token) (program : List Expr),
    program = [.binary "==" (.str "a") (.str "b")] ∧ ofTokens tokens = .ok program ∧
    (∀ console files, ∃ after, Run.Evaluates program [0] false none
      (.freshWithBuiltins console files) (.ok [.value (Value.truth false)], after)) ∧
    ¬ ∃ folded, (foldProgram program).1 = .ok folded := by
  let tokens : List Token :=
    [⟨some .string, "a", 1, 1⟩, ⟨some .operator, "==", 1, 5⟩, ⟨some .string, "b", 1, 8⟩]
  let comparison : Expr := .binary "==" (.str "a") (.str "b")
  have read : ofTokens tokens = .ok [comparison] := rfl
  have runs : ∀ console files, ∃ after, Run.Evaluates [comparison] [0] false none
      (.freshWithBuiltins console files) (.ok [.value (Value.truth false)], after) :=
    fun console files => ⟨_, by simp, 2, rfl⟩
  refine ⟨tokens, [comparison], rfl, read, runs, ?_⟩
  obtain ⟨after, runs⟩ := runs (.ofInput "" false) .none
  rw [foldProgram_succeeds_iff read runs]
  intro free
  have blocked : Blocked comparison := .compared rfl rfl (by decide)
  exact free comparison (by simp) comparison (self_mem_visited comparison) blocked

/-- A program that adds to a variable runs to its end and cannot be folded. -/
theorem foldProgram_rejects_variable : ∃ (tokens : List Token) (program : List Expr),
    program = [.assign (some "let") "x" (.int 1), .binary "+" (.ident "x") (.int 1)] ∧
    ofTokens tokens = .ok program ∧
    (∀ console files, ∃ after, Run.Evaluates program [0] false none
      (.freshWithBuiltins console files) (.ok [.value (.int 1), .value (.int 2)], after)) ∧
    (foldProgram program).1 = .error (.noAttribute "IdentLiteral" "value") := by
  let tokens : List Token :=
    [⟨some .keyword, "let", 1, 1⟩, ⟨some .identifier, "x", 1, 5⟩, ⟨some .operator, "=", 1, 7⟩,
      ⟨some .number, "1", 1, 9⟩, ⟨some .newline, "newline", 1, 10⟩, ⟨some .identifier, "x", 2, 1⟩,
      ⟨some .operator, "+", 2, 3⟩, ⟨some .number, "1", 2, 5⟩]
  refine ⟨tokens, _, rfl, rfl, fun console files => ?_, rfl⟩
  generalize outcome : (Run.evalProgram 3 [.assign (some "let") "x" (.int 1),
    .binary "+" (.ident "x") (.int 1)] [0] false none).exec (.freshWithBuiltins console files) = run
  have results : run.1 = .ok [.value (.int 1), .value (.int 2)] := by
    rw [← outcome]
    rfl
  exact ⟨run.2, by simp, 3, outcome.trans (Prod.ext results rfl)⟩

end Scriptlet.Expr
