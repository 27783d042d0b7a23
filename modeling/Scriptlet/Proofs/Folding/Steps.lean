import Scriptlet.Folding
import Scriptlet.Proofs.Expr.Regular

set_option autoImplicit false

/-!
What one step of folding gives for operands that are already folded. The result is the operator itself
or a literal, and a literal comes only from literals that stand for the values they hold.
-/

namespace Scriptlet

namespace Value

theorem repeated_not_num {times : Int} {v r : Value} {result : Except Fault Value}
    (some : repeated times v = some result) (given : result = .ok r) : num? r = none := by
  subst given
  cases v with
  | str s =>
      simp only [repeated, Option.some.injEq, Fault.bind_eq_ok] at some
      obtain ⟨items, -, same⟩ := some
      rw [← Except.ok.inj same]
      rfl
  | list items =>
      simp only [repeated, Option.some.injEq, Fault.bind_eq_ok] at some
      obtain ⟨items, -, same⟩ := some
      rw [← Except.ok.inj same]
      rfl
  | _ => cases some

end Value

namespace UnaryOperator

theorem apply_int (op : UnaryOperator) (n : Int) :
    op = .truth ∨ ∃ m, op.apply (.int n) = .ok (.int m) := by
  cases op with
  | truth => exact Or.inl rfl
  | _ => exact Or.inr ⟨_, rfl⟩

theorem apply_float (op : UnaryOperator) (x : Float) :
    op = .truth ∨ ∃ z, op.apply (.float x) = .ok (.float z) := by
  cases op with
  | truth => exact Or.inl rfl
  | _ => exact Or.inr ⟨_, rfl⟩

theorem apply_word {op : UnaryOperator} {b : Bool} {r : Value}
    (applied : op.apply (Value.truth b) = .ok r) : op = .truth ∨ op = .keep := by
  cases op with
  | truth => exact Or.inl rfl
  | keep => exact Or.inr rfl
  | increment => cases applied
  | decrement => cases applied
  | negate =>
      obtain ⟨w, -, applied⟩ := Fault.bind_eq_ok.mp applied
      cases applied

theorem apply_keeps_floating {op : UnaryOperator} {v r : Value} (holds : LiteralKind.floating.Holds v)
    (applied : op.apply v = .ok r) : LiteralKind.floating.Holds r := by
  rcases holds with ⟨x, rfl⟩ | ⟨b, rfl⟩
  · rcases op.apply_float x with rfl | ⟨z, same⟩
    · exact Or.inr ⟨_, (Except.ok.inj applied).symm⟩
    · exact Or.inl ⟨z, Except.ok.inj (applied.symm.trans same)⟩
  · rcases apply_word applied with rfl | rfl
    · exact Or.inr ⟨_, (Except.ok.inj applied).symm⟩
    · exact Or.inr ⟨b, (Except.ok.inj applied).symm⟩

theorem eq_test {symbol : String} (known : ofSymbol? symbol = some .truth) : symbol = "!" := by
  unfold ofSymbol? at known
  split at known
  · rfl
  all_goals cases known

theorem applySymbol_ok {symbol : String} {v r : Value} (applied : applySymbol symbol v = .ok r) :
    ∃ op, ofSymbol? symbol = some op ∧ op.apply v = .ok r := by
  unfold applySymbol at applied
  split at applied
  · rename_i op known
    exact ⟨op, known, applied⟩
  · cases applied

end UnaryOperator

namespace Operator

/-- The result of an operator is a number of the usual kinds. -/
def Numeric (v w r : Value) : Prop :=
  (Value.num? v).isSome ∧ (Value.num? w).isSome ∧ ∃ n, r = Value.ofNum n

theorem add_numeric {v w r : Value} (applied : v.add w = .ok r) (number : (Value.num? r).isSome) :
    Numeric v w r := by
  unfold Value.add at applied
  split at applied
  · cases applied
    cases number
  · cases applied
    cases number
  · cases applied
  · cases applied
  · split at applied
    · rename_i n m first second
      obtain ⟨k, -, rfl⟩ := Fault.map_eq_ok.mp applied
      exact ⟨by rw [first]; rfl, by rw [second]; rfl, k, rfl⟩
    · cases applied

theorem mul_numeric {v w r : Value} (applied : v.mul w = .ok r) (number : (Value.num? r).isSome) :
    Numeric v w r := by
  have sequence : ∀ {times : Int} {u : Value} {fault : Fault},
      (Value.repeated times u).getD (.error fault) = .ok r → False := by
    intro times u fault given
    cases again : Value.repeated times u with
    | none =>
        rw [again] at given
        cases given
    | some result =>
        rw [again] at given
        rw [Value.repeated_not_num again given] at number
        cases number
  unfold Value.mul at applied
  split at applied
  · rename_i n m first second
    obtain ⟨k, -, rfl⟩ := Fault.map_eq_ok.mp applied
    exact ⟨by rw [first]; rfl, by rw [second]; rfl, k, rfl⟩
  · split at applied
    · split at applied
      · exact (sequence applied).elim
      · cases applied
    · split at applied
      · split at applied
        · exact (sequence applied).elim
        · cases applied
      · cases applied

theorem numeric_numeric {symbol : String}
    {f : Number.Num → Number.Num → Option (Except Fault Number.Num)} {v w r : Value}
    (applied : Value.numeric symbol f v w = .ok r) : Numeric v w r := by
  unfold Value.numeric at applied
  split at applied
  · rename_i n m first second
    split at applied
    · obtain ⟨k, -, rfl⟩ := Fault.map_eq_ok.mp applied
      exact ⟨by rw [first]; rfl, by rw [second]; rfl, k, rfl⟩
    · cases applied
  · cases applied

/-- A number is made of numbers only. -/
theorem apply_numeric {op : Operator} {v w r : Value} (applied : op.apply v w = .ok r)
    (number : (Value.num? r).isSome) : Numeric v w r := by
  cases op with
  | add => exact add_numeric applied number
  | mul => exact mul_numeric applied number
  | relation _ =>
      obtain ⟨b, -, rfl⟩ := Fault.map_eq_ok.mp applied
      cases number
  | eq =>
      cases applied
      cases number
  | ne =>
      cases applied
      cases number
  | _ =>
      simp only [apply, Value.sub, Value.div, Value.floorDiv, Value.pow] at applied
      exact numeric_numeric applied

end Operator

namespace Expr

/-- A literal that stands for the value it holds. A truth value is written as a word and does not. -/
def Stands (e : Expr) (v : Value) : Prop :=
  ∃ kind, e = .literal kind v ∧ kind.Holds v ∧ kind ≠ .boolean

theorem regular_of_stands {e : Expr} {v : Value} (stands : Stands e v) : Regular e := by
  obtain ⟨kind, rfl, holds, -⟩ := stands
  exact .literal holds

theorem toValue_not_num {e : Expr} (regular : Regular e) : Value.num? e.toValue = none := by
  cases regular <;> rfl

/-- The only numbers inside of operands are those of literals. -/
theorem stands_of_number {e : Expr} {v : Value} (regular : Regular e)
    (inner : Value.inner? e = some v) (number : (Value.num? v).isSome) : Stands e v := by
  have outside : ∀ {x : Expr}, Regular x → some x.toValue = some v → Stands e v := by
    intro x inside same
    rw [← Option.some.inj same, toValue_not_num inside] at number
    cases number
  cases regular with
  | @literal kind u holds =>
      obtain rfl : u = v := Option.some.inj inner
      refine ⟨kind, rfl, holds, ?_⟩
      rintro rfl
      obtain ⟨b, rfl⟩ := holds
      cases number
  | unary _ operand => exact outside operand inner
  | assign _ _ value => exact outside value inner
  | ret value => exact outside value inner
  | _ => cases inner

theorem wholeOf_truth (b : Bool) : ∃ fault, wholeOf (Value.truth b) = .error fault := by
  cases b
  · exact ⟨_, rfl⟩
  · exact ⟨_, rfl⟩

/-- A folded operator before its operand is left as it is or becomes a literal, which stands for what
the operator gives for the value of the operand. -/
theorem foldUnary_ok {symbol : String} {operand self e : Expr} (regular : Regular operand)
    (folded : foldUnary symbol operand self = .ok e) :
    e = self ∨ ∃ op v r, UnaryOperator.ofSymbol? symbol = some op ∧ Stands operand v ∧
      op.apply v = .ok r ∧ Stands e r := by
  unfold foldUnary at folded
  split at folded
  · rename_i v
    obtain ⟨n, rfl⟩ : LiteralKind.integer.Holds v := by cases regular; assumption
    obtain ⟨r, applied, folded⟩ := Fault.bind_eq_ok.mp folded
    obtain ⟨k, whole, rfl⟩ := Fault.map_eq_ok.mp folded
    obtain ⟨op, known, applied⟩ := UnaryOperator.applySymbol_ok applied
    rcases op.apply_int n with rfl | ⟨m, same⟩
    · obtain rfl := Except.ok.inj applied
      obtain ⟨fault, failed⟩ := wholeOf_truth (Value.int n).truthy
      rw [failed] at whole
      cases whole
    · obtain rfl := Except.ok.inj (applied.symm.trans same)
      obtain rfl : m = k := Except.ok.inj whole
      exact Or.inr ⟨op, .int n, .int m, known, ⟨.integer, rfl, ⟨n, rfl⟩, by simp⟩, applied,
        ⟨.integer, rfl, ⟨m, rfl⟩, by simp⟩⟩
  · rename_i v
    have holds : LiteralKind.floating.Holds v := by cases regular; assumption
    obtain ⟨r, applied, rfl⟩ := Fault.map_eq_ok.mp folded
    obtain ⟨op, known, applied⟩ := UnaryOperator.applySymbol_ok applied
    exact Or.inr ⟨op, v, r, known, ⟨.floating, rfl, holds, by simp⟩, applied,
      ⟨.floating, rfl, UnaryOperator.apply_keeps_floating holds applied, by simp⟩⟩
  · exact Or.inl (Except.ok.inj folded).symm

theorem mul_str {s : String} {n : Int} {r : Value} (product : (Value.str s).mul (.int n) = .ok r) :
    ∃ t, r = .str t := by
  obtain ⟨items, -, same⟩ := Fault.bind_eq_ok.mp product
  exact ⟨_, (Except.ok.inj same).symm⟩

theorem foldStrings_ok {symbol : String} {l r self e : Expr} {op : Operator} {v w result : Value}
    (known : Operator.ofSymbol? symbol = some op) (left : Value.inner? l = some v)
    (right : Value.inner? r = some w) (regularLeft : Regular l) (regularRight : Regular r)
    (applied : op.apply v w = .ok result) (folded : foldStrings symbol l r self = .ok e) :
    e = self ∨ Stands l v ∧ Stands r w ∧ Stands e result ∧ ∃ s, e = .str s := by
  unfold foldStrings at folded
  split at folded
  · obtain rfl := Option.some.inj left
    obtain rfl := Option.some.inj right
    cases regularLeft with
    | literal holdsLeft =>
      cases regularRight with
      | literal holdsRight =>
        obtain ⟨s, rfl⟩ := holdsLeft
        obtain ⟨t, rfl⟩ := holdsRight
        split at folded
        · cases folded
        · rename_i plus
          obtain rfl : symbol = "+" := by simpa using plus
          obtain rfl : Operator.add = op := Option.some.inj known
          obtain rfl : Value.str (s ++ t) = result := Except.ok.inj applied
          obtain rfl : Expr.str (s ++ t) = e := Except.ok.inj folded
          exact Or.inr ⟨⟨.string, rfl, ⟨s, rfl⟩, by simp⟩, ⟨.string, rfl, ⟨t, rfl⟩, by simp⟩,
            ⟨.string, rfl, ⟨s ++ t, rfl⟩, by simp⟩, s ++ t, rfl⟩
  · obtain rfl := Option.some.inj left
    obtain rfl := Option.some.inj right
    cases regularLeft with
    | literal holdsLeft =>
      cases regularRight with
      | literal holdsRight =>
        obtain ⟨s, rfl⟩ := holdsLeft
        obtain ⟨n, rfl⟩ := holdsRight
        split at folded
        · cases folded
        · rename_i times
          obtain rfl : symbol = "*" := by simpa using times
          obtain rfl : Operator.mul = op := Option.some.inj known
          obtain ⟨product, again, rfl⟩ := Fault.map_eq_ok.mp folded
          obtain rfl : product = result := Except.ok.inj (again.symm.trans applied)
          obtain ⟨t, rfl⟩ := mul_str applied
          exact Or.inr ⟨⟨.string, rfl, ⟨s, rfl⟩, by simp⟩, ⟨.integer, rfl, ⟨n, rfl⟩, by simp⟩,
            ⟨.string, rfl, ⟨t, rfl⟩, by simp⟩, t, rfl⟩
  · exact Or.inl (Except.ok.inj folded).symm

theorem operandValue_ok {e : Expr} {v : Value} (stored : operandValue e = .ok v) :
    Value.inner? e = some v := by
  unfold operandValue at stored
  split at stored
  · rename_i u inner
    rw [inner, Except.ok.inj stored]
  · cases stored

/-- A folded operator between two operands is left as it is or becomes a number or a string, which stands
for what the operator gives for the values of the operands. -/
theorem foldBinary_ok {symbol : String} {l r self e : Expr} (regularLeft : Regular l)
    (regularRight : Regular r) (folded : foldBinary symbol l r self = .ok e) :
    e = self ∨ ∃ op v w result, Operator.ofSymbol? symbol = some op ∧ Stands l v ∧ Stands r w ∧
      op.apply v w = .ok result ∧ Stands e result ∧
      ((Value.num? result).isSome ∨ ∃ s, e = .str s) := by
  unfold foldBinary at folded
  split at folded
  · cases folded
  · rename_i op known
    obtain ⟨v, storedLeft, folded⟩ := Fault.bind_eq_ok.mp folded
    obtain ⟨w, storedRight, folded⟩ := Fault.bind_eq_ok.mp folded
    obtain ⟨result, applied, folded⟩ := Fault.bind_eq_ok.mp folded
    have left := operandValue_ok storedLeft
    have right := operandValue_ok storedRight
    have numeric : ∀ kind, LiteralKind.Holds kind result → kind ≠ .boolean →
        (Value.num? result).isSome → literal kind result = e → e = self ∨ ∃ op v w result,
        Operator.ofSymbol? symbol = some op ∧ Stands l v ∧ Stands r w ∧
          op.apply v w = .ok result ∧ Stands e result ∧
          ((Value.num? result).isSome ∨ ∃ s, e = .str s) := by
      intro kind holds direct number same
      obtain ⟨first, second, -⟩ := Operator.apply_numeric applied number
      exact Or.inr ⟨op, v, w, result, known, stands_of_number regularLeft left first,
        stands_of_number regularRight right second, applied, ⟨kind, same.symm, holds, direct⟩,
        Or.inl number⟩
    split at folded
    · exact numeric .integer ⟨_, rfl⟩ (by simp) rfl (Except.ok.inj folded)
    · obtain ⟨-, -, n, same⟩ := Operator.apply_numeric applied rfl
      cases n <;> cases same
    · exact numeric .floating (Or.inl ⟨_, rfl⟩) (by simp) rfl (Except.ok.inj folded)
    · rcases foldStrings_ok known left right regularLeft regularRight applied folded with
        same | ⟨standsLeft, standsRight, stands, text⟩
      · exact Or.inl same
      · exact Or.inr ⟨op, v, w, result, known, standsLeft, standsRight, applied, stands, Or.inr text⟩

theorem fold_unary_ok {symbol : String} {x e after : Expr}
    (folded : fold (.unary symbol x) = (.ok e, after)) :
    ∃ x' left, fold x = (.ok x', left) ∧ after = .unary symbol left ∧
      foldUnary symbol x' (.unary symbol left) = .ok e := by
  rw [fold] at folded
  split at folded
  · cases folded
  · rename_i x' left operand
    obtain ⟨result, rfl⟩ := Prod.mk.inj folded
    exact ⟨x', left, operand, rfl, result⟩

theorem fold_binary_ok {symbol : String} {l r e after : Expr}
    (folded : fold (.binary symbol l r) = (.ok e, after)) :
    ∃ l' r' left right, fold l = (.ok l', left) ∧ fold r = (.ok r', right) ∧
      after = .binary symbol left right ∧
      foldBinary symbol l' r' (.binary symbol left right) = .ok e := by
  rw [fold] at folded
  split at folded
  · cases folded
  · rename_i l' left first
    split at folded
    · cases folded
    · rename_i r' right second
      obtain ⟨result, rfl⟩ := Prod.mk.inj folded
      exact ⟨l', r', left, right, first, second, rfl, result⟩

theorem fold_assign_ok {binding : Option String} {name : String} {x e after : Expr}
    (folded : fold (.assign binding name x) = (.ok e, after)) :
    ∃ x' left, fold x = (.ok x', left) ∧ e = .assign binding name x' ∧
      after = .assign binding name x' := by
  rw [fold] at folded
  split at folded
  · cases folded
  · rename_i x' left value
    obtain ⟨result, rfl⟩ := Prod.mk.inj folded
    exact ⟨x', left, value, (Except.ok.inj result).symm, rfl⟩

theorem fold_call_ok {name : String} {args : List Expr} {e after : Expr}
    (folded : fold (.call name args) = (.ok e, after)) :
    ∃ args' left, foldAll args = (.ok args', left) ∧ e = .call name args' ∧
      after = .call name args' := by
  rw [fold] at folded
  split at folded
  · cases folded
  · rename_i args' left each
    obtain ⟨result, rfl⟩ := Prod.mk.inj folded
    exact ⟨args', left, each, (Except.ok.inj result).symm, rfl⟩

theorem foldAll_cons_ok {e : Expr} {rest es after : List Expr}
    (folded : foldAll (e :: rest) = (.ok es, after)) :
    ∃ e' others left right, fold e = (.ok e', left) ∧ foldAll rest = (.ok others, right) ∧
      es = e' :: others ∧ after = left :: right := by
  rw [foldAll] at folded
  split at folded
  · cases folded
  · rename_i e' left first
    split at folded
    · cases folded
    · rename_i others right second
      obtain ⟨result, rfl⟩ := Prod.mk.inj folded
      exact ⟨e', others, left, right, first, second, (Except.ok.inj result).symm, rfl⟩

theorem foldAll_regular {es es' after : List Expr}
    (each : ∀ e ∈ es, ∀ e' left, fold e = (.ok e', left) → Regular e' ∧ Regular left)
    (folded : foldAll es = (.ok es', after)) : ∀ e ∈ es', Regular e := by
  induction es generalizing es' after with
  | nil =>
      obtain ⟨result, -⟩ := Prod.mk.inj folded
      obtain rfl := Except.ok.inj result
      simp
  | cons e rest ih =>
      obtain ⟨e', others, left, right, first, second, rfl, -⟩ := foldAll_cons_ok folded
      have regular := each e (by simp) e' left first
      exact List.forall_mem_cons.mpr ⟨regular.1, ih (fun e member => each e (by simp [member])) second⟩

/-- Folding a regular expression gives a regular one and leaves a regular one behind. -/
theorem fold_regular {e e' after : Expr} (regular : Regular e) (folded : fold e = (.ok e', after)) :
    Regular e' ∧ Regular after := by
  induction regular generalizing e' after with
  | unary symbol _ operand =>
      obtain ⟨x', left, inner, rfl, step⟩ := fold_unary_ok folded
      obtain ⟨regular, regularLeft⟩ := operand inner
      refine ⟨?_, .unary symbol regularLeft⟩
      rcases foldUnary_ok regular step with rfl | ⟨_, _, _, _, _, _, stands⟩
      · exact .unary symbol regularLeft
      · exact regular_of_stands stands
  | binary symbol _ _ first second =>
      obtain ⟨l', r', left, right, foldedLeft, foldedRight, rfl, step⟩ := fold_binary_ok folded
      obtain ⟨regularL, regularLeft⟩ := first foldedLeft
      obtain ⟨regularR, regularRight⟩ := second foldedRight
      refine ⟨?_, .binary symbol regularLeft regularRight⟩
      rcases foldBinary_ok regularL regularR step with rfl | ⟨_, _, _, _, _, _, _, _, stands, _⟩
      · exact .binary symbol regularLeft regularRight
      · exact regular_of_stands stands
  | assign binding name _ value =>
      obtain ⟨x', left, inner, rfl, rfl⟩ := fold_assign_ok folded
      have assigned := Regular.assign binding name (value inner).1
      exact ⟨assigned, assigned⟩
  | call name _ each =>
      obtain ⟨args', left, inner, rfl, rfl⟩ := fold_call_ok folded
      have called := Regular.call name
        (foldAll_regular (fun a member _ _ folded => each a member folded) inner)
      exact ⟨called, called⟩
  | _ =>
      obtain ⟨result, rfl⟩ := Prod.mk.inj folded
      obtain rfl := Except.ok.inj result
      constructor <;> constructor <;> assumption

end Expr

end Scriptlet
