import Mathlib.Algebra.Ring.Int.Parity
import Scriptlet.Proofs.Evaluation.Exec
import Scriptlet.Proofs.Expr.Grammar
import Scriptlet.Proofs.Folding.Steps
import Scriptlet.Proofs.Number.Numeral

set_option autoImplicit false

/-!
Whole-number arithmetic from its text to its value. A tree of literals, operators and minus signs is
written with as few brackets as its grouping allows. Its text is scanned, read back as the same tree,
folded to one literal and evaluated to the value of the tree, with or without the folding.
-/

namespace Scriptlet.Arithmetic

inductive Operation
  | add
  | sub
  | mul
  | pow
deriving Repr, DecidableEq

namespace Operation

def symbol : Operation → String
  | add => "+"
  | sub => "-"
  | mul => "*"
  | pow => "^"

/-- How tightly the operation binds. -/
def level : Operation → Int
  | add => 1
  | sub => 1
  | mul => 2
  | pow => 3

def apply : Operation → Int → Int → Int
  | add, a, b => a + b
  | sub, a, b => a - b
  | mul, a, b => a * b
  | pow, a, b => a ^ b.toNat

end Operation

inductive Tree
  | literal (n : Number.Numeral)
  | negate (operand : Tree)
  | binary (operation : Operation) (left right : Tree)

namespace Tree

def value : Tree → Int
  | literal n => n.value
  | negate t => -t.value
  | binary operation l r => operation.apply l.value r.value

/-- No exponent is negative. -/
def Defined : Tree → Prop
  | literal _ => True
  | negate t => t.Defined
  | binary operation l r => l.Defined ∧ r.Defined ∧ (operation = .pow → 0 ≤ r.value)

def expr : Tree → Expr
  | literal n => .int n.value
  | negate t => .unary "-" t.expr
  | binary operation l r => .binary operation.symbol l.expr r.expr

def depth : Tree → Nat
  | literal _ => 0
  | negate t => t.depth + 1
  | binary _ l r => max l.depth r.depth + 1

/-- How tightly the outermost operation binds. A literal or a minus sign with its operand binds tighter
than any operation. -/
def level : Tree → Int
  | literal _ | negate _ => 4
  | binary operation _ _ => operation.level

/-- The words of a tree. A left operand may bind as tightly as its operation, a right one has to bind
tighter, and the operand of a minus sign is a single primary. -/
def words : Tree → List Word
  | literal n => [⟨.number, n.text⟩]
  | negate t => ⟨.operator, "-"⟩ :: Word.bracketed (t.level < 4) t.words
  | binary operation l r =>
    Word.bracketed (l.level < operation.level) l.words ++
      ⟨.operator, operation.symbol⟩ :: Word.bracketed (r.level < operation.level + 1) r.words

/-- The text of a tree, with one space between words. -/
def text (t : Tree) : String := Token.textOf t.words

end Tree

namespace Operation

def operator : Operation → Operator
  | add => .add
  | sub => .sub
  | mul => .mul
  | pow => .pow

@[simp] theorem ofSymbol?_symbol (operation : Operation) :
    Operator.ofSymbol? operation.symbol = some operation.operator := by
  cases operation <;> rfl

theorem intPower_nonneg (base : Int) {exponent : Int} (nonneg : 0 ≤ exponent) :
    Number.intPower base exponent = .ok (.int (base ^ exponent.toNat)) := by
  rw [Number.intPower, if_pos nonneg]
  split
  · rename_i trivial
    simp only [Bool.or_eq_true, decide_eq_true_eq] at trivial
    rcases trivial with rfl | rfl <;> simp
  · rename_i nontrivial
    simp only [Bool.or_eq_true, decide_eq_true_eq, not_or] at nontrivial
    have positive : exponent.toNat ≠ 0 := by omega
    split
    · rename_i zero
      subst zero
      rw [zero_pow positive]
    · split
      · rename_i minusOne
        subst minusOne
        obtain ⟨n, rfl⟩ := Int.eq_ofNat_of_zero_le nonneg
        by_cases even : (n : Int) % 2 = 0
        · rw [if_pos even, Int.toNat_natCast, Even.neg_one_pow (Nat.even_iff.mpr (by omega))]
        · rw [if_neg even, Int.toNat_natCast, Odd.neg_one_pow (Nat.odd_iff.mpr (by omega))]
      · rfl

theorem apply_int (operation : Operation) (a b : Int) (defined : operation = .pow → 0 ≤ b) :
    operation.operator.apply (.int a) (.int b) = .ok (.int (operation.apply a b)) := by
  cases operation with
  | add => rfl
  | sub => rfl
  | mul => rfl
  | pow =>
      change Value.ofNum <$> Number.intPower a b = _
      rw [intPower_nonneg a (defined rfl)]
      rfl

theorem joins_symbol (operation : Operation) {t : Token}
    (spells : t.Spells ⟨.operator, operation.symbol⟩) :
    Reading.Joins t ∧ Reading.precedence t = operation.level := by
  obtain ⟨kind, value⟩ := spells
  cases operation <;>
    simp [Reading.Joins, Reading.isLeftAssociative, Reading.precedence, kind, value, symbol, level]

end Operation

theorem negate_int (n : Int) : UnaryOperator.negate.apply (.int n) = .ok (.int (-n)) := by
  change Except.ok (Value.int (n - n * 2)) = _
  rw [show n - n * 2 = -n by omega]

theorem foldUnary_negate (n : Int) (self : Expr) :
    Expr.foldUnary "-" (.int n) self = .ok (.int (-n)) := by
  simp [Expr.foldUnary, Expr.int, UnaryOperator.applySymbol, UnaryOperator.ofSymbol?, negate_int,
    Expr.wholeOf]

theorem orZero_int (n : Int) : (Value.int n).orZero = .int n := by
  by_cases zero : n = 0 <;> simp [Value.orZero, Value.truthy, zero]

theorem eval_negate {fuel : Nat} {e : Expr} {n : Int} {machine after : Machine}
    (operand : (Run.eval fuel e).exec machine = (.ok (.value (.int n)), after)) :
    (Run.eval (fuel + 1) (.unary "-" e)).exec machine = (.ok (.value (.int (-n))), after) := by
  simp [Run.eval, Run.evalWith, UnaryOperator.ofSymbol?, operand, Result.snapshot, Value.unwrap,
    negate_int, orZero_int]

namespace Tree

theorem level_pos (t : Tree) : 0 ≤ t.level := by
  cases t with
  | binary operation _ _ => cases operation <;> simp [level, Operation.level]
  | _ => simp [level]

/-- The words of a tree can be scanned. None of them is a name, so that nothing depends on what stands
after them. -/
theorem words_sound (t : Tree) : ∀ w ∈ t.words, w.wellFormed = true ∧ w.value ≠ "." ∧
    w.kind ≠ .keyword ∧ w.kind ≠ .newline ∧ w.kind ≠ .identifier := by
  induction t with
  | literal n =>
      intro w member
      obtain rfl : w = ⟨.number, n.text⟩ := by simpa [words] using member
      exact ⟨n.wellFormed_word, n.text_ne (by decide), by simp, by simp, by simp⟩
  | negate t ih =>
      intro w member
      rcases List.mem_cons.mp member with rfl | member
      · decide
      · exact Word.forall_bracketed _ (by decide) (by decide) ih w member
  | binary operation l r left right =>
      intro w member
      rcases List.mem_append.mp member with member | member
      · exact Word.forall_bracketed _ (by decide) (by decide) left w member
      · rcases List.mem_cons.mp member with rfl | member
        · cases operation <;> decide
        · exact Word.forall_bracketed _ (by decide) (by decide) right w member

theorem sentence_of_phrase (t : Tree)
    (inner : ∀ tokens, Token.Spelled tokens t.words → Reading.Phrase t.level t.expr tokens)
    (tokens : List Token) (spelled : Token.Spelled tokens t.words) : Reading.Sentence t.expr tokens :=
  .phrase (Reading.phrase_le t.level_pos (inner tokens spelled))

theorem phrase_bracketed (t : Tree) (level : Int)
    (inner : ∀ tokens, Token.Spelled tokens t.words → Reading.Phrase t.level t.expr tokens)
    {tokens : List Token} (spelled : Token.Spelled tokens (Word.bracketed (t.level < level) t.words)) :
    Reading.Phrase level t.expr tokens := by
  by_cases low : t.level < level
  · rw [decide_eq_true low] at spelled
    exact .operand (Reading.operand_bracketed (sentence_of_phrase t inner) spelled)
  · rw [decide_eq_false low] at spelled
    exact Reading.phrase_le (by omega) (inner tokens spelled)

/-- Tokens that spell the words of a tree stand for it. -/
theorem phrase_words (t : Tree) (tokens : List Token) (spelled : Token.Spelled tokens t.words) :
    Reading.Phrase t.level t.expr tokens := by
  induction t generalizing tokens with
  | literal n =>
      simp only [words, Token.spelled_cons, Token.spelled_nil] at spelled
      obtain ⟨token, -, rfl, spells, rfl⟩ := spelled
      exact .operand (n.operand spells)
  | negate t ih =>
      simp only [words, Token.spelled_cons] at spelled
      obtain ⟨token, rest, rfl, ⟨kind, value⟩, spelled⟩ := spelled
      have operand : Reading.Operand t.expr rest := by
        by_cases low : t.level < 4
        · rw [decide_eq_true low] at spelled
          exact Reading.operand_bracketed (sentence_of_phrase t ih) spelled
        · rw [decide_eq_false low] at spelled
          exact Reading.operand_of_phrase (by omega) (ih rest spelled)
      have signed := Reading.Operand.sign ⟨kind, Or.inl value⟩ operand
      rw [value] at signed
      exact .operand signed
  | binary operation l r left right =>
      simp only [words, Token.spelled_append, Token.spelled_cons] at spelled
      obtain ⟨front, -, rfl, spelledLeft, token, back, rfl, spells, spelledRight⟩ := spelled
      obtain ⟨joins, level⟩ := operation.joins_symbol spells
      have phrase := Reading.Phrase.binary joins (Int.le_refl _)
        (phrase_bracketed l _ left (by rw [level]; exact spelledLeft))
        (phrase_bracketed r _ right (by rw [level]; exact spelledRight))
      rw [level, spells.2] at phrase
      exact phrase

theorem ofTokens_words (t : Tree) (tokens : List Token) (spelled : Token.Spelled tokens t.words) :
    Expr.ofTokens tokens = .ok [t.expr] := by
  have kinds : ∀ token ∈ tokens, token.kind ≠ some .keyword ∧ token.kind ≠ some .newline ∧
      token.kind ≠ some .identifier := by
    intro token member
    obtain ⟨w, inWords, kind, -⟩ := Token.spelled_mem spelled member
    obtain ⟨-, -, notKeyword, notNewline, notName⟩ := t.words_sound w inWords
    simp [kind, notKeyword, notNewline, notName]
  refine Reading.ofTokens_sentence (t.sentence_of_phrase t.phrase_words tokens spelled) ?_ ?_
  · intro token first
    have := kinds token (List.mem_of_head? first)
    exact ⟨this.1, this.2.1⟩
  · intro token last name
    exact absurd name (kinds token (List.mem_of_getLast? last)).2.2

theorem fold_expr (t : Tree) (defined : t.Defined) :
    t.expr.fold = (.ok (.int t.value), t.expr) := by
  induction t with
  | literal n => rfl
  | negate t ih =>
      rw [expr, Expr.fold, ih defined]
      simp only [foldUnary_negate, value]
  | binary operation l r left right =>
      obtain ⟨definedLeft, definedRight, nonneg⟩ := defined
      have folded : Expr.foldBinary operation.symbol (.int l.value) (.int r.value)
          (.binary operation.symbol l.expr r.expr) =
            .ok (.int (operation.apply l.value r.value)) := by
        simp [Expr.foldBinary, Expr.operandValue, Expr.int, Value.inner?,
          operation.apply_int l.value r.value nonneg]
      rw [expr, Expr.fold, left definedLeft, right definedRight]
      simp only [folded, value]

theorem foldProgram_expr (t : Tree) (defined : t.Defined) :
    Expr.foldProgram [t.expr] = (.ok [.int t.value], [t.expr]) := by
  simp [Expr.foldProgram, Expr.foldAll, t.fold_expr defined, Except.map, Expr.spread, Expr.int]

theorem eval_expr (t : Tree) (defined : t.Defined) (fuel : Nat) (deep : t.depth < fuel)
    (machine : Machine) :
    (Run.eval fuel t.expr).exec machine = (.ok (.value (.int t.value)), machine) := by
  induction t generalizing fuel with
  | literal n =>
      obtain ⟨rest, rfl⟩ : ∃ rest, fuel = rest + 1 := ⟨fuel - 1, by omega⟩
      rfl
  | negate t ih =>
      simp only [depth] at deep
      obtain ⟨rest, rfl⟩ : ∃ rest, fuel = rest + 1 := ⟨fuel - 1, by omega⟩
      exact eval_negate (ih defined rest (by omega))
  | binary operation l r left right =>
      obtain ⟨definedLeft, definedRight, nonneg⟩ := defined
      simp only [depth] at deep
      obtain ⟨rest, rfl⟩ : ∃ rest, fuel = rest + 1 := ⟨fuel - 1, by omega⟩
      have first := left definedLeft rest (by omega)
      have second := right definedRight rest (by omega)
      simp [expr, Run.eval, Run.evalWith, first, second, Result.snapshot, Value.unwrap,
        operation.apply_int l.value r.value nonneg, orZero_int, value]

end Tree

theorem evalProgram_single {e : Expr} {n : Int} {fuel : Nat}
    (evaluated : ∀ machine, (Run.eval fuel e).exec machine = (.ok (.value (.int n)), machine))
    (machine : Machine) (scope : Scope) (verbose : Bool) (folder : Option Path) :
    (Run.evalProgram fuel [e] scope verbose folder).exec machine =
      (.ok [.value (.int n)], { machine with scope, verbose, folder }) := by
  simp [Run.evalProgram, Run.evalIn, Run.evalAll, evaluated, Result.spread]

/-- The text of a tree is scanned, from any cursor, and read as that tree alone. Folding puts the value
of the tree in its place. Evaluation gives the value, of the folded program and of the one that was
read, on any machine and in any scope. -/
theorem text_evaluates (t : Tree) (defined : t.Defined) (cursor : Cursor) :
    ∃ tokens, (Token.scan t.text cursor).1 = .ok tokens ∧
      Expr.ofTokens tokens = .ok [t.expr] ∧
      Expr.foldProgram [t.expr] = (.ok [.int t.value], [t.expr]) ∧
      ∀ (machine : Machine) (scope : Scope) (verbose : Bool) (folder : Option Path),
        (∀ fuel, 0 < fuel → (Run.evalProgram fuel [.int t.value] scope verbose folder).exec machine =
          (.ok [.value (.int t.value)], { machine with scope, verbose, folder })) ∧
        (∀ fuel, t.depth < fuel → (Run.evalProgram fuel [t.expr] scope verbose folder).exec machine =
          (.ok [.value (.int t.value)], { machine with scope, verbose, folder })) ∧
        (Run.runText t.text scope false folder).exec machine =
          (.ok [.value (.int t.value)], { machine with scope, verbose := false, folder }) := by
  have scanned : ∀ cursor, ∃ tokens, (Token.scan t.text cursor).1 = .ok tokens ∧
      Token.Spelled tokens t.words := fun cursor =>
    Token.scan_textOf t.words cursor (fun w member => (t.words_sound w member).1)
      (fun w last => (t.words_sound w (List.mem_of_getLast? last)).2.1)
  have folded := t.foldProgram_expr defined
  have literal : ∀ fuel, 0 < fuel → ∀ machine,
      (Run.eval fuel (.int t.value)).exec machine = (.ok (.value (.int t.value)), machine) := by
    intro fuel positive machine
    obtain ⟨rest, rfl⟩ : ∃ rest, fuel = rest + 1 := ⟨fuel - 1, by omega⟩
    rfl
  obtain ⟨tokens, scan, spelled⟩ := scanned cursor
  refine ⟨tokens, scan, t.ofTokens_words tokens spelled, folded, ?_⟩
  intro machine scope verbose folder
  refine ⟨fun fuel positive => evalProgram_single (literal fuel positive) machine scope verbose folder,
    fun fuel deep => evalProgram_single (t.eval_expr defined fuel deep) machine scope verbose folder, ?_⟩
  obtain ⟨tokens, scan, spelled⟩ := scanned .start
  have evaluated := evalProgram_single (literal Run.depthLimit (by decide)) machine scope false folder
  simp [Run.runText, Run.readProgram, Token.ofText, scan, t.ofTokens_words tokens spelled, folded,
    evaluated]

theorem text_evaluates_mixed : ∃ t : Tree, t.Defined ∧ t.text = "( 1 - 2 ) ^ 2 - - ( 3 + 4 ) * 5" ∧
    ∀ (machine : Machine) (scope : Scope) (folder : Option Path),
      (Run.runText "( 1 - 2 ) ^ 2 - - ( 3 + 4 ) * 5" scope false folder).exec machine =
        (.ok [.value (.int 36)], { machine with scope, verbose := false, folder }) := by
  let digit (d : Fin 10) : Tree := .literal ⟨[d], by simp, by simp [Number.digitLimit]⟩
  let t : Tree := .binary .sub (.binary .pow (.binary .sub (digit 1) (digit 2)) (digit 2))
    (.binary .mul (.negate (.binary .add (digit 3) (digit 4))) (digit 5))
  have defined : t.Defined := by
    refine ⟨⟨⟨trivial, trivial, by simp⟩, trivial, fun _ => ?_⟩, ⟨⟨trivial, trivial, by simp⟩,
      trivial, by simp⟩, by simp⟩
    decide
  have text : t.text = "( 1 - 2 ) ^ 2 - - ( 3 + 4 ) * 5" := by decide
  have value : t.value = 36 := by decide
  refine ⟨t, defined, text, ?_⟩
  intro machine scope folder
  obtain ⟨-, -, -, -, evaluated⟩ := text_evaluates t defined .start
  rw [← text, ← value]
  exact (evaluated machine scope false folder).2.2

end Scriptlet.Arithmetic
