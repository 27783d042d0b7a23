import Scriptlet.Proofs.Expr.Seam
import Scriptlet.Proofs.Token.RoundTrip

set_option autoImplicit false

/-!
What a newline or a semicolon divides. The separator after a statement may be taken by an operand inside
of it, so that the statement goes on with the operators that follow; or the statement may want another
one. Whether a list of statements stops at a separator is seen from what is read if a number or a signed
number comes next: it is read as a statement of its own only if its tokens were left for it.
-/

namespace Scriptlet.Reading

theorem blank_dropNewlines (tokens : List Token) :
    ∃ blank, Blank blank ∧ tokens = blank ++ dropNewlines none tokens := by
  induction tokens with
  | nil => exact ⟨[], by simp [Blank], rfl⟩
  | cons t tokens ih =>
      by_cases newline : t.kind = some .newline
      · obtain ⟨blank, newlines, same⟩ := ih
        refine ⟨t :: blank, ?_, ?_⟩
        · simpa [Blank, newline] using newlines
        · have dropped : dropNewlines none (t :: tokens) = dropNewlines none tokens := by
            simp [dropNewlines, newline]
          rw [dropped, List.cons_append, ← same]
      · exact ⟨[], by simp [Blank], by rw [dropNewlines_cons tokens none newline]; rfl⟩

section Results

variable {tokens rest : List Token} {e : Expr}

theorem path_result {name : Option String} {parents : List (Option String)}
    (reads : Reads (.path name parents) tokens e rest) : ∃ parents name, e = .module parents name := by
  induction length : tokens.length using Nat.strongRecOn generalizing tokens name parents with
  | ind n ih =>
      obtain ⟨symbols, production, steps⟩ := reads_iff.mp reads
      cases production with
      | pathOther => exact ⟨_, _, rfl⟩
      | pathEnd => exact ⟨_, _, rfl⟩
      | pathLast => exact ⟨_, _, rfl⟩
      | pathStop => exact ⟨_, _, rfl⟩
      | pathMore =>
          simp only [derives_token, derives_ahead] at steps
          obtain ⟨left, rfl, _, _, _, _, further⟩ := steps
          exact ih left.length (by rw [← length, List.length_cons]; omega) further rfl

/-- Operators give back the left operand, or an operation. -/
theorem operators_result {least : Int} {l : Expr} (reads : Reads (.operators least l) tokens e rest) :
    (e = l ∧ (tokens = rest ∨ ∃ t, tokens = t :: rest ∧ t.kind = some .semicolon)) ∨
      (∃ o x y, e = .binary o x y) ∨ ∃ o x, e = .unary (o ++ ":post") x := by
  induction length : tokens.length using Nat.strongRecOn generalizing tokens l with
  | ind n ih =>
      obtain ⟨symbols, production, steps⟩ := reads_iff.mp reads
      cases production with
      | operatorsStop =>
          simp only [Symbol.endOr, derives_look, derives_nil] at steps
          exact .inl ⟨rfl, .inl steps.2⟩
      | operatorsEnd last =>
          simp only [derives_token, derives_nil] at steps
          obtain ⟨_, rfl, rfl⟩ := steps
          exact .inl ⟨rfl, .inr ⟨_, rfl, last⟩⟩
      | post => exact .inr (.inr ⟨_, _, rfl⟩)
      | binary =>
          simp only [derives_token, derives_part, derives_nil] at steps
          obtain ⟨left, rfl, middle, right, _, further, rfl⟩ := steps
          have shorter := right.suffix.length_le
          rcases ih middle.length (by rw [← length, List.length_cons]; omega) further rfl with
            ⟨rfl, -⟩ | operation
          · exact .inr (.inl ⟨_, _, _, rfl⟩)
          · exact .inr operation

/-- The last token that is taken is a closing bracket or a semicolon. -/
def EndsTaking (tokens rest : List Token) : Prop :=
  ∃ front last, tokens = front ++ last :: rest ∧
    (last.kind = some .rparen ∨ last.kind = some .semicolon)

theorem assignment_result {binding : Option String} {name : String}
    (reads : Reads (.assignment binding name) tokens e rest) : ∃ v, e = .assign binding name v := by
  obtain ⟨symbols, production, -⟩ := reads_iff.mp reads
  cases production <;> exact ⟨_, rfl⟩

theorem conditional_result (reads : Reads .conditional tokens e rest) :
    ∃ keyword condition body otherwise, e = .conditional keyword condition body otherwise := by
  obtain ⟨symbols, production, -⟩ := reads_iff.mp reads
  cases production <;> exact ⟨_, _, _, _, rfl⟩

theorem numberOf_result {text : String} (value : numberOf text = .ok e) :
    (∃ x, e = .float x) ∨ ∃ n, e = .int n := by
  unfold numberOf at value
  split at value
  · obtain ⟨x, -, rfl⟩ := Fault.map_eq_ok.mp value
    exact .inl ⟨x, rfl⟩
  · obtain ⟨n, -, rfl⟩ := Fault.map_eq_ok.mp value
    exact .inr ⟨n, rfl⟩

theorem usage_result {name : String} (reads : Reads (.usage name) tokens e rest) :
    e = .ident name ∨ (∃ index, e = .property name index) ∨ (∃ args, e = .call name args) ∨
      ∃ v, e = .assign none name v := by
  obtain ⟨symbols, production, steps⟩ := reads_iff.mp reads
  cases production with
  | itself => exact .inl rfl
  | property => exact .inr (.inl ⟨_, rfl⟩)
  | call => exact .inr (.inr (.inl ⟨_, rfl⟩))
  | reassigns =>
      simp only [derives_token, derives_part] at steps
      obtain ⟨_, -, _, assignment, -⟩ := steps
      exact .inr (.inr (.inr (assignment_result assignment)))

/-- The expressions of the probes: a number, or one with a minus sign. -/
inductive Simple : Expr → Prop
  | number (k : Int) : Simple (.int k)
  | minus (k : Int) : Simple (.unary "-" (.int k))

theorem statement_simple (simple : Simple e) {t : Token}
    (reads : Reads .statement (t :: tokens) e rest) :
    Reads (.expression 0) (t :: tokens) e rest := by
  obtain ⟨symbols, production, steps⟩ := reads_iff.mp reads
  cases production with
  | nothing => cases simple
  | expression =>
      simp only [derives_ahead, derives_part, derives_nil] at steps
      obtain ⟨_, _, -, -, _, value, rfl⟩ := steps
      exact value
  | imports =>
      simp only [derives_token, derives_part] at steps
      obtain ⟨_, -, _, path, -⟩ := steps
      obtain ⟨parents, name, rfl⟩ := path_result path
      cases simple
  | defines =>
      simp only [derives_token, derives_part] at steps
      obtain ⟨_, -, _, -, _, -, _, assignment, -⟩ := steps
      obtain ⟨v, rfl⟩ := assignment_result assignment
      cases simple
  | branches =>
      simp only [derives_ahead, derives_part] at steps
      obtain ⟨_, _, -, -, _, conditional, -⟩ := steps
      obtain ⟨_, _, _, _, rfl⟩ := conditional_result conditional
      cases simple
  | undefined => cases simple
  | function => cases simple
  | returnsNothing => cases simple
  | returnsLine => cases simple
  | returnsValue => cases simple

theorem expression_simple (simple : Simple e) (reads : Reads (.expression 0) tokens e rest) :
    Reads .operand tokens e rest ∨ EndsTaking tokens rest := by
  obtain ⟨symbols, production, steps⟩ := reads_iff.mp reads
  cases production with
  | climbs =>
      simp only [derives_part, derives_nil] at steps
      obtain ⟨left, operand, _, operators, rfl⟩ := steps
      rcases operators_result operators with ⟨rfl, rfl | ⟨t, rfl, kind⟩⟩ | ⟨_, _, _, rfl⟩ | ⟨o, x, same⟩
      · exact .inl operand
      · obtain ⟨front, rfl⟩ := operand.suffix
        exact .inr ⟨front, t, rfl, .inr kind⟩
      · cases simple
      · cases simple with
        | number k => cases same
        | minus k =>
            have lengths := congrArg String.length (Expr.unary.inj same).1
            simp only [String.length_append] at lengths
            have : ":post".length = 5 := rfl
            have : "-".length = 1 := rfl
            omega

theorem endsTaking_group {first last : Token} {left : List Token}
    (dropped : dropNewlines none tokens = first :: left) (suffix : last :: rest <:+ left)
    (closes : last.kind = some .rparen) : EndsTaking tokens rest := by
  obtain ⟨inside, rfl⟩ := suffix
  obtain ⟨blank, -, same⟩ := blank_dropNewlines tokens
  rw [dropped] at same
  exact ⟨blank ++ first :: inside, last, by simpa using same, .inl closes⟩

/-- A number is one token, or it stands in brackets. -/
theorem operand_number {k : Int} (reads : Reads .operand tokens (.int k) rest) :
    (∃ t, dropNewlines none tokens = [t] ++ rest ∧ t.kind = some .number) ∨ EndsTaking tokens rest := by
  obtain ⟨symbols, production, steps⟩ := reads_iff.mp reads
  generalize int : Expr.int k = e at production
  cases production with
  | number kind =>
      simp only [derives_newlines, derives_token, derives_nil] at steps
      obtain ⟨_, dropped, rfl⟩ := steps
      exact .inl ⟨_, dropped, kind⟩
  | group opens closes =>
      simp only [derives_newlines, derives_token, derives_part, derives_nil] at steps
      obtain ⟨left, dropped, _, inner, _, rfl, rfl⟩ := steps
      exact .inr (endsTaking_group dropped inner.suffix closes)
  | name =>
      simp only [derives_newlines, derives_token, derives_part] at steps
      obtain ⟨_, -, _, usage, -⟩ := steps
      rcases usage_result usage with rfl | ⟨_, rfl⟩ | ⟨_, rfl⟩ | ⟨_, rfl⟩ <;> cases int
  | noOperand => cases int
  | sign => cases int
  | double => cases int
  | object => cases int
  | string => cases int
  | truth => cases int
  | keywordCall => cases int

/-- A number with a minus sign has the sign before it, or it stands in brackets. -/
theorem operand_minus {k : Int} (reads : Reads .operand tokens (.unary "-" (.int k)) rest) :
    (∃ t left, dropNewlines none tokens = t :: left ∧ Reads .operand left (.int k) rest) ∨
      EndsTaking tokens rest := by
  obtain ⟨symbols, production, steps⟩ := reads_iff.mp reads
  generalize minus : Expr.unary "-" (.int k) = e at production
  cases production with
  | sign =>
      obtain ⟨-, rfl⟩ := Expr.unary.inj minus
      simp only [derives_newlines, derives_token, derives_part, derives_nil] at steps
      obtain ⟨left, dropped, _, operand, rfl⟩ := steps
      exact .inl ⟨_, left, dropped, operand⟩
  | double unary unsigned =>
      obtain ⟨value, -⟩ := Expr.unary.inj minus
      exact absurd (.inl value.symm) unsigned
  | group opens closes =>
      simp only [derives_newlines, derives_token, derives_part, derives_nil] at steps
      obtain ⟨left, dropped, _, inner, _, rfl, rfl⟩ := steps
      exact .inr (endsTaking_group dropped inner.suffix closes)
  | number kind plain value =>
      rcases numberOf_result value with ⟨x, rfl⟩ | ⟨n, rfl⟩ <;> cases minus
  | name =>
      simp only [derives_newlines, derives_token, derives_part] at steps
      obtain ⟨_, -, _, usage, -⟩ := steps
      rcases usage_result usage with rfl | ⟨_, rfl⟩ | ⟨_, rfl⟩ | ⟨_, rfl⟩ <;> cases minus
  | noOperand => cases minus
  | object => cases minus
  | string => cases minus
  | truth => cases minus
  | keywordCall => cases minus

end Results

section Probing

variable {front rest : List Token} {s m : Token} {program : List Expr}

theorem sequence_last {tokens : List Token} {e : Expr} (sequence : Sequence tokens [e] []) :
    ∃ t more after, Sequence tokens [] (t :: more) ∧ t.kind ≠ some .newline ∧
      Reads .statement (t :: more) e after ∧ Sequence after [] [] := by
  generalize one : [e] = program at sequence
  generalize none : [] = rest at sequence
  induction sequence with
  | nil => cases one
  | newline kind others ih =>
      obtain ⟨t, more, after, blank, found⟩ := ih one none
      exact ⟨t, more, after, .newline kind blank, found⟩
  | statement kind first others ih =>
      obtain ⟨rfl, rfl⟩ := List.cons.inj one
      subst none
      exact ⟨_, _, _, .nil, kind, first, others⟩

theorem sequence_none {tokens : List Token} (sequence : Sequence tokens [] []) : Blank tokens := by
  generalize none : ([] : List Expr) = program at sequence
  generalize whole : ([] : List Token) = rest at sequence
  induction sequence with
  | nil =>
      subst whole
      simp [Blank]
  | newline kind others ih =>
      have newlines := ih none whole
      simpa [Blank, kind] using newlines
  | statement => cases none

/-- Before a last token that is no newline, no statement is read from newlines alone. -/
theorem blank_last {xs after : List Token} (suffix : after <:+ xs ++ [m]) (newlines : Blank after)
    (kind : m.kind ≠ some .newline) : after = [] := by
  rcases List.suffix_concat_iff.mp suffix with rfl | ⟨init, rfl, -⟩
  · rfl
  · exact absurd (newlines m (by simp)) kind

theorem not_endsTaking {xs tokens : List Token} (suffix : tokens <:+ xs ++ [m])
    (number : m.kind = some .number) : ¬ EndsTaking tokens [] := by
  rintro ⟨front, last, rfl, kind⟩
  obtain ⟨-, ⟨⟩⟩ := (List.suffix_append_inj_of_length_eq (by rfl)).mp suffix
  simp [number] at kind

/-- The tokens of the last statement, if it is as simple as a probe and ends in the number `m`. -/
theorem sequence_simple {xs : List Token} {e : Expr} (simple : Simple e)
    (number : m.kind = some .number) (sequence : Sequence (xs ++ [m]) (program ++ [e]) []) :
    ∃ t more, Sequence (xs ++ [m]) program (t :: more) ∧ t.kind ≠ some .newline ∧
      Reads .operand (t :: more) e [] := by
  obtain ⟨left, first, last⟩ := sequence.split
  obtain ⟨t, more, after, blank, kind, reads, none⟩ := sequence_last last
  have before : Sequence (xs ++ [m]) program (t :: more) := by simpa using first.append blank
  obtain rfl : after = [] :=
    blank_last (reads.suffix.trans before.suffix) (sequence_none none) (by simp [number])
  refine ⟨t, more, before, kind, ?_⟩
  exact (expression_simple simple (statement_simple simple reads)).resolve_right
    (not_endsTaking before.suffix number)

theorem sequence_number {k : Int} (number : m.kind = some .number)
    (sequence : Sequence (front ++ [s, m]) (program ++ [.int k]) []) :
    Sequence (front ++ [s, m]) program [m] := by
  rw [show front ++ [s, m] = (front ++ [s]) ++ [m] by simp] at sequence ⊢
  obtain ⟨t, more, before, kind, operand⟩ := sequence_simple (.number k) number sequence
  obtain ⟨t', dropped, -⟩ := (operand_number operand).resolve_right
    (not_endsTaking before.suffix number)
  rw [dropNewlines_cons more none kind] at dropped
  rw [dropped] at before
  have suffix : [] ++ [t'] <:+ (front ++ [s]) ++ [m] := before.suffix
  obtain ⟨-, ⟨⟩⟩ := (List.suffix_append_inj_of_length_eq (by rfl)).mp suffix
  exact before

theorem sequence_minus {k : Int} {sign : Token} (isSign : sign.kind = some .operator)
    (number : m.kind = some .number)
    (sequence : Sequence (front ++ [s, sign, m]) (program ++ [.unary "-" (.int k)]) []) :
    Sequence (front ++ [s, sign, m]) program [sign, m] := by
  rw [show front ++ [s, sign, m] = (front ++ [s, sign]) ++ [m] by simp] at sequence ⊢
  obtain ⟨t, more, before, kind, operand⟩ := sequence_simple (.minus k) number sequence
  have whole := not_endsTaking before.suffix number
  obtain ⟨t', left, dropped, inner⟩ := (operand_minus operand).resolve_right whole
  rw [dropNewlines_cons more none kind] at dropped
  obtain ⟨rfl, rfl⟩ := List.cons.inj dropped
  obtain ⟨t', dropped, -⟩ := (operand_number inner).resolve_right
    (not_endsTaking ((List.suffix_cons t more).trans before.suffix) number)
  obtain ⟨blank, newlines, same⟩ := blank_dropNewlines more
  rw [dropped, List.append_nil] at same
  subst same
  have suffix : (t :: blank) ++ [t'] <:+ (front ++ [s, sign]) ++ [m] := before.suffix
  obtain ⟨signed, ⟨⟩⟩ := (List.suffix_append_inj_of_length_eq (by rfl)).mp suffix
  rw [show front ++ [s, sign] = (front ++ [s]) ++ [sign] by simp] at signed
  -- all tokens but the last are the sign, since what stands between the sign and the number is newlines
  obtain ⟨init, same, -⟩ := (List.suffix_concat_iff.mp signed).resolve_left (by simp)
  cases init with
  | nil =>
      obtain ⟨rfl, rfl⟩ := List.cons.inj same
      exact before
  | cons t init =>
      obtain ⟨rfl, rfl⟩ := List.cons.inj same
      have newline := newlines sign (by simp)
      simp [isSign] at newline

end Probing

section Heads

variable {t : Token} {tokens rest : List Token} {e : Expr}

theorem derives_first {u : Token} {symbols : List Symbol} (kind : t.kind ≠ some .newline)
    (steps : Derives (.newlines none :: .token u :: symbols) (t :: tokens) rest) : u = t := by
  simp only [derives_newlines, dropNewlines_cons tokens none kind, derives_token] at steps
  obtain ⟨_, same, -⟩ := steps
  exact (List.cons.inj same).1.symm

/-- An operand begins with an operator only if this is one that may stand before its operand. -/
theorem operand_head (kind : t.kind ≠ some .newline) (reads : Reads .operand (t :: tokens) e rest) :
    isUnary t = true ∨ t.kind ≠ some .operator ∧ t.kind ≠ some .semicolon := by
  obtain ⟨symbols, production, steps⟩ := reads_iff.mp reads
  cases production with
  | noOperand =>
      simp [derives_newlines, dropNewlines_cons tokens none kind, Symbol.finish, derives_look] at steps
  | sign unary => exact .inl (derives_first kind steps ▸ unary)
  | double unary => exact .inl (derives_first kind steps ▸ unary)
  | group opens => exact .inr (by simp [← derives_first kind steps, opens.1])
  | object opens => exact .inr (by simp [← derives_first kind steps, opens.1])
  | number number => exact .inr (by simp [← derives_first kind steps, number])
  | string string => exact .inr (by simp [← derives_first kind steps, string])
  | name name => exact .inr (by simp [← derives_first kind steps, name])
  | truth keyword => exact .inr (by simp [← derives_first kind steps, keyword])
  | keywordCall keyword => exact .inr (by simp [← derives_first kind steps, keyword])

/-- A statement begins with a keyword that is none of a further branch, or with an operand. -/
theorem statement_head (kind : t.kind ≠ some .newline)
    (reads : Reads .statement (t :: tokens) e rest) :
    ¬ Branches t ∧ (isUnary t = true ∨ t.kind ≠ some .operator ∧ t.kind ≠ some .semicolon) := by
  obtain ⟨symbols, production, steps⟩ := reads_iff.mp reads
  have keyword {u : Token} {others : List Symbol}
      (steps : Derives (.token u :: others) (t :: tokens) rest) (isKeyword : u.kind = some .keyword)
      (other : u.value ≠ "elseif" ∧ u.value ≠ "else") :
      ¬ Branches t ∧ (isUnary t = true ∨ t.kind ≠ some .operator ∧ t.kind ≠ some .semicolon) := by
    obtain ⟨_, same, -⟩ := derives_token.mp steps
    obtain ⟨rfl, -⟩ := List.cons.inj same
    exact ⟨fun branches => by simpa [other] using branches.2, .inr (by simp [isKeyword])⟩
  cases production with
  | nothing => simp [Symbol.finish, derives_look] at steps
  | expression =>
      simp only [derives_ahead, derives_part, derives_nil] at steps
      obtain ⟨_, _, same, other, _, value, rfl⟩ := steps
      obtain ⟨rfl, rfl⟩ := List.cons.inj same
      obtain ⟨_, climbs, inner⟩ := reads_iff.mp value
      cases climbs with
      | climbs =>
          obtain ⟨_, operand, -⟩ := derives_part.mp inner
          exact ⟨fun branches => other branches.1, operand_head kind operand⟩
  | branches =>
      obtain ⟨_, _, same, word, -⟩ := derives_ahead.mp steps
      obtain ⟨rfl, rfl⟩ := List.cons.inj same
      exact ⟨fun branches => by simpa [word.2] using branches.2, .inr (by simp [word.1])⟩
  | imports word => exact keyword steps word.1 (by simp [word.2])
  | defines binds => exact keyword steps binds.1 (by rcases binds.2 with h | h <;> simp [h])
  | undefined binds => exact keyword steps binds.1 (by rcases binds.2 with h | h <;> simp [h])
  | function word => exact keyword steps word.1 (by simp [word.2])
  | returnsNothing word => exact keyword steps word.1 (by simp [word.2])
  | returnsLine word => exact keyword steps word.1 (by simp [word.2])
  | returnsValue word => exact keyword steps word.1 (by simp [word.2])

/-- Statements made by the scanner begin alike to a minus sign, and alike to a number unless they
begin with an operator. -/
theorem alike_of_sequence {m : Token} {program : List Expr} (sequence : Sequence tokens program [])
    (first : ∀ t, tokens.head? = some t → t.kind ≠ some .newline)
    (spelled : ∀ t, tokens.head? = some t → ∃ w : Word, t.Spells w ∧ w.wellFormed = true)
    (sign : m.kind = some .operator ∧ m.value = "-" ∨
      ∀ t, tokens.head? = some t → t.kind ≠ some .operator) : Alike m tokens := by
  intro t head
  cases sequence with
  | nil => cases head
  | newline kind => exact absurd kind (first _ rfl)
  | @statement u tokens left rest e program kind reads others =>
      obtain rfl : u = t := by simpa using head
      obtain ⟨branches, begins⟩ := statement_head kind reads
      refine ⟨kind, ?_, branches, fun operator => ?_⟩
      · intro semicolon
        obtain ⟨w, ⟨isKind, isValue⟩, wellFormed⟩ := spelled u rfl
        have same : w.kind = .semicolon := by simpa [semicolon] using isKind.symm
        have value : u.value = ";" := by simpa [isValue, Word.wellFormed, same] using wellFormed
        have unary : isUnary u = true := begins.resolve_right fun other => other.2 semicolon
        simp [isUnary, value] at unary
      · have unary : isUnary u = true := begins.resolve_right fun other => other.1 operator
        obtain ⟨isOperator, minus⟩ := sign.resolve_right fun none => none u rfl operator
        have value : u.value = "-" ∨ u.value = "+" ∨ u.value = "++" ∨ u.value = "--" ∨
            u.value = "!" := by
          simpa [isUnary, operator] using unary
        refine ⟨isOperator, ?_⟩
        rcases value with h | h | h | h | h <;> simp [precedence, h, minus]

end Heads

section Separators

variable {front back rest : List Token} {s m : Token} {p q : List Expr}

theorem Sequence.divided (probes : Probes m) (ends : Terminates s)
    (probed : Sequence (front ++ s :: m :: rest) p (m :: rest)) (others : Sequence back q [])
    (alike : Alike m (dropNewlines none back)) : Sequence (front ++ s :: back) (p ++ q) [] := by
  obtain ⟨blank, newlines, same⟩ := blank_dropNewlines back
  rw [same] at others ⊢
  obtain ⟨kept, suffix, first⟩ := probed.seam probes alike ends rfl newlines front rfl
  refine first.append ((sequence_blank (blank_suffix newlines suffix)).mpr ?_)
  exact (sequence_blank newlines).mp others

end Separators

/-- If both lists of tokens are programs, then with the separator between them they are the program of
all their statements. -/
def Divides (front : List Token) (s : Token) (back : List Token) : Prop :=
  ∀ p q, Expr.ofTokens front = .ok p → Expr.ofTokens back = .ok q →
    Expr.ofTokens (front ++ s :: back) = .ok (p ++ q)

/-- The separator divides the tokens from those of the text. -/
def DividesText (front : List Token) (s : Token) (text : String) : Prop :=
  ∀ back, Token.ofText text = .ok back → Divides front s back

/-- The first token of the text that is no newline is no operator. -/
def Unsigned (text : String) : Prop :=
  ∀ back, Token.ofText text = .ok back →
    ∀ t, (dropNewlines none back).head? = some t → t.kind ≠ some .operator

theorem ofText_zero : Token.ofText "0" = .ok [⟨some .number, "0", 1, 1⟩] := by decide +kernel

theorem ofText_minus :
    Token.ofText "-0" = .ok [⟨some .operator, "-", 1, 1⟩, ⟨some .number, "0", 1, 2⟩] := by
  decide +kernel

section Probed

variable {front back : List Token} {s : Token} {p : List Expr}

theorem dropNewlines_head (tokens : List Token) {t : Token}
    (first : (dropNewlines none tokens).head? = some t) : t.kind ≠ some .newline := by
  induction tokens with
  | nil => cases first
  | cons u tokens ih =>
      by_cases newline : u.kind = some .newline
      · have dropped : dropNewlines none (u :: tokens) = dropNewlines none tokens := by
          simp [dropNewlines, newline]
        exact ih (dropped ▸ first)
      · rw [dropNewlines_cons tokens none newline] at first
        obtain rfl : u = t := by simpa using first
        exact newline

theorem spelled_head {text : String} (scanned : Token.ofText text = .ok back) {t : Token}
    (first : (dropNewlines none back).head? = some t) :
    ∃ w : Word, t.Spells w ∧ w.wellFormed = true := by
  obtain ⟨words, spelled, wellFormed⟩ :=
    (Token.scanned_of_scanFrom (Prod.ext scanned rfl)).wellFormed
  have member : t ∈ back := (dropNewlines_suffix none back).subset (List.mem_of_head? first)
  obtain ⟨w, inWords, spells⟩ := Token.spelled_mem spelled member
  exact ⟨w, spells, wellFormed w inWords⟩

/-- Statements that stop at the mark after a separator stop there before every text alike. -/
theorem ofTokens_of_stops {m : Token} {rest : List Token} {q : List Expr} (probes : Probes m)
    (ends : Terminates s) (stops : Sequence (front ++ s :: m :: rest) p (m :: rest)) {text : String}
    (scanned : Token.ofText text = .ok back) (read : Expr.ofTokens back = .ok q)
    (sign : m.kind = some .operator ∧ m.value = "-" ∨
      ∀ t, (dropNewlines none back).head? = some t → t.kind ≠ some .operator) :
    Expr.ofTokens (front ++ s :: back) = .ok (p ++ q) := by
  rw [ofTokens_ok_iff] at read ⊢
  refine stops.divided probes ends read ?_
  obtain ⟨blank, newlines, same⟩ := blank_dropNewlines back
  rw [same] at read
  exact alike_of_sequence ((sequence_blank newlines).mp read) (fun _ => dropNewlines_head back)
    (fun _ => spelled_head scanned) sign

/-- A separator divides from every program if it does from `-0`, and from every program that does not
begin with an operator if it does from `0`. -/
theorem dividesText_iff (front : List Token) (ends : Terminates s) :
    ((∀ text, DividesText front s text) ↔ DividesText front s "-0") ∧
    ((∀ text, Unsigned text → DividesText front s text) ↔ DividesText front s "0") := by
  refine ⟨⟨fun all => all "-0", ?_⟩, ⟨fun all => all "0" ?_, ?_⟩⟩
  · intro minus text back scanned p q accepted read
    have probe := ofTokens_ok_iff.mp (minus _ ofText_minus p [.unary "-" (.int 0)] accepted rfl)
    exact ofTokens_of_stops (.inr ⟨rfl, rfl⟩) ends (sequence_minus rfl rfl probe) scanned read
      (.inl ⟨rfl, rfl⟩)
  · intro back scanned t first
    obtain rfl := Except.ok.inj (ofText_zero.symm.trans scanned)
    obtain rfl : ⟨some .number, "0", 1, 1⟩ = t := by simpa [dropNewlines] using first
    simp
  · intro zero text unsigned back scanned p q accepted read
    have probe := ofTokens_ok_iff.mp (zero _ ofText_zero p [.int 0] accepted rfl)
    exact ofTokens_of_stops (.inl ⟨rfl, rfl⟩) ends (sequence_number rfl probe) scanned read
      (.inr (unsigned back scanned))

end Probed

/-- The tokens of `1 + 2`. -/
def sumTokens : List Token :=
  [⟨some .number, "1", 1, 1⟩, ⟨some .operator, "+", 1, 3⟩, ⟨some .number, "2", 1, 5⟩]

def newlineToken : Token := ⟨some .newline, "newline", 1, 6⟩

def semicolonToken : Token := ⟨some .semicolon, ";", 1, 6⟩

/-- The newline after a sum divides it from every text. The semicolon is taken with the right operand,
and a sign after it goes on with the sum. -/
theorem dividesText_sum :
    (∀ text, DividesText sumTokens newlineToken text) ∧
    (∀ text, Unsigned text → DividesText sumTokens semicolonToken text) ∧
      ¬ ∀ text, DividesText sumTokens semicolonToken text := by
  have read : Expr.ofTokens sumTokens = .ok [.binary "+" (.int 1) (.int 2)] := rfl
  have zero : Expr.ofTokens [⟨some .number, "0", 1, 1⟩] = .ok [.int 0] := rfl
  have minus : Expr.ofTokens [⟨some .operator, "-", 1, 1⟩, ⟨some .number, "0", 1, 2⟩] =
      .ok [.unary "-" (.int 0)] := rfl
  obtain ⟨lines, -⟩ := dividesText_iff sumTokens (.inl rfl : Terminates newlineToken)
  obtain ⟨all, unsigned⟩ := dividesText_iff sumTokens (.inr rfl : Terminates semicolonToken)
  rw [lines, unsigned, all]
  refine ⟨?_, ?_, ?_⟩
  · intro back scanned p q accepted others
    obtain rfl := Except.ok.inj (ofText_minus.symm.trans scanned)
    obtain rfl := Except.ok.inj (read.symm.trans accepted)
    obtain rfl := Except.ok.inj (minus.symm.trans others)
    rfl
  · intro back scanned p q accepted others
    obtain rfl := Except.ok.inj (ofText_zero.symm.trans scanned)
    obtain rfl := Except.ok.inj (read.symm.trans accepted)
    obtain rfl := Except.ok.inj (zero.symm.trans others)
    rfl
  · intro divides
    have joined : Expr.ofTokens (sumTokens ++ semicolonToken :: [⟨some .operator, "-", 1, 1⟩,
        ⟨some .number, "0", 1, 2⟩]) = .ok [.binary "-" (.binary "+" (.int 1) (.int 2)) (.int 0)] := rfl
    have divided := divides _ ofText_minus _ _ read minus
    have lengths := congrArg List.length (Except.ok.inj (joined.symm.trans divided))
    simp at lengths

theorem semicolon_joins_signed :
    ¬ ∀ (source text : String) (front back : List Token) (s : Token),
      Token.ofText source = .ok front → Token.ofText text = .ok back →
      s.kind = some .newline ∨ s.kind = some .semicolon → Divides front s back := by
  intro divides
  have scanned : Token.ofText "1 + 2" = .ok sumTokens := by decide +kernel
  have signed : Token.ofText "-3" =
      .ok [⟨some .operator, "-", 1, 1⟩, ⟨some .number, "3", 1, 2⟩] := by decide +kernel
  have joined : Expr.ofTokens (sumTokens ++ semicolonToken :: [⟨some .operator, "-", 1, 1⟩,
      ⟨some .number, "3", 1, 2⟩]) = .ok [.binary "-" (.binary "+" (.int 1) (.int 2)) (.int 3)] := rfl
  have divided := divides _ _ _ _ semicolonToken scanned signed (.inr rfl)
    [.binary "+" (.int 1) (.int 2)] [.unary "-" (.int 3)] rfl rfl
  have lengths := congrArg List.length (Except.ok.inj (joined.symm.trans divided))
  simp at lengths

end Scriptlet.Reading
