import Scriptlet.Proofs.Number.Numeral

set_option autoImplicit false

/-!
Expressions as they are written. A term is an expression with the choices that its text leaves open: the
digits of its numbers, the separators between arguments, and brackets that are not needed. Operands that
are not primary stand in brackets, and so does every truth value, because a keyword cannot begin an
argument or a statement. Tokens that spell a term stand for its expression.
-/

namespace Scriptlet.Source

/-- A name that is not a keyword. -/
structure Name where
  text : String
  wellFormed : Word.wellFormed ⟨.identifier, text⟩ = true

/-- A string by itself. One that holds a bracket alone is taken for that bracket and is left out. -/
structure Literal where
  text : String
  notBracket : text ∉ ["(", ")", "\x7b", "\x7d"]

inductive Sign
  | minus
  | plus
  | not
deriving Repr, DecidableEq

def Sign.symbol : Sign → String
  | minus => "-"
  | plus => "+"
  | not => "!"

inductive Double
  | increment
  | decrement
deriving Repr, DecidableEq

def Double.symbol : Double → String
  | increment => "++"
  | decrement => "--"

/-- An operator between two operands. Points, equals signs and doubled signs have other uses. -/
structure Connective where
  symbol : String
  known : symbol ∈ operators
  between : symbol ∉ [".", "=", "++", "--"]

inductive Separator
  | comma
  | newline
deriving Repr, DecidableEq

mutual

inductive Term
  | number (n : Number.Numeral)
  | string (s : Literal)
  | truth (b : Bool)
  | name (x : Name)
  | call (f : Name) (args : Arguments)
  | sign (s : Sign) (operand : Term)
  | before (d : Double) (operand : Term)
  | after (d : Double) (operand : Term)
  | binary (c : Connective) (left right : Term)
  | group (inner : Term)

/-- The arguments of a call. There may be a separator after the last one. -/
inductive Arguments
  | none
  | last (t : Term)
  | more (t : Term) (s : Separator) (rest : Arguments)

end

def Name.word (x : Name) : Word := ⟨.identifier, x.text⟩

def Separator.word : Separator → Word
  | comma => ⟨.comma, ","⟩
  | newline => ⟨.newline, "newline"⟩

def truthWord (b : Bool) : String := if b then "true" else "false"

mutual

def Term.expr : Term → Expr
  | .number n => .int n.value
  | .string s => .str s.text
  | .truth b => .literal .boolean (.str (truthWord b))
  | .name x => .ident x.text
  | .call f args => .call f.text args.exprs
  | .sign s t => .unary s.symbol t.expr
  | .before d t => .unary d.symbol t.expr
  | .after d t => .unary (d.symbol ++ ":post") t.expr
  | .binary c l r => .binary c.symbol l.expr r.expr
  | .group t => t.expr

def Arguments.exprs : Arguments → List Expr
  | .none => []
  | .last t => [t.expr]
  | .more t _ rest => t.expr :: rest.exprs

end

/-- A term that can be an operand as it stands. -/
def Term.isPrimary : Term → Bool
  | .number _ | .string _ | .truth _ | .name _ | .call .. | .group _ => true
  | _ => false

mutual

def Term.words : Term → List Word
  | .number n => [⟨.number, n.text⟩]
  | .string s => [⟨.string, s.text⟩]
  | .truth b => Word.bracketed true [⟨.keyword, truthWord b⟩]
  | .name x => [x.word]
  | .call f args => f.word :: ⟨.lparen, "("⟩ :: args.words
  | .sign s t => ⟨.operator, s.symbol⟩ :: Word.bracketed (!t.isPrimary) t.words
  | .before d t => ⟨.operator, d.symbol⟩ :: Word.bracketed (!t.isPrimary) t.words
  | .after d t => Word.bracketed (!t.isPrimary) t.words ++ [⟨.operator, d.symbol⟩]
  | .binary c l r =>
    Word.bracketed (!l.isPrimary) l.words ++
      ⟨.operator, c.symbol⟩ :: Word.bracketed (!r.isPrimary) r.words
  | .group t => Word.bracketed true t.words

/-- The words of arguments, with the closing bracket. -/
def Arguments.words : Arguments → List Word
  | .none => [⟨.rparen, ")"⟩]
  | .last t => t.words ++ [⟨.rparen, ")"⟩]
  | .more t s rest => t.words ++ s.word :: rest.words

end

/-- The words of a term as an operand. -/
def Term.operandWords (t : Term) : List Word := Word.bracketed (!t.isPrimary) t.words

theorem Name.text_ne (x : Name) {s : String} (other : Word.isName s.toList = false) : x.text ≠ s := by
  rintro rfl
  have named := x.wellFormed
  simp [Word.wellFormed, other] at named

theorem Name.plain (x : Name) {t : Token} (spells : t.Spells x.word) : Reading.Plain t := by
  obtain ⟨-, value⟩ := spells
  have other : ∀ s : String, Word.isName s.toList = false → t.value ≠ s := by
    intro s outside
    rw [value]
    exact x.text_ne outside
  refine ⟨?_, other _ (by decide), other _ (by decide)⟩
  simp [Reading.isUnary, other "-" (by decide), other "+" (by decide), other "++" (by decide),
    other "--" (by decide), other "!" (by decide)]

theorem Literal.plain (s : Literal) {t : Token} (spells : t.Spells ⟨.string, s.text⟩) :
    Reading.Plain t := by
  obtain ⟨kind, value⟩ := spells
  obtain ⟨opens, -, braces, -⟩ : s.text ≠ "(" ∧ s.text ≠ ")" ∧ s.text ≠ "\x7b" ∧ s.text ≠ "\x7d" := by
    simpa using s.notBracket
  refine ⟨by simp [Reading.isUnary, kind], ?_, ?_⟩
  · rw [value]
    exact opens
  · rw [value]
    exact braces

theorem Connective.joins (c : Connective) {t : Token} (spells : t.Spells ⟨.operator, c.symbol⟩) :
    Reading.Joins t := by
  obtain ⟨kind, value⟩ := spells
  obtain ⟨point, equals, increment, decrement⟩ :
      c.symbol ≠ "." ∧ c.symbol ≠ "=" ∧ c.symbol ≠ "++" ∧ c.symbol ≠ "--" := by
    simpa using c.between
  have other : ∀ s : String, s ∉ operators → c.symbol ≠ s := by
    rintro s unknown rfl
    exact unknown c.known
  refine ⟨kind, ?_, by rw [value]; exact point, by rw [value]; exact other _ (by decide)⟩
  simp [Reading.isLeftAssociative, kind, value, equals, increment, decrement,
    other "+=" (by decide), other "-=" (by decide)]

theorem Sign.signs (s : Sign) {t : Token} (spells : t.Spells ⟨.operator, s.symbol⟩) :
    Reading.Signs t := by
  obtain ⟨kind, value⟩ := spells
  refine ⟨kind, ?_⟩
  rw [value]
  cases s <;> simp [symbol]

theorem Double.doubles (d : Double) {t : Token} (spells : t.Spells ⟨.operator, d.symbol⟩) :
    Reading.Doubles t := by
  obtain ⟨kind, value⟩ := spells
  refine ⟨kind, ?_⟩
  rw [value]
  cases d <;> simp [symbol]

theorem Separator.separates (s : Separator) {t : Token} (spells : t.Spells s.word) :
    Reading.Separates t := by
  cases s with
  | comma => exact Or.inl spells
  | newline => exact Or.inr spells

/-- The kinds of words that an operand begins with. -/
def operandKinds : List TokenKind := [.number, .string, .identifier, .lparen]

/-- A word that an operand begins with. -/
def Begins (w : Word) : Prop := w.kind ∈ operandKinds ∧ w.value ≠ ")" ∧ w.value ≠ "\x7d"

theorem Name.begins (x : Name) : Begins x.word :=
  ⟨by simp [word, operandKinds], x.text_ne (by decide), x.text_ne (by decide)⟩

theorem primary_begins {t : Term} (primary : t.isPrimary = true) :
    ∃ w rest, t.words = w :: rest ∧ Begins w := by
  have opens : Begins ⟨.lparen, "("⟩ := by simp [Begins, operandKinds]
  cases t with
  | number n => exact ⟨_, [], rfl, by simp [operandKinds], n.text_ne (by decide), n.text_ne (by decide)⟩
  | string s =>
      have notBracket := s.notBracket
      simp only [List.mem_cons, List.not_mem_nil, or_false, not_or] at notBracket
      exact ⟨_, [], rfl, by simp [operandKinds], notBracket.2.1, notBracket.2.2.2⟩
  | truth b => exact ⟨_, _, rfl, opens⟩
  | name x => exact ⟨_, [], rfl, x.begins⟩
  | call f args => exact ⟨_, _, rfl, f.begins⟩
  | group t => exact ⟨_, _, rfl, opens⟩
  | _ => cases primary

theorem operand_begins (t : Term) : ∃ w rest, t.operandWords = w :: rest ∧ Begins w := by
  unfold Term.operandWords
  cases primary : t.isPrimary with
  | true => exact primary_begins primary
  | false => exact ⟨_, _, rfl, by simp [Begins, operandKinds]⟩

/-- A term begins like an operand or with an operator. -/
theorem term_begins (t : Term) : ∃ w rest, t.words = w :: rest ∧
    w.kind ∈ .operator :: operandKinds ∧ w.value ≠ ")" := by
  have weaker : ∀ w, Begins w → w.kind ∈ .operator :: operandKinds ∧ w.value ≠ ")" := by
    rintro w ⟨kind, closing, -⟩
    exact ⟨List.mem_cons_of_mem _ kind, closing⟩
  have extended : ∀ (l : Term) (more : List Word), ∃ w rest, l.operandWords ++ more = w :: rest ∧
      w.kind ∈ .operator :: operandKinds ∧ w.value ≠ ")" := by
    intro l more
    obtain ⟨w, rest, same, begins⟩ := operand_begins l
    exact ⟨w, rest ++ more, by rw [same, List.cons_append], weaker w begins⟩
  cases primary : t.isPrimary with
  | true =>
      obtain ⟨w, rest, same, begins⟩ := primary_begins primary
      exact ⟨w, rest, same, weaker w begins⟩
  | false =>
      cases t with
      | sign s t => exact ⟨_, _, rfl, by simp, by cases s <;> simp [Sign.symbol]⟩
      | before d t => exact ⟨_, _, rfl, by simp, by cases d <;> simp [Double.symbol]⟩
      | after d t => exact extended t _
      | binary c l r => exact extended l _
      | _ => cases primary

/-- Tokens that spell a term stand for it, also as an operand if it is primary. -/
def Grammatical (t : Term) : Prop :=
  ∀ tokens, Token.Spelled tokens t.words →
    Reading.Sentence t.expr tokens ∧ (t.isPrimary = true → Reading.Operand t.expr tokens)

theorem grammatical_of_operand {t : Term}
    (operand : ∀ tokens, Token.Spelled tokens t.words → Reading.Operand t.expr tokens) :
    Grammatical t :=
  fun tokens spelled => ⟨.phrase (.operand (operand tokens spelled)), fun _ => operand tokens spelled⟩

theorem operand_of_grammatical {t : Term} (grammatical : Grammatical t) {tokens : List Token}
    (spelled : Token.Spelled tokens t.operandWords) : Reading.Operand t.expr tokens := by
  unfold Term.operandWords at spelled
  cases primary : t.isPrimary with
  | true =>
      rw [primary] at spelled
      exact (grammatical tokens spelled).2 primary
  | false =>
      rw [primary] at spelled
      exact Reading.operand_bracketed (fun tokens inside => (grammatical tokens inside).1) spelled

/-- The first token of a term. -/
theorem term_first (t : Term) {tokens : List Token} (spelled : Token.Spelled tokens t.words) :
    ∃ first rest, tokens = first :: rest ∧ first.value ≠ ")" ∧ ∀ kind, first.kind = some kind →
      kind ∈ .operator :: operandKinds := by
  obtain ⟨w, others, same, kinds, notClosing⟩ := term_begins t
  rw [same, Token.spelled_cons] at spelled
  obtain ⟨first, rest, rfl, ⟨kind, value⟩, -⟩ := spelled
  refine ⟨first, rest, rfl, by rw [value]; exact notClosing, fun other isKind => ?_⟩
  obtain rfl := Option.some.inj (kind.symm.trans isKind)
  exact kinds

theorem term_beginsArgument (t : Term) {tokens : List Token} (spelled : Token.Spelled tokens t.words) :
    Reading.BeginsArgument tokens := by
  obtain ⟨first, rest, rfl, notClosing, kinds⟩ := term_first t spelled
  intro token isFirst
  obtain rfl : first = token := by simpa using isFirst
  exact ⟨fun keyword => by simpa [operandKinds] using kinds _ keyword, notClosing⟩

mutual

theorem grammatical : (t : Term) → Grammatical t
  | .number n => by
      refine grammatical_of_operand fun tokens spelled => ?_
      simp only [Term.words, Token.spelled_cons, Token.spelled_nil] at spelled
      obtain ⟨token, -, rfl, spells, rfl⟩ := spelled
      exact n.operand spells
  | .string s => by
      refine grammatical_of_operand fun tokens spelled => ?_
      simp only [Term.words, Token.spelled_cons, Token.spelled_nil] at spelled
      obtain ⟨token, -, rfl, spells, rfl⟩ := spelled
      have operand := Reading.Operand.string spells.1 (s.plain spells)
      rw [spells.2] at operand
      exact operand
  | .truth b => by
      refine grammatical_of_operand fun tokens spelled => ?_
      refine Reading.operand_bracketed (fun inside spelled => ?_) spelled
      simp only [Token.spelled_cons, Token.spelled_nil] at spelled
      obtain ⟨token, -, rfl, ⟨kind, value⟩, rfl⟩ := spelled
      have word : token.value = "true" ∨ token.value = "false" := by
        rw [value]
        cases b <;> simp [truthWord]
      have operand := Reading.Operand.truth kind word
      rw [value] at operand
      exact .phrase (.operand operand)
  | .name x => by
      refine grammatical_of_operand fun tokens spelled => ?_
      simp only [Term.words, Token.spelled_cons, Token.spelled_nil] at spelled
      obtain ⟨token, -, rfl, spells, rfl⟩ := spelled
      have operand := Reading.Operand.name spells.1 (x.plain spells)
      rw [spells.2] at operand
      exact operand
  | .call f args => by
      refine grammatical_of_operand fun tokens spelled => ?_
      simp only [Term.words, Token.spelled_cons] at spelled
      obtain ⟨token, -, rfl, spells, first, inside, rfl, opens, spelled⟩ := spelled
      have operand := Reading.Operand.call spells.1 (f.plain spells) opens
        (grammatical_arguments args inside spelled)
      rw [spells.2] at operand
      exact operand
  | .sign s t => by
      refine grammatical_of_operand fun tokens spelled => ?_
      simp only [Term.words, Token.spelled_cons] at spelled
      obtain ⟨token, rest, rfl, spells, spelled⟩ := spelled
      have operand := Reading.Operand.sign (s.signs spells)
        (operand_of_grammatical (grammatical t) spelled)
      rw [spells.2] at operand
      exact operand
  | .before d t => by
      intro tokens spelled
      simp only [Term.words, Token.spelled_cons] at spelled
      obtain ⟨token, rest, rfl, spells, spelled⟩ := spelled
      have sentence := Reading.Sentence.before (d.doubles spells)
        (operand_of_grammatical (grammatical t) spelled)
      rw [spells.2] at sentence
      exact ⟨sentence, by simp [Term.isPrimary]⟩
  | .after d t => by
      intro tokens spelled
      simp only [Term.words, Token.spelled_append, Token.spelled_cons, Token.spelled_nil] at spelled
      obtain ⟨front, -, rfl, spelled, token, -, rfl, spells, rfl⟩ := spelled
      have sentence := Reading.Sentence.after (d.doubles spells)
        (operand_of_grammatical (grammatical t) spelled)
      rw [spells.2] at sentence
      exact ⟨sentence, by simp [Term.isPrimary]⟩
  | .binary c l r => by
      intro tokens spelled
      simp only [Term.words, Token.spelled_append, Token.spelled_cons] at spelled
      obtain ⟨front, -, rfl, left, token, back, rfl, spells, right⟩ := spelled
      have joins := c.joins spells
      have phrase := Reading.Phrase.binary joins (Reading.precedence_nonneg token)
        (.operand (operand_of_grammatical (grammatical l) left))
        (.operand (operand_of_grammatical (grammatical r) right))
      rw [spells.2] at phrase
      exact ⟨.phrase phrase, by simp [Term.isPrimary]⟩
  | .group t => by
      refine grammatical_of_operand fun tokens spelled => ?_
      exact Reading.operand_bracketed (fun inside spelled => (grammatical t inside spelled).1) spelled

theorem grammatical_arguments : (args : Arguments) → ∀ tokens, Token.Spelled tokens args.words →
    Reading.Arguments args.exprs tokens
  | .none, tokens, spelled => by
      simp only [Arguments.words, Token.spelled_cons, Token.spelled_nil] at spelled
      obtain ⟨token, -, rfl, closes, rfl⟩ := spelled
      exact .none closes
  | .last t, tokens, spelled => by
      simp only [Arguments.words, Token.spelled_append, Token.spelled_cons,
        Token.spelled_nil] at spelled
      obtain ⟨front, -, rfl, spelled, token, -, rfl, closes, rfl⟩ := spelled
      exact .single closes (grammatical t front spelled).1 (term_beginsArgument t spelled)
  | .more t s rest, tokens, spelled => by
      simp only [Arguments.words, Token.spelled_append, Token.spelled_cons] at spelled
      obtain ⟨front, -, rfl, spelled, token, back, rfl, spells, others⟩ := spelled
      exact .more (s.separates spells) (grammatical t front spelled).1 (term_beginsArgument t spelled)
        (grammatical_arguments rest back others)

end

theorem Connective.wellFormed (c : Connective) : Word.wellFormed ⟨.operator, c.symbol⟩ = true := by
  simpa [Word.wellFormed] using c.known

theorem Separator.wellFormed (s : Separator) : s.word.wellFormed = true := by
  cases s <;> rfl

theorem operandWords_wellFormed {t : Term} (words : ∀ w ∈ t.words, w.wellFormed = true) :
    ∀ w ∈ t.operandWords, w.wellFormed = true :=
  Word.forall_bracketed _ rfl rfl words

mutual

theorem term_wellFormed : (t : Term) → ∀ w ∈ t.words, w.wellFormed = true
  | .number n => List.forall_mem_singleton.mpr n.wellFormed_word
  | .string s => List.forall_mem_singleton.mpr rfl
  | .truth b => by
      refine Word.forall_bracketed true rfl rfl (List.forall_mem_singleton.mpr ?_)
      cases b <;> decide
  | .name x => List.forall_mem_singleton.mpr x.wellFormed
  | .call f args =>
      List.forall_mem_cons.mpr ⟨f.wellFormed, List.forall_mem_cons.mpr ⟨rfl, arguments_wellFormed args⟩⟩
  | .sign s t => by
      refine List.forall_mem_cons.mpr ⟨?_, operandWords_wellFormed (term_wellFormed t)⟩
      cases s <;> decide
  | .before d t => by
      refine List.forall_mem_cons.mpr ⟨?_, operandWords_wellFormed (term_wellFormed t)⟩
      cases d <;> decide
  | .after d t => by
      refine List.forall_mem_append.mpr ⟨operandWords_wellFormed (term_wellFormed t), ?_⟩
      refine List.forall_mem_singleton.mpr ?_
      cases d <;> decide
  | .binary c l r =>
      List.forall_mem_append.mpr ⟨operandWords_wellFormed (term_wellFormed l),
        List.forall_mem_cons.mpr ⟨c.wellFormed, operandWords_wellFormed (term_wellFormed r)⟩⟩
  | .group t => Word.forall_bracketed true rfl rfl (term_wellFormed t)

theorem arguments_wellFormed : (args : Arguments) → ∀ w ∈ args.words, w.wellFormed = true
  | .none => List.forall_mem_singleton.mpr rfl
  | .last t => List.forall_mem_append.mpr ⟨term_wellFormed t, List.forall_mem_singleton.mpr rfl⟩
  | .more t s rest =>
      List.forall_mem_append.mpr ⟨term_wellFormed t,
        List.forall_mem_cons.mpr ⟨s.wellFormed, arguments_wellFormed rest⟩⟩

end

end Scriptlet.Source
