import Scriptlet.Proofs.Expr.Reading
import Scriptlet.Proofs.Token.Spelling

set_option autoImplicit false

/-!
The grammar of expressions. An operand is read as a whole by `readPrimary`. Operands and the operators
between them make up a phrase, whose operators group by precedence and to the left. The relations say
which expression a list of tokens stands for, and the theorems that the reader finds it, with fuel in
proportion to the tokens.
-/

namespace Scriptlet.Reading

/-- A token that is neither an operator before its operand nor an opening bracket. -/
def Plain (t : Token) : Prop := isUnary t = false ∧ t.value ≠ "(" ∧ t.value ≠ "\x7b"

def Opens (t : Token) : Prop := t.kind = some .lparen ∧ t.value = "("

def Closes (t : Token) : Prop := t.kind = some .rparen ∧ t.value = ")"

/-- A sign before its operand. -/
def Signs (t : Token) : Prop :=
  t.kind = some .operator ∧ (t.value = "-" ∨ t.value = "+" ∨ t.value = "!")

/-- A doubled sign, before or after its operand. -/
def Doubles (t : Token) : Prop := t.kind = some .operator ∧ (t.value = "++" ∨ t.value = "--")

/-- An operator between two operands. Equals signs and doubled signs do not group to the left. -/
def Joins (t : Token) : Prop :=
  t.kind = some .operator ∧ isLeftAssociative t = true ∧ t.value ≠ "." ∧ t.value ≠ "("

/-- A comma or a newline between two arguments. -/
def Separates (t : Token) : Prop :=
  t.kind = some .comma ∧ t.value = "," ∨ t.kind = some .newline ∧ t.value = "newline"

/-- The beginning of an argument, which no keyword can be. -/
def BeginsArgument (tokens : List Token) : Prop :=
  ∀ t ∈ tokens.head?, t.kind ≠ some .keyword ∧ t.value ≠ ")"

mutual

inductive Operand : Expr → List Token → Prop
  | number {t : Token} {e : Expr} (kind : t.kind = some .number) (plain : Plain t)
      (value : numberOf t.value = .ok e) : Operand e [t]
  | string {t : Token} (kind : t.kind = some .string) (plain : Plain t) : Operand (.str t.value) [t]
  | truth {t : Token} (kind : t.kind = some .keyword) (word : t.value = "true" ∨ t.value = "false") :
      Operand (.literal .boolean (.str t.value)) [t]
  | name {t : Token} (kind : t.kind = some .identifier) (plain : Plain t) :
      Operand (.ident t.value) [t]
  | call {t first : Token} {args : List Expr} {inside : List Token}
      (kind : t.kind = some .identifier) (plain : Plain t) (opens : Opens first)
      (list : Arguments args inside) : Operand (.call t.value args) (t :: first :: inside)
  | sign {t : Token} {e : Expr} {tokens : List Token} (signs : Signs t) (operand : Operand e tokens) :
      Operand (.unary t.value e) (t :: tokens)
  | group {first last : Token} {e : Expr} {tokens : List Token} (opens : Opens first)
      (closes : Closes last) (inner : Sentence e tokens) : Operand e (first :: (tokens ++ [last]))

/-- A phrase whose operators outside of brackets bind at least as tightly as the level. -/
inductive Phrase : Int → Expr → List Token → Prop
  | operand {level : Int} {e : Expr} {tokens : List Token} (operand : Operand e tokens) :
      Phrase level e tokens
  | binary {level : Int} {t : Token} {l r : Expr} {left right : List Token} (joins : Joins t)
      (high : level ≤ precedence t) (first : Phrase (precedence t) l left)
      (second : Phrase (precedence t + 1) r right) :
      Phrase level (.binary t.value l r) (left ++ t :: right)

/-- A whole expression: a phrase, or an operand with a doubled sign. -/
inductive Sentence : Expr → List Token → Prop
  | phrase {e : Expr} {tokens : List Token} (phrase : Phrase 0 e tokens) : Sentence e tokens
  | before {t : Token} {e : Expr} {tokens : List Token} (doubles : Doubles t)
      (operand : Operand e tokens) : Sentence (.unary t.value e) (t :: tokens)
  | after {t : Token} {e : Expr} {tokens : List Token} (doubles : Doubles t)
      (operand : Operand e tokens) : Sentence (.unary (t.value ++ ":post") e) (tokens ++ [t])

/-- Arguments up to and with the closing bracket. -/
inductive Arguments : List Expr → List Token → Prop
  | none {last : Token} (closes : Closes last) : Arguments [] [last]
  | single {last : Token} {e : Expr} {tokens : List Token} (closes : Closes last)
      (argument : Sentence e tokens) (begins : BeginsArgument tokens) :
      Arguments [e] (tokens ++ [last])
  | more {separator : Token} {e : Expr} {args : List Expr} {tokens others : List Token}
      (separates : Separates separator) (argument : Sentence e tokens)
      (begins : BeginsArgument tokens) (list : Arguments args others) :
      Arguments (e :: args) (tokens ++ separator :: others)

end

/-- What follows a name decides what it is used for. A name that stands for itself is followed by
something, which is neither a point nor an opening bracket nor an equals sign. -/
def Parted (front rest : List Token) : Prop :=
  ∀ t ∈ front.getLast?, t.kind = some .identifier →
    ∃ next, rest.head? = some next ∧ next.value ≠ "." ∧ next.value ≠ "(" ∧ next.value ≠ "="

/-- The tokens do not go on with a semicolon or with an operator that binds tighter than the level. -/
def Loose (level : Int) (rest : List Token) : Prop :=
  ∀ t ∈ rest.head?, t.kind ≠ some .semicolon ∧ (t.kind = some .operator → precedence t ≤ level)

theorem precedence_le (t : Token) : precedence t ≤ 3 := by
  unfold precedence
  grind

theorem precedence_nonneg (t : Token) : 0 ≤ precedence t := by
  unfold precedence
  grind

theorem operand_nonempty {e : Expr} {tokens : List Token} (operand : Operand e tokens) :
    tokens ≠ [] := by
  cases operand <;> simp

theorem phrase_nonempty {level : Int} {e : Expr} {tokens : List Token}
    (phrase : Phrase level e tokens) : tokens ≠ [] := by
  cases phrase with
  | operand operand => exact operand_nonempty operand
  | binary => simp

theorem sentence_nonempty {e : Expr} {tokens : List Token} (sentence : Sentence e tokens) :
    tokens ≠ [] := by
  cases sentence with
  | phrase phrase => exact phrase_nonempty phrase
  | before => simp
  | after => simp

theorem phrase_le {low high : Int} {e : Expr} {tokens : List Token} (le : low ≤ high)
    (phrase : Phrase high e tokens) : Phrase low e tokens := by
  cases phrase with
  | operand operand => exact .operand operand
  | binary joins bound first second => exact .binary joins (by omega) first second

/-- Nothing but an operand binds tighter than every operator. -/
theorem operand_of_phrase {level : Int} {e : Expr} {tokens : List Token} (high : 3 < level)
    (phrase : Phrase level e tokens) : Operand e tokens := by
  cases phrase with
  | operand operand => exact operand
  | @binary _ t _ _ _ _ _ bound _ _ =>
      have := precedence_le t
      omega

theorem operand_bracketed {e : Expr} {words : List Word} {tokens : List Token}
    (inner : ∀ tokens, Token.Spelled tokens words → Sentence e tokens)
    (spelled : Token.Spelled tokens (Word.bracketed true words)) : Operand e tokens := by
  simp only [Word.bracketed, if_true, Token.spelled_cons, Token.spelled_append, Token.spelled_nil]
    at spelled
  obtain ⟨first, -, rfl, opens, inside, -, rfl, spelled, last, -, rfl, closes, rfl⟩ := spelled
  exact .group opens closes (inner inside spelled)

theorem parted_append {front back rest : List Token} (nonempty : back ≠ [])
    (parted : Parted (front ++ back) rest) : Parted back rest := by
  cases back with
  | nil => exact absurd rfl nonempty
  | cons t back =>
      intro last isLast
      exact parted last (by simpa [List.getLast?_append, List.getLast?_cons] using isLast)

theorem parted_cons {front rest : List Token} {next : Token} (point : next.value ≠ ".")
    (opens : next.value ≠ "(") (equals : next.value ≠ "=") : Parted front (next :: rest) :=
  fun _ _ _ => ⟨next, rfl, point, opens, equals⟩

theorem loose_cons {level : Int} {next : Token} {rest : List Token}
    (other : next.kind ≠ some .semicolon)
    (bound : next.kind = some .operator → precedence next ≤ level) : Loose level (next :: rest) := by
  intro t first
  obtain rfl : next = t := by simpa using first
  exact ⟨other, bound⟩

theorem loose_le {low high : Int} {rest : List Token} (le : low ≤ high) (loose : Loose low rest) :
    Loose high rest :=
  fun t first => ⟨(loose t first).1, fun operator => by have := (loose t first).2 operator; omega⟩

/-- A token at which an expression ends. -/
def Ends (t : Token) : Prop :=
  t.kind ≠ some .operator ∧ t.kind ≠ some .semicolon ∧ t.value ≠ "." ∧ t.value ≠ "(" ∧ t.value ≠ "="

theorem parted_of_ends {t : Token} (front rest : List Token) (ends : Ends t) :
    Parted front (t :: rest) :=
  parted_cons ends.2.2.1 ends.2.2.2.1 ends.2.2.2.2

theorem loose_of_ends {t : Token} (level : Int) (rest : List Token) (ends : Ends t) :
    Loose level (t :: rest) :=
  loose_cons ends.2.1 (fun operator => absurd operator ends.1)

theorem ends_of_closes {t : Token} (closes : Closes t) : Ends t := by
  simp [Ends, closes.1, closes.2]

theorem ends_of_separates {t : Token} (separates : Separates t) : Ends t := by
  rcases separates with ⟨kind, value⟩ | ⟨kind, value⟩ <;> simp [Ends, kind, value]

theorem parted_of_doubles {t : Token} (front rest : List Token) (doubles : Doubles t) :
    Parted front (t :: rest) := by
  rcases doubles.2 with value | value <;> exact parted_cons (by simp [value]) (by simp [value])
    (by simp [value])

theorem parted_of_joins {t : Token} (front rest : List Token) (joins : Joins t) :
    Parted front (t :: rest) := by
  obtain ⟨-, left, point, opens⟩ := joins
  refine parted_cons point opens ?_
  intro equals
  simp [isLeftAssociative, equals] at left

theorem readOperators_stop {least level : Int} (e : Expr) {rest : List Token} {fuel : Nat}
    (enough : 0 < fuel) (lower : level < least) (loose : Loose level rest) :
    (readOperators fuel least e).run rest = (.ok e, rest) := by
  obtain ⟨n, rfl⟩ : ∃ n, fuel = n + 1 := ⟨fuel - 1, by omega⟩
  cases rest with
  | nil => simp [readOperators]
  | cons t rest =>
      obtain ⟨other, bound⟩ := loose t (by simp)
      by_cases operator : t.kind = some .operator
      · have low : ¬ least ≤ precedence t := by have := bound operator; omega
        simp [readOperators, operator, low]
      · simp [readOperators, operator, other]

section Steps

variable {n : Nat} {least : Int} {t first last : Token} {e l r : Expr} {tokens rest : List Token}

theorem readPrimary_sign (signs : Signs t) (operand : (readPrimary n).run tokens = (.ok e, rest)) :
    (readPrimary (n + 1)).run (t :: tokens) = (.ok (.unary t.value e), rest) := by
  obtain ⟨kind, value⟩ := signs
  have unary : isUnary t = true := by rcases value with h | h | h <;> simp [isUnary, kind, h]
  have sign : t.value = "-" ∨ t.value = "+" ∨ t.value = "!" := value
  simp [readPrimary, dropNewlines, kind, unary, sign, operand]

theorem readPrimary_double (doubles : Doubles t) (operand : (readExpr n 0).run tokens = (.ok e, rest)) :
    (readPrimary (n + 1)).run (t :: tokens) = (.ok (.unary t.value e), rest) := by
  obtain ⟨kind, value⟩ := doubles
  have unary : isUnary t = true := by rcases value with h | h <;> simp [isUnary, kind, h]
  have sign : ¬ (t.value = "-" ∨ t.value = "+" ∨ t.value = "!") := by
    rcases value with h | h <;> simp [h]
  have low : precedence t = 0 := by rcases value with h | h <;> simp [precedence, h]
  simp [readPrimary, dropNewlines, kind, unary, sign, low, operand]

theorem readPrimary_group (opens : Opens first) (closes : Closes last)
    (inner : (readExpr n 0).run tokens = (.ok e, last :: rest)) :
    (readPrimary (n + 1)).run (first :: tokens) = (.ok e, rest) := by
  obtain ⟨kind, value⟩ := opens
  have unary : isUnary first = false := by simp [isUnary, value]
  simp [readPrimary, dropNewlines, kind, unary, value, run_take _ kind, inner, run_take _ closes.1]

theorem readPrimary_call {args : List Expr} (kind : t.kind = some .identifier) (plain : Plain t)
    (opens : Opens first) (list : (readMoreArguments n).run tokens = (.ok args, rest)) :
    (readPrimary (n + 3)).run (t :: first :: tokens) = (.ok (.call t.value args), rest) := by
  obtain ⟨unary, notOpen, notBrace⟩ := plain
  simp [readPrimary, dropNewlines, kind, unary, notOpen, notBrace, readName, opens.2, readArguments,
    run_take _ opens.1, list]

theorem readExpr_primary (operand : (readPrimary n).run tokens = (.ok e, rest)) :
    (readExpr (n + 1) least).run tokens = (readOperators n least e).run rest := by
  simp [readExpr, operand]

theorem readOperators_join (joins : Joins t) (high : least ≤ precedence t)
    (right : (readExpr n (precedence t + 1)).run tokens = (.ok r, rest)) :
    (readOperators (n + 1) least l).run (t :: tokens) =
      (readOperators n least (.binary t.value l r)).run rest := by
  obtain ⟨kind, left, -⟩ := joins
  have single : ¬ (t.value = "++" ∨ t.value = "--") := by
    rintro (h | h) <;> simp [isLeftAssociative, h] at left
  simp [readOperators, kind, high, single, left, right]

theorem readOperators_double (doubles : Doubles t) (low : least ≤ 0) :
    (readOperators (n + 1) least e).run (t :: rest) =
      (.ok (.unary (t.value ++ ":post") e), rest) := by
  obtain ⟨kind, value⟩ := doubles
  have high : least ≤ precedence t := by rcases value with h | h <;> simp [precedence, h, low]
  simp [readOperators, kind, high, value]

theorem readTop_expression (other : t.kind ≠ some .keyword) :
    (readTop (n + 1)).run (t :: tokens) = (readExpr n 0).run (t :: tokens) := by
  simp [readTop, other]

theorem readMoreArguments_close (closes : Closes last) :
    (readMoreArguments (n + 1)).run (last :: rest) = (.ok [], rest) := by
  simp [readMoreArguments, closes.2, run_take _ closes.1]

theorem readMoreArguments_single (closes : Closes last) (begins : BeginsArgument (t :: tokens))
    (argument : (readExpr n 0).run (t :: tokens) = (.ok e, last :: rest)) :
    (readMoreArguments (n + 2)).run (t :: tokens) = (.ok [e], rest) := by
  obtain ⟨notKeyword, notClosing⟩ := begins t (by simp)
  simp [readMoreArguments, notClosing, readTop_expression notKeyword, argument, closes.2,
    run_take _ closes.1]

theorem readMoreArguments_more {separator : Token} {args : List Expr} {others : List Token}
    (separates : Separates separator) (begins : BeginsArgument (t :: tokens))
    (argument : (readExpr n 0).run (t :: tokens) = (.ok e, separator :: others))
    (list : (readMoreArguments (n + 1)).run others = (.ok args, rest)) :
    (readMoreArguments (n + 2)).run (t :: tokens) = (.ok (e :: args), rest) := by
  obtain ⟨notKeyword, notClosing⟩ := begins t (by simp)
  have value : separator.value = "," ∨ separator.value = "newline" :=
    separates.imp And.right And.right
  have taken : (takeIf (.oneOf [.comma, .newline])).run (separator :: others) =
      (.ok (some separator), others) := by
    rcases separates with ⟨kind, -⟩ | ⟨kind, -⟩ <;> simp [takeIf, kind]
  rw [readMoreArguments]
  simp [notClosing, readTop_expression notKeyword, argument, value, taken, list]

end Steps

mutual

theorem readPrimary_operand {e : Expr} {tokens : List Token} :
    Operand e tokens → ∀ (fuel : Nat) (rest : List Token), 8 * tokens.length ≤ fuel →
      Parted tokens rest → (readPrimary fuel).run (tokens ++ rest) = (.ok e, rest)
  | .number kind plain value, fuel, rest, enough, _ => by
      obtain ⟨n, rfl⟩ : ∃ n, fuel = n + 1 := ⟨fuel - 1, by simp at enough; omega⟩
      obtain ⟨unary, opens, braces⟩ := plain
      simp [readPrimary, dropNewlines, kind, unary, opens, braces, value]
  | .string kind plain, fuel, rest, enough, _ => by
      obtain ⟨n, rfl⟩ : ∃ n, fuel = n + 1 := ⟨fuel - 1, by simp at enough; omega⟩
      obtain ⟨unary, opens, braces⟩ := plain
      simp [readPrimary, dropNewlines, kind, unary, opens, braces]
  | .truth kind word, fuel, rest, enough, _ => by
      obtain ⟨n, rfl⟩ : ∃ n, fuel = n + 1 := ⟨fuel - 1, by simp at enough; omega⟩
      rcases word with value | value <;> simp [readPrimary, dropNewlines, kind, isUnary, value]
  | @Operand.name t kind plain, fuel, rest, enough, parted => by
      obtain ⟨n, rfl⟩ : ∃ n, fuel = n + 2 := ⟨fuel - 2, by simp at enough; omega⟩
      obtain ⟨unary, opens, braces⟩ := plain
      obtain ⟨next, follows, point, opens', equals⟩ := parted t (by simp) kind
      obtain ⟨others, rfl⟩ := List.head?_eq_some_iff.mp follows
      simp [readPrimary, dropNewlines, kind, unary, opens, braces, readName, point, opens', equals]
  | .call kind plain opens list, fuel, rest, enough, _ => by
      simp only [List.length_cons] at enough
      obtain ⟨n, rfl⟩ : ∃ n, fuel = n + 3 := ⟨fuel - 3, by omega⟩
      exact readPrimary_call kind plain opens (readMoreArguments_list list n rest (by omega))
  | @Operand.sign t _ _ signs operand, fuel, rest, enough, parted => by
      simp only [List.length_cons] at enough
      obtain ⟨n, rfl⟩ : ∃ n, fuel = n + 1 := ⟨fuel - 1, by omega⟩
      refine readPrimary_sign signs (readPrimary_operand operand n rest (by omega) ?_)
      rw [← List.singleton_append] at parted
      exact parted_append (operand_nonempty operand) parted
  | .group opens closes inner, fuel, rest, enough, _ => by
      simp only [List.length_cons, List.length_append, List.length_nil] at enough
      obtain ⟨n, rfl⟩ : ∃ n, fuel = n + 1 := ⟨fuel - 1, by omega⟩
      have read := readExpr_sentence inner n (_ :: rest) (by omega)
        (parted_of_ends _ _ (ends_of_closes closes)) (loose_of_ends _ _ (ends_of_closes closes))
      rw [List.cons_append, List.append_assoc]
      exact readPrimary_group opens closes read

/-- The operators of the phrase are read in turn, so what remains is to go on after it with the whole
phrase as the left operand. -/
theorem readExpr_phrase {level : Int} {e : Expr} {tokens : List Token} :
    Phrase level e tokens → ∀ (least : Int) (fuel : Nat) (rest : List Token)
      (result : Except Fault Expr × List Token), least ≤ level → 8 * tokens.length + 1 ≤ fuel →
      Parted tokens rest → Loose level rest →
      (∀ left, fuel ≤ left + 8 * tokens.length + 1 → (readOperators left least e).run rest = result) →
      (readExpr fuel least).run (tokens ++ rest) = result
  | .operand operand, least, fuel, rest, result, _, enough, parted, _, goesOn => by
      obtain ⟨n, rfl⟩ : ∃ n, fuel = n + 1 := ⟨fuel - 1, by omega⟩
      rw [readExpr_primary (readPrimary_operand operand n rest (by omega) parted)]
      exact goesOn n (by omega)
  | @Phrase.binary _ t l r left right joins high first second, least, fuel, rest, result, low, enough,
      parted, loose, goesOn => by
      simp only [List.length_append, List.length_cons] at enough goesOn
      rw [List.append_assoc, List.cons_append]
      refine readExpr_phrase first least fuel (t :: (right ++ rest)) result (by omega) (by omega)
        (parted_of_joins _ _ joins) (loose_cons (by simp [joins.1]) fun _ => Int.le_refl _) ?_
      intro fuel' more
      obtain ⟨n, rfl⟩ : ∃ n, fuel' = n + 1 := ⟨fuel' - 1, by omega⟩
      have parted' : Parted right rest := by
        rw [List.append_cons] at parted
        exact parted_append (phrase_nonempty second) parted
      have second' : (readExpr n (precedence t + 1)).run (right ++ rest) = (.ok r, rest) := by
        refine readExpr_phrase second (precedence t + 1) n rest (.ok r, rest) (Int.le_refl _)
          (by omega) parted' (loose_le (by omega) loose) ?_
        intro left' others
        exact readOperators_stop r (by omega) (by omega) loose
      rw [readOperators_join joins (by omega) second']
      exact goesOn n (by omega)

theorem readExpr_sentence {e : Expr} {tokens : List Token} :
    Sentence e tokens → ∀ (fuel : Nat) (rest : List Token), 8 * tokens.length + 2 ≤ fuel →
      Parted tokens rest → Loose (-1) rest →
      (readExpr fuel 0).run (tokens ++ rest) = (.ok e, rest)
  | .phrase phrase, fuel, rest, enough, parted, loose => by
      refine readExpr_phrase phrase 0 fuel rest (.ok e, rest) (Int.le_refl _) (by omega) parted
        (loose_le (by omega) loose) ?_
      intro left more
      exact readOperators_stop e (by omega) (by omega) loose
  | @Sentence.before t e' tokens' doubles operand, fuel, rest, enough, parted, loose => by
      simp only [List.length_cons] at enough
      obtain ⟨n, rfl⟩ : ∃ n, fuel = n + 3 := ⟨fuel - 3, by omega⟩
      rw [← List.singleton_append] at parted
      have parted' := parted_append (operand_nonempty operand) parted
      have inner : (readExpr (n + 1) 0).run (tokens' ++ rest) = (.ok e', rest) := by
        rw [readExpr_primary (readPrimary_operand operand n rest (by omega) parted')]
        exact readOperators_stop e' (by omega) (by omega) loose
      rw [List.cons_append, readExpr_primary (readPrimary_double doubles inner)]
      exact readOperators_stop _ (by omega) (by omega) loose
  | .after doubles operand, fuel, rest, enough, parted, loose => by
      simp only [List.length_append, List.length_cons, List.length_nil] at enough
      obtain ⟨n, rfl⟩ : ∃ n, fuel = n + 2 := ⟨fuel - 2, by omega⟩
      rw [List.append_assoc, List.singleton_append,
        readExpr_primary (readPrimary_operand operand (n + 1) _ (by omega)
          (parted_of_doubles _ _ doubles))]
      exact readOperators_double doubles (Int.le_refl _)

theorem readMoreArguments_list {args : List Expr} {tokens : List Token} :
    Arguments args tokens → ∀ (fuel : Nat) (rest : List Token), 8 * tokens.length ≤ fuel →
      (readMoreArguments fuel).run (tokens ++ rest) = (.ok args, rest)
  | .none closes, fuel, rest, enough => by
      obtain ⟨n, rfl⟩ : ∃ n, fuel = n + 1 := ⟨fuel - 1, by simp at enough; omega⟩
      exact readMoreArguments_close closes
  | @Arguments.single last _ tokens closes argument begins, fuel, rest, enough => by
      simp only [List.length_append, List.length_cons, List.length_nil] at enough
      obtain ⟨n, rfl⟩ : ∃ n, fuel = n + 2 := ⟨fuel - 2, by omega⟩
      have read := readExpr_sentence argument n (last :: rest) (by omega)
        (parted_of_ends _ _ (ends_of_closes closes)) (loose_of_ends _ _ (ends_of_closes closes))
      rw [List.append_assoc]
      cases tokens with
      | nil => exact absurd rfl (sentence_nonempty argument)
      | cons t tokens => exact readMoreArguments_single closes begins read
  | @Arguments.more separator _ _ tokens others separates argument begins list, fuel, rest, enough => by
      simp only [List.length_append, List.length_cons] at enough
      obtain ⟨n, rfl⟩ : ∃ n, fuel = n + 2 := ⟨fuel - 2, by omega⟩
      have read := readExpr_sentence argument n (separator :: (others ++ rest)) (by omega)
        (parted_of_ends _ _ (ends_of_separates separates))
        (loose_of_ends _ _ (ends_of_separates separates))
      have further := readMoreArguments_list list (n + 1) rest (by omega)
      rw [List.append_assoc]
      cases tokens with
      | nil => exact absurd rfl (sentence_nonempty argument)
      | cons t tokens => exact readMoreArguments_more separates begins read further

end

/-- A sentence by itself is a program of one statement, unless it ends in a name. -/
theorem ofTokens_sentence {e : Expr} {tokens : List Token} (sentence : Sentence e tokens)
    (begins : ∀ t ∈ tokens.head?, t.kind ≠ some .keyword ∧ t.kind ≠ some .newline)
    (parted : Parted tokens []) : Expr.ofTokens tokens = .ok [e] := by
  have read := readExpr_sentence sentence (8 * (tokens.length + 2) - 1) [] (by omega) parted
    (by simp [Loose])
  rw [List.append_nil] at read
  cases tokens with
  | nil => exact absurd rfl (sentence_nonempty sentence)
  | cons t tokens =>
      obtain ⟨notKeyword, notNewline⟩ := begins t (by simp)
      have statement : (readTop (fuelFor (t :: tokens))).run (t :: tokens) = (.ok e, []) := by
        rw [fuelFor, show 8 * ((t :: tokens).length + 2) =
          (8 * ((t :: tokens).length + 2) - 1) + 1 by omega, readTop_expression notKeyword]
        exact read
      rw [Expr.ofTokens, fuelFor, show 8 * ((t :: tokens).length + 2) =
        (8 * ((t :: tokens).length + 2) - 2) + 2 by omega, readProgram]
      simp [notNewline, statement, readProgram]

end Scriptlet.Reading
