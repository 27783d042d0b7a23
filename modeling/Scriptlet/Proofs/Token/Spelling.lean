import Mathlib.Data.List.Forall2
import Scriptlet.Proofs.Text
import Scriptlet.Token.Scan

set_option autoImplicit false

/-!
Writing tokens out and scanning them again. A word is a token without its place. Words that are
written with a space between any two on a line are scanned back one by one, whatever the cursor.
-/

namespace Scriptlet

/-- A token without its place in a text. -/
structure Word where
  kind : TokenKind
  value : String
deriving Repr, DecidableEq

/-- A token has the kind and the spelling of a word. -/
def Token.Spells (t : Token) (w : Word) : Prop := t.kind = some w.kind ∧ t.value = w.value

/-- Tokens are the words of a list one by one. -/
def Token.Spelled (tokens : List Token) (words : List Word) : Prop :=
  List.Forall₂ Token.Spells tokens words

namespace Word

/-- How a character is written inside a string. -/
def escaped (c : Char) : List Char := if c = '"' || c = '\\' then ['\\', c] else [c]

/-- The characters of a word. A string stands between double quotes. -/
def chars (w : Word) : List Char :=
  match w.kind with
  | .newline => ['\n']
  | .string => '"' :: (w.value.toList.flatMap escaped ++ ['"'])
  | _ => w.value.toList

/-- A name begins with a letter, an underscore or a dollar sign. -/
def isName : List Char → Bool
  | [] => false
  | c :: rest => (Text.isLetter c || c = '_' || c = '$') && rest.all Token.continuesName

/-- A numeral has digits and at most one point, and begins with a digit or with a point before one. -/
def isNumeral : List Char → Bool
  | [] => false
  | c :: rest =>
    (Text.isDigit c || c = '.' && rest.head?.any Text.isDigit)
      && rest.all (fun d => Text.isDigit d || d = '.') && (c :: rest).count '.' ≤ 1

/-- The words that the scanner can make. -/
def wellFormed (w : Word) : Bool :=
  match w.kind with
  | .newline => w.value = "newline"
  | .keyword => keywords.contains w.value
  | .identifier => isName w.value.toList && !keywords.contains w.value
  | .number => isNumeral w.value.toList
  | .string => true
  | .operator => operators.contains w.value
  | .lparen => w.value = "("
  | .rparen => w.value = ")"
  | .lbracket => w.value = "["
  | .rbracket => w.value = "]"
  | .lbrace => w.value = "\x7b"
  | .rbrace => w.value = "\x7d"
  | .semicolon => w.value = ";"
  | .comma => w.value = ","
  | .eof | .colon => false

/-- Words with a space between any two of them on one line. -/
def spaced : List Word → List Char
  | [] => []
  | [w] => w.chars
  | w :: next :: rest =>
    w.chars ++ (if w.kind = .newline || next.kind = .newline then [] else [' ']) ++
      spaced (next :: rest)

/-- Words in brackets, if they need them. -/
def bracketed (needed : Bool) (words : List Word) : List Word :=
  if needed then ⟨.lparen, "("⟩ :: (words ++ [⟨.rparen, ")"⟩]) else words

theorem forall_bracketed {P : Word → Prop} {words : List Word} (needed : Bool)
    (opens : P ⟨.lparen, "("⟩) (closes : P ⟨.rparen, ")"⟩) (inside : ∀ w ∈ words, P w) :
    ∀ w ∈ bracketed needed words, P w := by
  cases needed with
  | false => exact inside
  | true =>
      refine List.forall_mem_cons.mpr ⟨opens, List.forall_mem_append.mpr ⟨inside, ?_⟩⟩
      exact List.forall_mem_singleton.mpr closes

end Word

namespace Token

theorem spelled_nil {tokens : List Token} : Spelled tokens [] ↔ tokens = [] :=
  List.forall₂_nil_right_iff

theorem spelled_cons {tokens : List Token} {w : Word} {words : List Word} :
    Spelled tokens (w :: words) ↔
      ∃ t rest, tokens = t :: rest ∧ t.Spells w ∧ Spelled rest words := by
  constructor
  · intro spelled
    cases spelled with
    | cons first others => exact ⟨_, _, rfl, first, others⟩
  · rintro ⟨t, rest, rfl, first, others⟩
    exact .cons first others

theorem spelled_append {tokens : List Token} {words others : List Word} :
    Spelled tokens (words ++ others) ↔
      ∃ front back, tokens = front ++ back ∧ Spelled front words ∧ Spelled back others := by
  induction words generalizing tokens with
  | nil => simp [spelled_nil]
  | cons w words ih =>
      simp only [List.cons_append, spelled_cons, ih]
      constructor
      · rintro ⟨t, rest, rfl, first, front, back, rfl, left, right⟩
        exact ⟨t :: front, back, rfl, ⟨t, front, rfl, first, left⟩, right⟩
      · rintro ⟨front, back, rfl, ⟨t, rest, rfl, first, left⟩, right⟩
        exact ⟨t, rest ++ back, rfl, first, rest, back, rfl, left, right⟩

theorem spelled_mem {tokens : List Token} {words : List Word} (spelled : Spelled tokens words)
    {t : Token} (member : t ∈ tokens) : ∃ w ∈ words, t.Spells w := by
  induction spelled with
  | nil => cases member
  | cons first others ih =>
      rcases List.mem_cons.mp member with rfl | member
      · exact ⟨_, by simp, first⟩
      · obtain ⟨w, inWords, spells⟩ := ih member
        exact ⟨w, by simp [inWords], spells⟩

theorem spelled_of_map {tokens : List Token} {words : List Word}
    (same : tokens.map (fun t => (t.kind, t.value)) = words.map fun w => (some w.kind, w.value)) :
    Spelled tokens words := by
  induction words generalizing tokens with
  | nil => exact spelled_nil.mpr (List.map_eq_nil_iff.mp same)
  | cons w words ih =>
      obtain ⟨t, rest, rfl, first, others⟩ := List.map_eq_cons_iff.mp same
      exact .cons (Prod.mk.inj first) (ih others)

/-- Scanning from any cursor gives the words. -/
def Scans (source : String) (chars : List Char) (words : List Word) : Prop :=
  ∀ cursor, ∃ tokens after, scanFrom source chars cursor = (.ok tokens, after) ∧
    Spelled tokens words

/-- One step of the scanner makes a word and leaves the rest. -/
def StepsTo (source : String) (c : Char) (rest : List Char) (w : Word) (left : List Char) : Prop :=
  ∀ cursor, ∃ t after, t.Spells w ∧ step source c rest cursor = ⟨.ok (some t), left, after⟩

theorem scans_nil (source : String) : Scans source [] [] := by
  intro cursor
  exact ⟨[], cursor, by rw [scanFrom], spelled_nil.mpr rfl⟩

theorem scans_step {source : String} {c : Char} {rest left : List Char} {w : Word}
    {words : List Word} (first : StepsTo source c rest w left) (others : Scans source left words) :
    Scans source (c :: rest) (w :: words) := by
  intro cursor
  obtain ⟨t, next, spells, stepped⟩ := first cursor.advance
  obtain ⟨tokens, after, scanned, spelled⟩ := others next
  refine ⟨t :: tokens, after, ?_, .cons spells spelled⟩
  rw [scanFrom, stepped]
  simp [scanned, Except.map]

/-- A space and a line feed are blanks, and part of no name, numeral or operator. -/
theorem delimiter_facts {c : Char} (delimits : c = ' ' ∨ c = '\n') :
    Text.isBlank c = true ∧ continuesName c = false ∧ continuesNumber c = false ∧
      isOperatorChar c = false := by
  rcases delimits with rfl | rfl <;> decide +kernel

/-- The marks that a word may begin with. -/
def marks : List Char := ['_', '$', '.', '"', '(', ')', '[', ']', '\x7b', '\x7d', ';', ',']

theorem mark_not_blank {c : Char} (mark : c ∈ marks) : Text.isBlank c = false := by
  have checked : marks.all (fun c => !Text.isBlank c) = true := by decide +kernel
  simpa using List.all_eq_true.mp checked c mark

theorem scans_space {source : String} {rest : List Char} {words : List Word}
    (others : Scans source rest words) : Scans source (' ' :: rest) words := by
  intro cursor
  obtain ⟨tokens, after, scanned, spelled⟩ := others cursor.advance
  refine ⟨tokens, after, ?_, spelled⟩
  have blank : Text.isBlank ' ' = true := (delimiter_facts (Or.inl rfl)).1
  rw [scanFrom]
  simp [step, blank, scanned, Except.map]

/-- What may stand right after a word: nothing, a space or a line feed. -/
def Delimited (rest : List Char) : Prop := ∀ c ∈ rest.head?, c = ' ' ∨ c = '\n'

theorem delimited_not {p : Char → Bool} {rest : List Char} (delimited : Delimited rest)
    (outside : ∀ {c : Char}, c = ' ' ∨ c = '\n' → p c = false) : ∀ c ∈ rest.head?, p c = false :=
  fun c first => outside (delimited c first)

theorem takeWhile_whole {p : Char → Bool} {front rest : List Char}
    (inside : ∀ c ∈ front, p c = true) (outside : ∀ c ∈ rest.head?, p c = false) :
    (front ++ rest).takeWhile p = front := by
  rw [List.takeWhile_append_of_pos inside]
  cases rest with
  | nil => simp
  | cons c rest => simp [outside c (by simp)]

theorem dropWhile_whole {p : Char → Bool} {front rest : List Char}
    (inside : ∀ c ∈ front, p c = true) (outside : ∀ c ∈ rest.head?, p c = false) :
    (front ++ rest).dropWhile p = rest := by
  rw [List.dropWhile_append_of_pos inside]
  cases rest with
  | nil => simp
  | cons c rest => simp [outside c (by simp)]

theorem steps_newline (source : String) (rest : List Char) :
    StepsTo source '\n' rest ⟨.newline, "newline"⟩ rest := by
  intro cursor
  have blank : Text.isBlank '\n' = true := (delimiter_facts (Or.inr rfl)).1
  exact ⟨atCursor .newline "newline" cursor.nextLine, cursor.nextLine, ⟨rfl, rfl⟩,
    by simp [step, blank]⟩

/-- A letter, a digit, an underscore or a dollar sign is none of the characters that the scanner looks
for by themselves. -/
theorem step_wordlike (source : String) {c : Char} (rest : List Char) (cursor : Cursor)
    (wordlike : Text.isLetter c || c = '_' || c = '$' || Text.isDigit c) :
    step source c rest cursor =
      if Text.isLetter c || c = '_' || c = '$' then scanName c rest cursor
      else scanOther source c rest cursor := by
  have blank : Text.isBlank c = false := by
    simp only [Bool.or_eq_true, decide_eq_true_eq] at wordlike
    rcases wordlike with ((letter | rfl) | rfl) | digit
    · exact Text.blank_of_letter letter
    · exact mark_not_blank (by decide)
    · exact mark_not_blank (by decide)
    · exact Text.blank_of_digit digit
  have distinct : ∀ d : Char, (Text.isLetter d || d = '_' || d = '$' || Text.isDigit d) = false →
      c ≠ d := by
    rintro d others rfl
    rw [wordlike] at others
    cases others
  have punctuation : punctuation? c = none := by
    unfold punctuation?
    split <;> first | rfl | exact absurd rfl (distinct _ (by decide))
  simp [step, blank, punctuation, distinct '\\' (by decide), distinct '/' (by decide),
    distinct '\'' (by decide), distinct '"' (by decide)]

theorem steps_name (source : String) {c : Char} {tail rest : List Char}
    (name : Word.isName (c :: tail) = true) (stop : ∀ d ∈ rest.head?, continuesName d = false) :
    StepsTo source c (tail ++ rest)
      ⟨if keywords.contains (String.ofList (c :: tail)) then .keyword else .identifier,
        String.ofList (c :: tail)⟩ rest := by
  intro cursor
  simp only [Word.isName, Bool.and_eq_true, List.all_eq_true] at name
  have stepped := step_wordlike source (tail ++ rest) cursor (by simp [name.1] :
    Text.isLetter c || c = '_' || c = '$' || Text.isDigit c)
  rw [if_pos name.1, scanName, takeWhile_whole name.2 stop, dropWhile_whole name.2 stop] at stepped
  exact ⟨_, _, ⟨rfl, rfl⟩, stepped⟩

theorem scanOther_number (source : String) {c : Char} {rest : List Char} (cursor : Cursor)
    (begins : Text.isDigit c || c = '.' && rest.head?.any Text.isDigit) :
    scanOther source c rest cursor = scanNumber source c rest cursor := by
  by_cases digit : Text.isDigit c = true
  · simp [scanOther, digit]
  · simp only [digit, Bool.false_or, Bool.and_eq_true, decide_eq_true_eq] at begins
    obtain ⟨rfl, next⟩ := begins
    cases rest with
    | nil => simp at next
    | cons d rest =>
        have digit' : Text.isDigit d = true := by simpa using next
        simp [scanOther, pointBeginsNumber, digit, digit']

theorem step_number (source : String) {c : Char} {rest : List Char} (cursor : Cursor)
    (begins : Text.isDigit c || c = '.' && rest.head?.any Text.isDigit) :
    step source c rest cursor = scanNumber source c rest cursor := by
  rw [← scanOther_number source cursor begins]
  by_cases digit : Text.isDigit c = true
  · have separate := Text.letter_of_digit digit
    have dollar : c ≠ '_' ∧ c ≠ '$' := by
      constructor <;> rintro rfl <;> exact absurd digit (by decide)
    rw [step_wordlike source _ cursor (by simp [digit]), if_neg (by simp [separate, dollar])]
  · simp only [digit, Bool.false_or, Bool.and_eq_true, decide_eq_true_eq] at begins
    obtain ⟨rfl, -⟩ := begins
    have blank : Text.isBlank '.' = false := mark_not_blank (by decide)
    have letter : Text.isLetter '.' = false := by decide
    simp [step, blank, letter, punctuation?]

theorem steps_number (source : String) {c : Char} {tail rest : List Char}
    (numeral : Word.isNumeral (c :: tail) = true)
    (stop : ∀ d ∈ rest.head?, continuesNumber d = false) :
    StepsTo source c (tail ++ rest) ⟨.number, String.ofList (c :: tail)⟩ rest := by
  intro cursor
  simp only [Word.isNumeral, Bool.and_eq_true, List.all_eq_true, decide_eq_true_eq] at numeral
  obtain ⟨⟨begins, digits⟩, points⟩ := numeral
  have inside : ∀ d ∈ tail, continuesNumber d = true := by
    intro d member
    have either := digits d member
    simp only [Bool.or_eq_true, decide_eq_true_eq] at either
    rcases either with digit | rfl
    · simp [continuesNumber, digit, Text.blank_of_digit digit]
    · simp [continuesNumber, mark_not_blank (by decide : '.' ∈ marks)]
  have begins' : Text.isDigit c || c = '.' && (tail ++ rest).head?.any Text.isDigit := by
    cases tail with
    | nil => simpa using Or.inl begins
    | cons d tail => simpa using begins
  have stepped := step_number source cursor begins'
  rw [scanNumber, takeWhile_whole inside stop, dropWhile_whole inside stop,
    if_neg (by omega)] at stepped
  exact ⟨_, _, ⟨rfl, rfl⟩, stepped⟩

theorem steps_punctuation (source : String) {c : Char} {kind : TokenKind} (rest : List Char)
    (known : punctuation? c = some kind) :
    StepsTo source c rest ⟨kind, String.singleton c⟩ rest := by
  intro cursor
  have plain : c ≠ '\\' ∧ Text.isBlank c = false ∧ c ≠ '/' := by
    unfold punctuation? at known
    split at known <;> cases known <;> exact ⟨by decide, mark_not_blank (by decide), by decide⟩
  exact ⟨atCursor kind (String.singleton c) cursor, cursor, ⟨rfl, rfl⟩,
    by simp [step, plain, known]⟩

/-- What the scanner needs to know of the first character of an operator, and of its others. -/
def beginsOperator : List Char → Bool
  | [] => false
  | c :: tail =>
    isOperatorChar c && c ≠ '\\' && !Text.isBlank c && (punctuation? c).isNone && c ≠ '\'' && c ≠ '"'
      && !Text.isLetter c && c ≠ '_' && c ≠ '$' && !Text.isDigit c
      && tail.all fun d => isOperatorChar d && !Text.isDigit d && d ≠ '/' && d ≠ '*'

theorem operators_begin : operators.all (fun symbol => beginsOperator symbol.toList) = true := by
  decide +kernel

/-- Where no comment and no numeral begins, an operator character begins a run of them. -/
theorem step_operator (source : String) {c : Char} {rest : List Char} (cursor : Cursor)
    (operator : isOperatorChar c = true)
    (noComment : c = '/' → ∀ d ∈ rest.head?, d ≠ '/' ∧ d ≠ '*')
    (noNumeral : c = '.' → rest ≠ [] ∧ ∀ d ∈ rest.head?, Text.isDigit d = false) :
    step source c rest cursor = scanOperator source c rest cursor := by
  have begins := List.all_eq_true.mp operators_begin _ (List.contains_iff_mem.mp operator)
  simp only [String.toList_singleton, beginsOperator, Bool.and_eq_true, List.all_nil, and_true,
    decide_eq_true_eq, Bool.not_eq_true', Option.isNone_iff_eq_none] at begins
  obtain ⟨⟨⟨⟨⟨⟨⟨⟨⟨-, notEscape⟩, blank⟩, punctuation⟩, single⟩, double⟩, letter⟩, under⟩,
    dollar⟩, digit⟩ := begins
  by_cases slash : c = '/'
  · subst slash
    have scanned : scanSlash source rest cursor = scanOperator source '/' rest cursor := by
      unfold scanSlash
      split
      · exact absurd rfl (noComment rfl '/' rfl).1
      · exact absurd rfl (noComment rfl '*' rfl).2
      · rfl
    simp [step, blank, scanned]
  · simp only [step, notEscape, blank, slash, punctuation, single, double, letter, under, dollar,
      ↓reduceIte, Bool.false_eq_true, decide_false, Bool.or_false]
    by_cases isPoint : c = '.'
    · subst isPoint
      cases rest with
      | nil => exact absurd rfl (noNumeral rfl).1
      | cons d left =>
          have after := (noNumeral rfl).2 d rfl
          simp [scanOther, digit, pointBeginsNumber, after, operator]
    · simp [scanOther, digit, isPoint, operator]

theorem steps_operator (source : String) {c : Char} {tail rest : List Char}
    (known : operators.contains (String.ofList (c :: tail)) = true)
    (stop : ∀ d ∈ rest.head?, isOperatorChar d = false)
    (point : c = '.' → tail ++ rest ≠ [] ∧ ∀ d ∈ rest.head?, Text.isDigit d = false) :
    StepsTo source c (tail ++ rest) ⟨.operator, String.ofList (c :: tail)⟩ rest := by
  intro cursor
  have begins := List.all_eq_true.mp operators_begin _ (List.contains_iff_mem.mp known)
  simp only [String.toList_ofList, beginsOperator, Bool.and_eq_true, List.all_eq_true,
    decide_eq_true_eq, Bool.not_eq_true', Option.isNone_iff_eq_none] at begins
  obtain ⟨⟨⟨⟨⟨⟨⟨⟨⟨⟨operator, -⟩, -⟩, -⟩, -⟩, -⟩, -⟩, -⟩, -⟩, -⟩, others⟩ := begins
  have inside : ∀ d ∈ tail, isOperatorChar d = true := fun d member => (others d member).1.1.1
  have next : ∀ d ∈ (tail ++ rest).head?,
      (c = '.' → Text.isDigit d = false) ∧ d ≠ '/' ∧ d ≠ '*' := by
    intro d first
    cases tail with
    | nil =>
        have outside := stop d first
        refine ⟨fun isPoint => (point isPoint).2 d first, ?_, ?_⟩ <;> rintro rfl <;> cases outside
    | cons e tail =>
        obtain rfl : e = d := by simpa using first
        exact ⟨fun _ => (others e (by simp)).1.1.2, (others e (by simp)).1.2, (others e (by simp)).2⟩
  have stepped := step_operator source cursor operator (fun _ d first => (next d first).2)
    fun isPoint => ⟨(point isPoint).1, fun d first => (next d first).1 isPoint⟩
  rw [scanOperator, takeWhile_whole inside stop, dropWhile_whole inside stop, if_pos known] at stepped
  exact ⟨_, _, ⟨rfl, rfl⟩, stepped⟩

theorem readString_escaped (contents rest : List Char) (cursor : Cursor) :
    ∃ after, readString '"' (contents.flatMap Word.escaped ++ '"' :: rest) cursor =
      (.closed, contents, rest, after) := by
  induction contents generalizing cursor with
  | nil =>
      refine ⟨cursor.skip 1, ?_⟩
      unfold readString
      simp
  | cons c contents ih =>
      by_cases special : c = '"' ∨ c = '\\'
      · obtain ⟨after, read⟩ := ih (cursor.skip 2)
        have notFeed : c ≠ 'n' := by rcases special with rfl | rfl <;> decide
        have written : Word.escaped c = ['\\', c] := by
          rcases special with rfl | rfl <;> rfl
        exact ⟨after, by simp [written, readString, notFeed, read]⟩
      · obtain ⟨after, read⟩ := ih (cursor.skip 1)
        simp only [not_or] at special
        have written : Word.escaped c = [c] := by simp [Word.escaped, special]
        refine ⟨after, ?_⟩
        rw [List.flatMap_cons, written, List.singleton_append, List.cons_append]
        unfold readString
        simp [special, read]

theorem steps_string (source : String) (value : String) (rest : List Char) :
    StepsTo source '"' (value.toList.flatMap Word.escaped ++ '"' :: rest) ⟨.string, value⟩ rest := by
  intro cursor
  obtain ⟨after, read⟩ := readString_escaped value.toList rest cursor
  have blank : Text.isBlank '"' = false := mark_not_blank (by decide)
  refine ⟨⟨some .string, value, after.line, cursor.column⟩, after, ⟨rfl, rfl⟩, ?_⟩
  simp [step, blank, punctuation?, scanString, read]

theorem keywords_named : keywords.all (fun word => Word.isName word.toList) = true := by
  decide

/-- A word other than a newline is made by one step, if something delimits it. A point at the very end
of a text is none: there the scanner fails. -/
theorem steps_word (source : String) (w : Word) (rest : List Char) (wellFormed : w.wellFormed = true)
    (notNewline : w.kind ≠ .newline) (delimited : Delimited rest)
    (notLast : w.value = "." → rest ≠ []) :
    ∃ c tail, w.chars = c :: tail ∧ StepsTo source c (tail ++ rest) w rest := by
  obtain ⟨kind, value⟩ := w
  obtain ⟨chars, rfl⟩ : ∃ chars, value = String.ofList chars := ⟨value.toList, by simp⟩
  have name : ∀ d ∈ rest.head?, continuesName d = false :=
    delimited_not delimited fun delimits => (delimiter_facts delimits).2.1
  have number : ∀ d ∈ rest.head?, continuesNumber d = false :=
    delimited_not delimited fun delimits => (delimiter_facts delimits).2.2.1
  have operator : ∀ d ∈ rest.head?, isOperatorChar d = false :=
    delimited_not delimited fun delimits => (delimiter_facts delimits).2.2.2
  cases kind
  case newline => exact absurd rfl notNewline
  case eof => cases wellFormed
  case colon => cases wellFormed
  case string =>
    refine ⟨'"', chars.flatMap Word.escaped ++ ['"'], by simp [Word.chars], ?_⟩
    simpa using steps_string source (String.ofList chars) rest
  case number =>
    simp only [Word.wellFormed, String.toList_ofList] at wellFormed
    cases chars with
    | nil => cases wellFormed
    | cons c tail => exact ⟨c, tail, by simp [Word.chars], steps_number source wellFormed number⟩
  case identifier =>
    simp only [Word.wellFormed, String.toList_ofList, Bool.and_eq_true, Bool.not_eq_true'] at wellFormed
    obtain ⟨named, notKeyword⟩ := wellFormed
    cases chars with
    | nil => cases named
    | cons c tail =>
        have steps := steps_name source named name
        rw [notKeyword] at steps
        exact ⟨c, tail, by simp [Word.chars], steps⟩
  case keyword =>
    have named := List.all_eq_true.mp keywords_named _ (List.contains_iff_mem.mp wellFormed)
    rw [String.toList_ofList] at named
    cases chars with
    | nil => cases named
    | cons c tail =>
        have steps := steps_name source named name
        have keyword : keywords.contains (String.ofList (c :: tail)) = true := wellFormed
        rw [keyword] at steps
        exact ⟨c, tail, by simp [Word.chars], steps⟩
  case operator =>
    have known : operators.contains (String.ofList chars) = true := wellFormed
    cases chars with
    | nil => exact absurd known (by decide)
    | cons c tail =>
        refine ⟨c, tail, by simp [Word.chars], steps_operator source known operator ?_⟩
        rintro rfl
        refine ⟨fun nothing => ?_, delimited_not delimited ?_⟩
        · obtain ⟨rfl, rfl⟩ := List.append_eq_nil_iff.mp nothing
          exact notLast rfl rfl
        · rintro d (rfl | rfl) <;> decide
  all_goals
    simp only [Word.wellFormed, decide_eq_true_eq] at wellFormed
    rw [wellFormed]
    exact ⟨_, [], rfl, steps_punctuation source rest rfl⟩

theorem scans_word {source : String} {w : Word} {rest : List Char} {words : List Word}
    (wellFormed : w.wellFormed = true)
    (delimited : w.kind ≠ .newline → Delimited rest ∧ (w.value = "." → rest ≠ []))
    (others : Scans source rest words) : Scans source (w.chars ++ rest) (w :: words) := by
  by_cases newline : w.kind = .newline
  · obtain ⟨kind, value⟩ := w
    obtain rfl : kind = .newline := newline
    obtain rfl : value = "newline" := by simpa [Word.wellFormed] using wellFormed
    exact scans_step (steps_newline source rest) others
  · obtain ⟨between, notLast⟩ := delimited newline
    obtain ⟨c, tail, written, steps⟩ := steps_word source w rest wellFormed newline between notLast
    rw [written]
    exact scans_step steps others

/-- Words that are written with spaces between them are scanned back, unless a point ends them. -/
theorem scans_spaced (source : String) (words : List Word)
    (wellFormed : ∀ w ∈ words, w.wellFormed = true)
    (ending : ∀ w ∈ words.getLast?, w.value ≠ ".") : Scans source (Word.spaced words) words := by
  induction words using Word.spaced.induct with
  | case1 => exact scans_nil source
  | case2 w =>
      have last : w.value ≠ "." := ending w (by simp)
      have scanned := scans_word (wellFormed w (by simp))
        (fun _ => ⟨by simp [Delimited], fun point => absurd point last⟩) (scans_nil source)
      simpa [Word.spaced] using scanned
  | case3 w next rest ih =>
      have others := ih (fun v member => wellFormed v (by simp [member])) (by simpa using ending)
      rw [Word.spaced, List.append_assoc]
      by_cases newline : w.kind = .newline
      · refine scans_word (wellFormed w (by simp)) (fun other => absurd newline other) ?_
        simpa [newline] using others
      · refine scans_word (wellFormed w (by simp)) (fun _ => ?_) ?_
        · by_cases newline' : next.kind = .newline
          · cases rest <;> simp [newline', Word.spaced, Word.chars, Delimited]
          · simp [newline, newline', Delimited]
        · by_cases newline' : next.kind = .newline
          · simpa [newline'] using others
          · simpa [newline, newline'] using scans_space others

/-- The text of words. -/
def textOf (words : List Word) : String := String.ofList (Word.spaced words)

/-- Whatever the cursor, the text of words is scanned to tokens that spell them. -/
theorem scan_textOf (words : List Word) (cursor : Cursor)
    (wellFormed : ∀ w ∈ words, w.wellFormed = true)
    (ending : ∀ w ∈ words.getLast?, w.value ≠ ".") :
    ∃ tokens, (scan (textOf words) cursor).1 = .ok tokens ∧ Spelled tokens words := by
  obtain ⟨tokens, after, scanned, spelled⟩ :=
    scans_spaced (textOf words) words wellFormed ending cursor
  refine ⟨tokens, ?_, spelled⟩
  rw [scan, textOf, String.toList_ofList]
  exact congrArg Prod.fst scanned

end Token

end Scriptlet
