import Scriptlet.Proofs.Token.Stream

set_option autoImplicit false

/-!
The words of the scanner. Whatever the scanner makes is a well-formed word, and well-formed words that
are written with a space after each of them are scanned back, so the well-formed words are exactly
those that a text can be scanned to.
-/

namespace Scriptlet

/-- Words with a space after each of them. -/
def Word.written (words : List Word) : List Char := words.flatMap fun w => w.chars ++ [' ']

namespace Token

/-- If a step has made a token, the token spells a well-formed word. -/
def Step.Sound (s : Step) : Prop :=
  ∀ t, s.found = .ok (some t) → ∃ w : Word, t.Spells w ∧ w.wellFormed = true

theorem sound_silent (rest : List Char) (cursor : Cursor) : Step.Sound ⟨.ok none, rest, cursor⟩ := by
  intro t found
  cases found

theorem sound_fault (fault : Fault) (rest : List Char) (cursor : Cursor) :
    Step.Sound ⟨.error fault, rest, cursor⟩ := by
  intro t found
  cases found

theorem sound_found {kind : TokenKind} {value : String} {line pos : Nat} (rest : List Char)
    (cursor : Cursor) (wellFormed : Word.wellFormed ⟨kind, value⟩ = true) :
    Step.Sound ⟨.ok (some ⟨some kind, value, line, pos⟩), rest, cursor⟩ := by
  intro t found
  cases found
  exact ⟨⟨kind, value⟩, ⟨rfl, rfl⟩, wellFormed⟩

theorem scanName_sound {c : Char} (rest : List Char) (cursor : Cursor)
    (begins : Text.isLetter c || c = '_' || c = '$') : (scanName c rest cursor).Sound := by
  have named : Word.isName (c :: rest.takeWhile continuesName) = true := by
    simp only [Word.isName, Bool.and_eq_true, List.all_eq_true]
    exact ⟨begins, List.all_eq_true.mp List.all_takeWhile⟩
  apply sound_found
  by_cases keyword : keywords.contains (String.ofList (c :: rest.takeWhile continuesName)) = true
  · rw [if_pos keyword]
    exact keyword
  · rw [if_neg keyword]
    simp only [Word.wellFormed, String.toList_ofList, named, Bool.true_and, Bool.not_eq_true']
    exact Bool.eq_false_iff.mpr keyword

theorem scanOperator_sound (source : String) (c : Char) (rest : List Char) (cursor : Cursor) :
    (scanOperator source c rest cursor).Sound := by
  unfold scanOperator
  by_cases known : operators.contains (String.ofList (c :: rest.takeWhile isOperatorChar)) = true
  · simp only [known, ↓reduceIte]
    exact sound_found _ _ known
  · simp only [known, Bool.false_eq_true, ↓reduceIte]
    exact sound_fault _ _ _

/-- A run of digits and points is a numeral if it begins as one and has one point at most. -/
theorem isNumeral_run {c : Char} {rest : List Char}
    (begins : Text.isDigit c || c = '.' && rest.head?.any Text.isDigit)
    (points : (c :: rest.takeWhile continuesNumber).count '.' ≤ 1) :
    Word.isNumeral (c :: rest.takeWhile continuesNumber) = true := by
  have digits : ∀ d ∈ rest.takeWhile continuesNumber, (Text.isDigit d || d = '.') = true := by
    intro d member
    have continues : continuesNumber d = true := List.all_eq_true.mp List.all_takeWhile d member
    exact (Bool.and_eq_true_iff.mp continues).2
  have starts : (Text.isDigit c
      || c = '.' && (rest.takeWhile continuesNumber).head?.any Text.isDigit) = true := by
    cases rest with
    | nil => exact begins
    | cons d rest =>
        by_cases digit : Text.isDigit d = true
        · have continues : continuesNumber d = true := by
            simp [continuesNumber, digit, Text.blank_of_digit digit]
          rw [List.takeWhile_cons_of_pos continues]
          exact begins
        · simp only [List.head?_cons, Option.any_some, digit, Bool.and_false, Bool.or_false] at begins
          simp [begins]
  simp only [Word.isNumeral, Bool.and_eq_true, List.all_eq_true, decide_eq_true_eq]
  exact ⟨⟨starts, digits⟩, points⟩

theorem scanNumber_sound (source : String) {c : Char} {rest : List Char} (cursor : Cursor)
    (begins : Text.isDigit c || c = '.' && rest.head?.any Text.isDigit) :
    (scanNumber source c rest cursor).Sound := by
  unfold scanNumber
  by_cases many : 1 < (c :: rest.takeWhile continuesNumber).count '.'
  · simp only [many, ↓reduceIte]
    exact sound_fault _ _ _
  · simp only [many, ↓reduceIte]
    apply sound_found
    rw [Word.wellFormed, String.toList_ofList]
    exact isNumeral_run begins (Nat.not_lt.mp many)

theorem scanString_sound (source : String) (quote : Char) (rest : List Char) (cursor : Cursor) :
    (scanString source quote rest cursor).Sound := by
  unfold scanString
  rcases readString quote rest cursor with ⟨ending, contents, left, after⟩
  cases ending with
  | closed => exact sound_found _ _ rfl
  | unclosed => exact sound_fault _ _ _
  | dangling => exact sound_fault _ _ _

theorem scanSlash_sound (source : String) (rest : List Char) (cursor : Cursor) :
    (scanSlash source rest cursor).Sound := by
  unfold scanSlash
  split
  · exact sound_silent _ _
  · split
    · exact sound_silent _ _
    · exact sound_fault _ _ _
  · exact scanOperator_sound source '/' rest cursor

theorem scanOther_sound (source : String) (c : Char) (rest : List Char) (cursor : Cursor) :
    (scanOther source c rest cursor).Sound := by
  rcases scanOther_cases source c rest cursor with number | ⟨other, operator, seen⟩ | ⟨fault, failed⟩
  · rw [scanOther_number source cursor number]
    exact scanNumber_sound source cursor number
  · rw [scanOther_operator source cursor operator other seen]
    exact scanOperator_sound source c rest cursor
  · intro t found
    rw [failed] at found
    cases found

theorem punctuation_wellFormed {c : Char} {kind : TokenKind} (known : punctuation? c = some kind) :
    Word.wellFormed ⟨kind, String.singleton c⟩ = true := by
  unfold punctuation? at known
  split at known <;> cases known <;> rfl

theorem step_sound (source : String) (c : Char) (rest : List Char) (cursor : Cursor) :
    (step source c rest cursor).Sound := by
  unfold step
  split
  · exact sound_silent _ _
  split
  · split
    · exact sound_found _ _ rfl
    · exact sound_silent _ _
  split
  · exact scanSlash_sound source rest cursor
  split
  · rename_i known
    exact sound_found _ _ (punctuation_wellFormed known)
  split
  · exact scanString_sound source c rest cursor
  split
  · rename_i begins
    exact scanName_sound rest cursor begins
  · exact scanOther_sound source c rest cursor

theorem Scanned.wellFormed {source : String} {chars : List Char} {cursor after : Cursor}
    {tokens : List Token} (scanned : Scanned source chars cursor tokens after) :
    ∃ words, Spelled tokens words ∧ ∀ w ∈ words, w.wellFormed = true := by
  induction scanned with
  | nil => exact ⟨[], .nil, by simp⟩
  | @step c rest left cursor next after token? tokens made others ih =>
      obtain ⟨words, spelled, wellFormed⟩ := ih
      cases token? with
      | none => exact ⟨words, spelled, wellFormed⟩
      | some t =>
          obtain ⟨w, spells, sound⟩ := step_sound source c rest cursor.advance t (by rw [made])
          exact ⟨w :: words, .cons spells spelled, List.forall_mem_cons.mpr ⟨sound, wellFormed⟩⟩

theorem scans_written (source : String) (words : List Word)
    (wellFormed : ∀ w ∈ words, w.wellFormed = true) :
    Scans source (Word.written words) words := by
  induction words with
  | nil => exact scans_nil source
  | cons w words ih =>
      obtain ⟨first, others⟩ := List.forall_mem_cons.mp wellFormed
      have spaced : Scans source (' ' :: Word.written words) words := scans_space (ih others)
      have whole : Word.written (w :: words) = w.chars ++ ' ' :: Word.written words := by
        simp [Word.written]
      rw [whole]
      exact scans_word first (fun _ => ⟨by simp [Delimited], fun _ => by simp⟩) spaced

/-- Whatever is scanned from any text and cursor is well-formed, and well-formed words that are written
with a space after each are scanned back in their order from every cursor. -/
theorem scan_wellFormed_written :
    (∀ text cursor tokens, (scan text cursor).1 = .ok tokens →
      ∃ words, Spelled tokens words ∧ ∀ w ∈ words, w.wellFormed = true) ∧
    (∀ words : List Word, (∀ w ∈ words, w.wellFormed = true) → ∀ cursor,
      ∃ tokens, (scan (String.ofList (Word.written words)) cursor).1 = .ok tokens ∧
        Spelled tokens words) := by
  refine ⟨fun text cursor tokens scanned => ?_, fun words wellFormed cursor => ?_⟩
  · exact (scanned_of_scanFrom (Prod.ext scanned rfl)).wellFormed
  · obtain ⟨tokens, after, scanned, spelled⟩ :=
      scans_written (String.ofList (Word.written words)) words wellFormed cursor
    refine ⟨tokens, ?_, spelled⟩
    rw [scan, String.toList_ofList, scanned]

/-- A point, a slash and a string with quotes, backslashes and a line feed in it are written on two
lines and scanned back. -/
theorem scan_wellFormed_written_marks :
    let words : List Word := [⟨.operator, "."⟩, ⟨.number, ".5"⟩, ⟨.operator, "/"⟩, ⟨.operator, "*"⟩,
      ⟨.newline, "newline"⟩, ⟨.string, "\"n\\n\n'"⟩, ⟨.keyword, "int"⟩, ⟨.identifier, "$int"⟩]
    (∀ w ∈ words, w.wellFormed = true) ∧
      ∃ tokens, (scan (String.ofList (Word.written words)) .start).1 = .ok tokens ∧
        Spelled tokens words := by
  intro words
  have wellFormed : ∀ w ∈ words, w.wellFormed = true := by
    have checked : words.all Word.wellFormed = true := by decide +kernel
    exact List.all_eq_true.mp checked
  exact ⟨wellFormed, scan_wellFormed_written.2 words wellFormed .start⟩

end Token

end Scriptlet
