import Scriptlet.Proofs.Fault
import Scriptlet.Proofs.Token.Spelling

set_option autoImplicit false

/-!
Scanning as a relation between texts and streams of tokens, and scanning in pieces. A step that makes a
token or skips something does not look at the text beyond a line feed, so a text that is scanned up to
a line break can be continued after it by the same scanner.
-/

namespace Scriptlet.Token

/-- The steps of a scan that meets no fault. -/
inductive Scanned (source : String) : List Char → Cursor → List Token → Cursor → Prop
  | nil {cursor : Cursor} : Scanned source [] cursor [] cursor
  | step {c : Char} {rest left : List Char} {cursor next after : Cursor} {token? : Option Token}
      {tokens : List Token}
      (made : step source c rest cursor.advance = ⟨.ok token?, left, next⟩)
      (others : Scanned source left next tokens after) :
      Scanned source (c :: rest) cursor (token?.toList ++ tokens) after

theorem scanFrom_of_scanned {source : String} {chars : List Char} {cursor after : Cursor}
    {tokens : List Token} (scanned : Scanned source chars cursor tokens after) :
    scanFrom source chars cursor = (.ok tokens, after) := by
  induction scanned with
  | nil => rw [scanFrom]
  | step made others ih =>
      rw [scanFrom, made]
      simp only [ih, Except.map]

theorem scanned_of_scanFrom {source : String} {chars : List Char} {cursor after : Cursor}
    {tokens : List Token} (scanned : scanFrom source chars cursor = (.ok tokens, after)) :
    Scanned source chars cursor tokens after := by
  -- what a step leaves may be much shorter than the rest, so the induction is on the length
  induction length : chars.length using Nat.strongRecOn generalizing chars cursor tokens with
  | ind n ih =>
      cases chars with
      | nil =>
          rw [scanFrom] at scanned
          cases scanned
          exact .nil
      | cons c rest =>
          rw [scanFrom] at scanned
          have shorter := step_length_le source c rest cursor.advance
          rcases made : step source c rest cursor.advance with ⟨fault | token?, left, next⟩
          · rw [made] at scanned
            cases scanned
          · rcases continued : scanFrom source left next with ⟨outcome, ending⟩
            rw [made] at scanned shorter
            simp only [continued] at scanned
            obtain ⟨mapped, rfl⟩ := Prod.mk.inj scanned
            obtain ⟨others, rfl, rfl⟩ := Fault.map_eq_ok.mp mapped
            have less : left.length < n := by
              simp only [List.length_cons] at length
              simp only at shorter
              omega
            exact .step made (ih left.length less continued rfl)

/-- A text may go on by nothing, or by a line feed. -/
def BreaksLine (more : List Char) : Prop := ∀ c ∈ more.head?, c = '\n'

/-- A step that meets no fault does the same when the text goes on, and leaves what is added. -/
def Step.Resumes (more : List Char) (s longer : Step) : Prop :=
  ∀ token?, s.found = .ok token? → longer = ⟨.ok token?, s.rest ++ more, s.cursor⟩

section Resuming

variable {more : List Char}

theorem takeWhile_append_break {p : Char → Bool} (stops : p '\n' = false) (breaks : BreaksLine more)
    (rest : List Char) : (rest ++ more).takeWhile p = rest.takeWhile p := by
  induction rest with
  | nil =>
      cases more with
      | nil => rfl
      | cons c more => simp [breaks c (by simp), stops]
  | cons c rest ih => by_cases continues : p c = true <;> simp [continues, ih]

theorem dropWhile_append_break {p : Char → Bool} (stops : p '\n' = false) (breaks : BreaksLine more)
    (rest : List Char) : (rest ++ more).dropWhile p = rest.dropWhile p ++ more := by
  induction rest with
  | nil =>
      cases more with
      | nil => rfl
      | cons c more => simp [breaks c (by simp), stops]
  | cons c rest ih => by_cases continues : p c = true <;> simp [continues, ih]

theorem scanName_resumes (breaks : BreaksLine more) (c : Char) (rest : List Char) (cursor : Cursor) :
    Step.Resumes more (scanName c rest cursor) (scanName c (rest ++ more) cursor) := by
  have stops : continuesName '\n' = false := (delimiter_facts (Or.inr rfl)).2.1
  intro token? found
  cases found
  rw [scanName, takeWhile_append_break stops breaks, dropWhile_append_break stops breaks]
  rfl

theorem scanOperator_resumes (breaks : BreaksLine more) (source longer : String) (c : Char)
    (rest : List Char) (cursor : Cursor) :
    Step.Resumes more (scanOperator source c rest cursor)
      (scanOperator longer c (rest ++ more) cursor) := by
  have stops : isOperatorChar '\n' = false := (delimiter_facts (Or.inr rfl)).2.2.2
  unfold scanOperator
  rw [takeWhile_append_break stops breaks, dropWhile_append_break stops breaks]
  intro token? found
  by_cases known : operators.contains (String.ofList (c :: rest.takeWhile isOperatorChar)) = true
  · simp only [known, ↓reduceIte] at found ⊢
    rw [found]
  · simp only [known, Bool.false_eq_true, ↓reduceIte] at found
    cases found

theorem scanNumber_resumes (breaks : BreaksLine more) (source longer : String) (c : Char)
    (rest : List Char) (cursor : Cursor) :
    Step.Resumes more (scanNumber source c rest cursor)
      (scanNumber longer c (rest ++ more) cursor) := by
  have stops : continuesNumber '\n' = false := (delimiter_facts (Or.inr rfl)).2.2.1
  unfold scanNumber
  rw [takeWhile_append_break stops breaks, dropWhile_append_break stops breaks]
  intro token? found
  by_cases many : 1 < (c :: rest.takeWhile continuesNumber).count '.'
  · simp only [many, ↓reduceIte] at found
    cases found
  · simp only [many, ↓reduceIte] at found ⊢
    rw [found]

theorem readString_append {quote : Char} {chars contents left : List Char} {cursor after : Cursor}
    (closed : readString quote chars cursor = (.closed, contents, left, after)) (more : List Char) :
    readString quote (chars ++ more) cursor = (.closed, contents, left ++ more, after) := by
  fun_induction readString quote chars cursor generalizing contents left after with
  | case1 => cases closed
  | case2 rest cursor =>
      cases closed
      rw [List.cons_append]
      unfold readString
      simp
  | case3 => cases closed
  | case4 cursor rest ending inside remains reached read escape ih =>
      cases closed
      simp [readString, escape, ih read]
  | case5 cursor d rest other ending inside remains reached read escape ih =>
      cases closed
      simp [readString, escape, other, ih read]
  | case6 c rest cursor inside plain ending contents remains reached read ih =>
      cases closed
      rw [List.cons_append]
      unfold readString
      simp [inside, plain, ih read]

theorem scanString_resumes (more : List Char) (source longer : String) (quote : Char)
    (rest : List Char) (cursor : Cursor) :
    Step.Resumes more (scanString source quote rest cursor)
      (scanString longer quote (rest ++ more) cursor) := by
  intro token? found
  rcases read : readString quote rest cursor with ⟨ending, contents, left, after⟩
  simp only [scanString, read] at found ⊢
  cases ending with
  | closed =>
      simp only at found
      rw [readString_append read more]
      simp only [found]
  | unclosed => cases found
  | dangling => cases found

theorem skipBlock_append {previous : Char} {chars left : List Char} {cursor after : Cursor}
    (closed : skipBlock previous chars cursor = (some left, after)) (more : List Char) :
    skipBlock previous (chars ++ more) cursor = (some (left ++ more), after) := by
  fun_induction skipBlock previous chars cursor with
  | case1 => cases closed
  | case2 previous cursor c rest ends =>
      cases closed
      simp [skipBlock, ends]
  | case3 previous cursor c rest goesOn line ih =>
      simp [skipBlock, goesOn, line, ih closed]
  | case4 previous cursor c rest goesOn line ih =>
      simp [skipBlock, goesOn, line, ih closed]

theorem scanSlash_resumes (breaks : BreaksLine more) (source longer : String) (rest : List Char)
    (cursor : Cursor) :
    Step.Resumes more (scanSlash source rest cursor) (scanSlash longer (rest ++ more) cursor) := by
  have stops : (!endsLine '\n') = false := rfl
  cases rest with
  | nil =>
      -- a line feed begins no comment
      have plain : scanSlash longer ([] ++ more) cursor =
          scanOperator longer '/' ([] ++ more) cursor := by
        cases more with
        | nil => rfl
        | cons c more =>
            obtain rfl : c = '\n' := breaks c (by simp)
            rfl
      rw [plain]
      exact scanOperator_resumes breaks source longer '/' [] cursor
  | cons c rest =>
      by_cases line : c = '/'
      · subst line
        intro token? found
        cases found
        have taken := takeWhile_append_break (p := fun c => !endsLine c) stops breaks ('/' :: rest)
        have dropped := dropWhile_append_break (p := fun c => !endsLine c) stops breaks ('/' :: rest)
        simp only [scanSlash, List.cons_append] at taken dropped ⊢
        rw [taken, dropped]
      · by_cases block : c = '*'
        · subst block
          intro token? found
          rcases skipped : skipBlock '*' rest cursor with ⟨_ | left, after⟩
          · simp only [scanSlash, skipped] at found
            cases found
          · simp only [scanSlash, skipped] at found ⊢
            cases found
            rw [List.cons_append]
            simp only [skipBlock_append skipped more]
        · have plain : ∀ text others, scanSlash text (c :: others) cursor =
              scanOperator text '/' (c :: others) cursor := by
            intro text others
            unfold scanSlash
            split <;> simp_all
          rw [List.cons_append, plain, plain, ← List.cons_append]
          exact scanOperator_resumes breaks source longer '/' (c :: rest) cursor

theorem scanOther_operator (source : String) {c : Char} {rest : List Char} (cursor : Cursor)
    (operator : isOperatorChar c = true)
    (other : (Text.isDigit c || c = '.' && rest.head?.any Text.isDigit) = false)
    (seen : c = '.' → rest ≠ []) :
    scanOther source c rest cursor = scanOperator source c rest cursor := by
  simp only [Bool.or_eq_false_iff] at other
  by_cases point : c = '.'
  · subst point
    cases rest with
    | nil => exact absurd rfl (seen rfl)
    | cons d rest =>
        have digit : Text.isDigit d = false := by simpa using other.2
        simp [scanOther, other.1, pointBeginsNumber, digit, operator]
  · simp [scanOther, other.1, point, operator]

/-- What is neither a numeral nor an operator is a fault, as is a point at the end of the text. -/
theorem scanOther_cases (source : String) (c : Char) (rest : List Char) (cursor : Cursor) :
    (Text.isDigit c || c = '.' && rest.head?.any Text.isDigit) = true ∨
    ((Text.isDigit c || c = '.' && rest.head?.any Text.isDigit) = false ∧
      isOperatorChar c = true ∧ (c = '.' → rest ≠ [])) ∨
    ∃ fault, (scanOther source c rest cursor).found = .error fault := by
  by_cases number : (Text.isDigit c || c = '.' && rest.head?.any Text.isDigit) = true
  · exact .inl number
  · have other := Bool.eq_false_iff.mpr number
    have digit := (Bool.or_eq_false_iff.mp other).1
    refine .inr ?_
    by_cases ends : c = '.' ∧ rest = []
    · obtain ⟨rfl, rfl⟩ := ends
      exact .inr ⟨_, by simp only [scanOther, digit, pointBeginsNumber]; rfl⟩
    · by_cases operator : isOperatorChar c = true
      · exact .inl ⟨other, operator, fun point nothing => ends ⟨point, nothing⟩⟩
      · have point : c ≠ '.' := by
          rintro rfl
          exact operator (by decide)
        exact .inr ⟨_, by simp only [scanOther, digit, point, operator]; rfl⟩

theorem scanOther_resumes (breaks : BreaksLine more) (source longer : String) (c : Char)
    (rest : List Char) (cursor : Cursor) :
    Step.Resumes more (scanOther source c rest cursor)
      (scanOther longer c (rest ++ more) cursor) := by
  rcases scanOther_cases source c rest cursor with number | ⟨other, operator, seen⟩ | ⟨fault, failed⟩
  · have number' : (Text.isDigit c || c = '.' && (rest ++ more).head?.any Text.isDigit) = true := by
      cases rest with
      | nil =>
          have digit : Text.isDigit c = true := by simpa using number
          simp [digit]
      | cons d rest => exact number
    rw [scanOther_number source cursor number, scanOther_number longer cursor number']
    exact scanNumber_resumes breaks source longer c rest cursor
  · have other' : (Text.isDigit c || c = '.' && (rest ++ more).head?.any Text.isDigit) = false := by
      cases rest with
      | nil =>
          have point : c ≠ '.' := fun point => seen point rfl
          simpa [point] using other
      | cons d rest => exact other
    have seen' : c = '.' → rest ++ more ≠ [] := fun point nothing =>
      seen point (List.append_eq_nil_iff.mp nothing).1
    rw [scanOther_operator source cursor operator other seen,
      scanOther_operator longer cursor operator other' seen']
    exact scanOperator_resumes breaks source longer c rest cursor
  · intro token? found
    rw [failed] at found
    cases found

/-- Only a backslash at the end of the text would take the line feed that is added. -/
theorem step_resumes (breaks : BreaksLine more) (source longer : String) {c : Char}
    {rest : List Char} (cursor : Cursor) (kept : c = '\\' → rest = [] → more = []) :
    Step.Resumes more (step source c rest cursor) (step longer c (rest ++ more) cursor) := by
  unfold step
  by_cases escape : c = '\\'
  · simp only [escape, ↓reduceIte]
    intro token? found
    cases found
    cases rest with
    | nil => simp [skipEscaped, kept escape rfl]
    | cons d rest => simp [skipEscaped]
  · simp only [escape, ↓reduceIte]
    by_cases blank : Text.isBlank c = true
    · simp only [blank, ↓reduceIte]
      intro token? found
      by_cases feed : c = '\n'
      · simp only [feed, ↓reduceIte] at found ⊢
        rw [found]
      · simp only [feed, ↓reduceIte] at found ⊢
        rw [found]
    · simp only [blank, Bool.false_eq_true, ↓reduceIte]
      by_cases slash : c = '/'
      · simp only [slash, ↓reduceIte]
        exact scanSlash_resumes breaks source longer rest cursor
      · simp only [slash, ↓reduceIte]
        cases punctuation? c with
        | some kind =>
            intro token? found
            cases found
            rfl
        | none =>
            simp only
            split
            · exact scanString_resumes more source longer c rest cursor
            split
            · exact scanName_resumes breaks c rest cursor
            · exact scanOther_resumes breaks source longer c rest cursor

end Resuming

theorem readString_suffix (quote : Char) (chars : List Char) (cursor : Cursor) :
    (readString quote chars cursor).2.2.1 <:+ chars := by
  fun_induction readString quote chars cursor with
  | case1 => exact List.suffix_rfl
  | case2 rest cursor => exact List.suffix_cons quote rest
  | case3 => exact List.nil_suffix
  | case4 cursor rest ending inside remains reached read escape ih =>
      rw [read] at ih
      exact (ih.trans (List.suffix_cons 'n' rest)).trans (List.suffix_cons '\\' _)
  | case5 cursor d rest other ending inside remains reached read escape ih =>
      rw [read] at ih
      exact (ih.trans (List.suffix_cons d rest)).trans (List.suffix_cons '\\' _)
  | case6 c rest cursor open' plain ending inside remains reached read ih =>
      rw [read] at ih
      exact ih.trans (List.suffix_cons c rest)

theorem skipBlock_suffix {previous : Char} {chars left : List Char} {cursor after : Cursor}
    (closed : skipBlock previous chars cursor = (some left, after)) : left <:+ chars := by
  fun_induction skipBlock previous chars cursor with
  | case1 => cases closed
  | case2 =>
      cases closed
      exact List.suffix_cons _ _
  | case3 _ _ _ _ _ _ ih => exact (ih closed).trans (List.suffix_cons _ _)
  | case4 _ _ _ _ _ _ ih => exact (ih closed).trans (List.suffix_cons _ _)

theorem scanSlash_suffix (source : String) (rest : List Char) (cursor : Cursor) :
    (scanSlash source rest cursor).rest <:+ rest := by
  unfold scanSlash
  split
  · exact List.dropWhile_suffix _
  · rename_i body
    split
    · rename_i skipped
      exact (skipBlock_suffix skipped).trans (List.suffix_cons '*' body)
    · exact List.nil_suffix
  · exact List.dropWhile_suffix _

theorem scanOther_suffix (source : String) (c : Char) (rest : List Char) (cursor : Cursor) :
    (scanOther source c rest cursor).rest <:+ rest := by
  unfold scanOther
  split
  · exact List.suffix_rfl
  · exact List.dropWhile_suffix _
  · split
    · exact List.dropWhile_suffix _
    · exact List.suffix_rfl

/-- What a step leaves is an end of what was there. -/
theorem step_suffix (source : String) (c : Char) (rest : List Char) (cursor : Cursor) :
    (step source c rest cursor).rest <:+ rest := by
  unfold step
  split
  · exact List.drop_suffix 1 rest
  split
  · split <;> exact List.suffix_rfl
  split
  · exact scanSlash_suffix source rest cursor
  split
  · exact List.suffix_rfl
  split
  · exact readString_suffix c rest cursor
  split
  · exact List.dropWhile_suffix _
  · exact scanOther_suffix source c rest cursor

/-- A scan goes on with a text that is added, if the text before does not end in a backslash. Reports of
faults show the whole text, which is no matter to what is scanned without a fault. -/
theorem Scanned.scanFrom_append {source longer : String} {chars more : List Char}
    {cursor between : Cursor} {tokens : List Token}
    (first : Scanned source chars cursor tokens between) (breaks : BreaksLine more)
    (kept : chars.getLast? = some '\\' → more = []) :
    scanFrom longer (chars ++ more) cursor =
      ((tokens ++ ·) <$> (scanFrom longer more between).1, (scanFrom longer more between).2) := by
  induction first with
  | nil => simp
  | @step c rest left cursor next between token? tokens made _ ih =>
      have last : c = '\\' → rest = [] → more = [] := by
        rintro rfl rfl
        exact kept rfl
      have resumed := step_resumes breaks source longer cursor.advance last token? (by rw [made])
      have within : left <:+ c :: rest := by
        have suffix := step_suffix source c rest cursor.advance
        rw [made] at suffix
        exact suffix.trans (List.suffix_cons c rest)
      have left_kept : left.getLast? = some '\\' → more = [] := by
        intro ends
        apply kept
        obtain ⟨taken, split⟩ := within
        rw [← split, List.getLast?_append, ends, Option.some_or]
      rw [made] at resumed
      rw [List.cons_append, scanFrom, resumed]
      simp only [ih left_kept]
      cases (scanFrom longer more between).1 <;> simp [Except.map]

theorem Scanned.elsewhere {source : String} {chars : List Char} {cursor after : Cursor}
    {tokens : List Token} (scanned : Scanned source chars cursor tokens after) (other : String) :
    Scanned other chars cursor tokens after := by
  have nothing : BreaksLine [] := by simp [BreaksLine]
  have whole : scanFrom other (chars ++ []) cursor = _ :=
    scanned.scanFrom_append nothing fun _ => rfl
  rw [List.append_nil, scanFrom_of_scanned .nil] at whole
  apply scanned_of_scanFrom
  simpa using whole

/-- A text that does not end in a backslash is scanned, and then a line feed and another text by the
same scanner: that goes well exactly if both are scanned as one text, with the same tokens and to the
same cursor. -/
theorem scan_append_line {a : String} (b : String) {cursor between : Cursor} {tokens : List Token}
    (kept : a.toList.getLast? ≠ some '\\') (first : scan a cursor = (.ok tokens, between))
    (whole : List Token) (after : Cursor) :
    scan (a ++ "\n" ++ b) cursor = (.ok whole, after) ↔
      ∃ others, scan ("\n" ++ b) between = (.ok others, after) ∧ whole = tokens ++ others := by
  have breaks : BreaksLine ("\n" ++ b).toList := by simp [BreaksLine]
  have joined : (a ++ "\n" ++ b).toList = a.toList ++ ("\n" ++ b).toList := by simp
  have scanned : Scanned a a.toList cursor tokens between := scanned_of_scanFrom first
  have both : scan (a ++ "\n" ++ b) cursor = _ :=
    joined ▸ scanned.scanFrom_append breaks fun ends => absurd ends kept
  have moved : ∀ others, scanFrom (a ++ "\n" ++ b) ("\n" ++ b).toList between = (.ok others, after) ↔
      scan ("\n" ++ b) between = (.ok others, after) := by
    intro others
    constructor
    · intro ran
      exact scanFrom_of_scanned ((scanned_of_scanFrom ran).elsewhere _)
    · intro ran
      exact scanFrom_of_scanned ((scanned_of_scanFrom ran).elsewhere _)
  rw [both, Prod.mk.injEq, Fault.map_eq_ok]
  constructor
  · rintro ⟨⟨others, ran, rfl⟩, rfl⟩
    exact ⟨others, (moved others).mp (Prod.ext ran rfl), rfl⟩
  · rintro ⟨others, ran, rfl⟩
    have ran' := (moved others).mpr ran
    exact ⟨⟨others, by rw [ran'], rfl⟩, by rw [ran']⟩

/-- A comment reaches up to the line feed, and a point after it begins a numeral. -/
theorem scan_append_line_comment :
    "x \"a\\nb\" // c".toList.getLast? ≠ some '\\' ∧
    scan "x \"a\\nb\" // c" .start =
      (.ok [⟨some .identifier, "x", 1, 1⟩, ⟨some .string, "a\nb", 2, 3⟩], ⟨5, 2, 7⟩) ∧
    scan ("\n" ++ ".5") ⟨5, 2, 7⟩ =
      (.ok [⟨some .newline, "newline", 3, 6⟩, ⟨some .number, ".5", 3, 7⟩], ⟨7, 3, 2⟩) ∧
    scan ("x \"a\\nb\" // c" ++ "\n" ++ ".5") .start =
      (.ok ([⟨some .identifier, "x", 1, 1⟩, ⟨some .string, "a\nb", 2, 3⟩] ++
        [⟨some .newline, "newline", 3, 6⟩, ⟨some .number, ".5", 3, 7⟩]), ⟨7, 3, 2⟩) := by
  have kept : "x \"a\\nb\" // c".toList.getLast? ≠ some '\\' := by decide
  have first : scan "x \"a\\nb\" // c" .start =
      (.ok [⟨some .identifier, "x", 1, 1⟩, ⟨some .string, "a\nb", 2, 3⟩], ⟨5, 2, 7⟩) := by
    decide +kernel
  have second : scan ("\n" ++ ".5") ⟨5, 2, 7⟩ =
      (.ok [⟨some .newline, "newline", 3, 6⟩, ⟨some .number, ".5", 3, 7⟩], ⟨7, 3, 2⟩) := by
    decide +kernel
  exact ⟨kept, first, second, (scan_append_line ".5" kept first _ _).mpr ⟨_, second, rfl⟩⟩

end Scriptlet.Token
