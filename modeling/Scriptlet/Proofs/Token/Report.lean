import Mathlib.Data.String.Basic
import Scriptlet.Proofs.Expr.Positions
import Scriptlet.Proofs.Token.Comment
import Scriptlet.Proofs.Token.Stream

set_option autoImplicit false

/-!
Reports of what cannot be scanned. A report shows the line of the text that the line number of the
scanner names. That number goes up by what is counted in each piece of text that the scanner takes
(`countedLines`), in all texts one after another, and not by the line feeds of the text at hand, so the
line is there exactly if not more has been counted than the text has line feeds (`scan_reports`).
-/

namespace Scriptlet

namespace Text

open String (utf8Len)

/-- Splitting goes by byte positions: the line at hand begins after the part before it, and its
characters read so far are what the list version keeps in reverse. -/
theorem splitOnAux_feeds (before line rest : List Char) (lines : List String) :
    (String.ofList (before ++ line ++ rest)).splitOnAux "\n" ⟨utf8Len before⟩
        ⟨utf8Len before + utf8Len line⟩ 0 lines =
      lines.reverse ++ (List.splitOnPPrepend (· == '\n') rest line.reverse).map String.ofList := by
  induction rest generalizing before line lines with
  | nil =>
      have ends : String.Pos.Raw.atEnd (String.ofList (before ++ line ++ []))
          ⟨utf8Len before + utf8Len line⟩ = true := by
        simp only [String.atEnd_iff, String.rawEndPos_ofList, String.utf8Len_append,
          String.Pos.Raw.mk_le_mk, String.utf8Len_nil]
        omega
      rw [String.splitOnAux, if_pos ends, String.extract_of_valid]
      simp
  | cons c rest ih =>
      have inside : ¬ String.Pos.Raw.atEnd (String.ofList (before ++ line ++ c :: rest))
          ⟨utf8Len before + utf8Len line⟩ = true := by
        have := c.utf8Size_pos
        simp only [String.atEnd_iff, String.rawEndPos_ofList, String.utf8Len_append,
          String.Pos.Raw.mk_le_mk, String.utf8Len_cons]
        omega
      have here := String.get_of_valid (before ++ line) (c :: rest)
      have next := String.next_of_valid (before ++ line) c rest
      have feed : String.Pos.Raw.get "\n" 0 = '\n' := rfl
      rw [String.utf8Len_append] at here next
      rw [String.splitOnAux, if_neg inside, here, feed, List.headD_cons, next,
        List.splitOnPPrepend_cons_eq_if]
      by_cases ends : c = '\n'
      · subst ends
        have width : String.Pos.Raw.next "\n" 0 = ⟨1⟩ := rfl
        have whole : String.Pos.Raw.atEnd "\n" ⟨1⟩ = true := rfl
        have back : (⟨utf8Len before + utf8Len line + '\n'.utf8Size⟩ : String.Pos.Raw).unoffsetBy
            ⟨1⟩ = ⟨utf8Len before + utf8Len line⟩ := rfl
        have taken := String.extract_of_valid before line ('\n' :: rest)
        have others := ih (before ++ line ++ ['\n']) [] (String.ofList line :: lines)
        simp only [beq_self_eq_true, ↓reduceIte, width, whole, back, taken]
        simp only [String.utf8Len_append, List.append_nil, String.utf8Len_cons, String.utf8Len_nil,
          Nat.add_zero, Nat.zero_add, List.append_assoc, List.cons_append, List.nil_append,
          List.reverse_cons, List.reverse_nil, ← Nat.add_assoc] at others ⊢
        rw [others, List.reverse_reverse]
        rfl
      · have other : (c == '\n') = false := beq_eq_false_iff_ne.mpr ends
        have same : (⟨utf8Len before + utf8Len line⟩ : String.Pos.Raw).unoffsetBy 0 =
            ⟨utf8Len before + utf8Len line⟩ := rfl
        have others := ih before (line ++ [c]) lines
        simp only [other, Bool.false_eq_true, ↓reduceIte, same, next]
        simpa only [String.utf8Len_append, String.utf8Len_cons, String.utf8Len_nil, Nat.zero_add,
          List.append_assoc, List.cons_append, List.nil_append, List.reverse_append,
          List.reverse_cons, List.reverse_nil, ← Nat.add_assoc] using others

/-- The lines of a text are its characters divided at the line feeds. -/
theorem splitOn_feeds (text : String) :
    text.splitOn "\n" = (text.toList.splitOn '\n').map String.ofList := by
  have whole := splitOnAux_feeds [] [] text.toList []
  rw [String.splitOn, if_neg (by decide), List.splitOn]
  simpa using whole

theorem length_splitOn_feeds (text : List Char) :
    (text.splitOn '\n').length = text.count '\n' + 1 := by
  induction text with
  | nil => rfl
  | cons c rest ih =>
      rw [List.splitOn] at ih ⊢
      rw [List.splitOnP_cons_eq_if_modifyHead, List.count_cons]
      split <;> simp_all

end Text

namespace Token

/-! ### Counting lines -/

/-- How many line feeds are written as escapes among the characters of a string. -/
def escapedFeeds : List Char → Nat
  | [] => 0
  | c :: rest =>
    if c = '\\' then
      match rest with
      | [] => 0
      | d :: rest => (if d = 'n' then 1 else 0) + escapedFeeds rest
    else escapedFeeds rest

/-- How many lines the scanner counts in a piece of text that it takes in one step: one for a line feed
and one for a line feed after a backslash, those escaped in a string, and the line ends in a comment of
several lines. -/
def countedLines : List Char → Nat
  | [] => 0
  | c :: rest =>
    if c = '\n' then 1
    else if c = '\\' then if rest.head? = some '\n' then 1 else 0
    else if c = '/' then if rest.head? = some '*' then rest.countP endsLine else 0
    else if c = '\'' || c = '"' then escapedFeeds rest
    else 0

theorem escapedFeeds_plain {c : Char} (plain : c ≠ '\\') (rest : List Char) :
    escapedFeeds (c :: rest) = escapedFeeds rest := by
  cases rest <;> simp [escapedFeeds, plain]

theorem countedLines_single {c : Char} (other : c ≠ '\n') : countedLines [c] = 0 := by
  simp [countedLines, other, escapedFeeds]

theorem countedLines_plain {c : Char} (feed : c ≠ '\n') (escape : c ≠ '\\') (slash : c ≠ '/')
    (single : c ≠ '\'') (double : c ≠ '"') (rest : List Char) : countedLines (c :: rest) = 0 := by
  simp [countedLines, feed, escape, slash, single, double]

theorem readString_taken (quote : Char) (chars : List Char) (cursor : Cursor) :
    ∃ taken, chars = taken ++ (readString quote chars cursor).2.2.1 ∧
      (readString quote chars cursor).2.2.2.line = cursor.line + escapedFeeds taken := by
  fun_induction readString quote chars cursor with
  | case1 => exact ⟨[], rfl, rfl⟩
  | case2 rest cursor =>
      refine ⟨[quote], rfl, ?_⟩
      by_cases escape : quote = '\\' <;> simp [escapedFeeds, escape, Cursor.skip]
  | case3 => exact ⟨['\\'], rfl, rfl⟩
  | case4 cursor rest ending inside remains reached read escape ih =>
      rw [read] at ih
      obtain ⟨taken, rfl, lines⟩ := ih
      refine ⟨'\\' :: 'n' :: taken, rfl, ?_⟩
      rw [lines]
      simp [escapedFeeds, Cursor.nextLine, Nat.add_assoc]
  | case5 cursor d rest other ending inside remains reached read escape ih =>
      rw [read] at ih
      obtain ⟨taken, rfl, lines⟩ := ih
      refine ⟨'\\' :: d :: taken, rfl, ?_⟩
      rw [lines]
      simp [escapedFeeds, other, Cursor.skip]
  | case6 c rest cursor inside plain ending contents remains reached read ih =>
      rw [read] at ih
      obtain ⟨taken, rfl, lines⟩ := ih
      refine ⟨c :: taken, rfl, ?_⟩
      rw [lines, escapedFeeds_plain plain, Cursor.skip]

theorem scanSlash_taken (source : String) (rest : List Char) (cursor : Cursor) :
    ∃ taken, rest = taken ++ (scanSlash source rest cursor).rest ∧
      (scanSlash source rest cursor).cursor.line = cursor.line + countedLines ('/' :: taken) := by
  unfold scanSlash
  split
  · rename_i body
    exact ⟨('/' :: body).takeWhile fun c => !endsLine c, List.takeWhile_append_dropWhile.symm, rfl⟩
  · rename_i body
    rcases skipped : skipBlock '*' body cursor with ⟨_ | left, after⟩
    · exact ⟨'*' :: body, by simp, (skipBlock_unclosed skipped).2.2⟩
    · obtain ⟨comment, rfl, -, -, lines⟩ := skipBlock_closed skipped
      exact ⟨'*' :: comment, rfl, lines⟩
  · rename_i line block
    refine ⟨rest.takeWhile isOperatorChar, List.takeWhile_append_dropWhile.symm, ?_⟩
    have plain : (rest.takeWhile isOperatorChar).head? ≠ some '*' := by
      intro star
      cases rest with
      | nil => cases star
      | cons d rest =>
          refine block rest (congrArg (· :: rest) ?_)
          by_cases operator : isOperatorChar d = true
          · simpa [operator] using star
          · simp [operator] at star
    simp [countedLines, plain, scanOperator, Cursor.skip]

/-- A step takes a piece of the text, and goes on by as many lines as are counted in it. -/
theorem step_taken (source : String) (c : Char) (rest : List Char) (cursor : Cursor) :
    ∃ taken, rest = taken ++ (step source c rest cursor).rest ∧
      (step source c rest cursor).cursor.line = cursor.line + countedLines (c :: taken) := by
  unfold step
  split
  · rename_i escape
    refine ⟨rest.take 1, (List.take_append_drop 1 rest).symm, ?_⟩
    subst escape
    cases rest with
    | nil => rfl
    | cons d rest =>
        by_cases feed : d = '\n' <;> simp [skipEscaped, countedLines, feed, Cursor.nextLine]
  rename_i escape
  split
  · split
    · rename_i feed
      subst feed
      exact ⟨[], rfl, rfl⟩
    · rename_i other
      exact ⟨[], rfl, by rw [countedLines_single other]; rfl⟩
  rename_i visible
  have feed : c ≠ '\n' := by
    rintro rfl
    exact visible (delimiter_facts (Or.inr rfl)).1
  split
  · rename_i slash
    subst slash
    exact scanSlash_taken source rest cursor
  rename_i slash
  split
  · exact ⟨[], rfl, by rw [countedLines_single feed]; rfl⟩
  split
  · rename_i quote
    obtain ⟨taken, split, lines⟩ := readString_taken c rest cursor
    have counted : countedLines (c :: taken) = escapedFeeds taken := by
      simp only [countedLines, feed, escape, slash, quote, ↓reduceIte]
    exact ⟨taken, split, by rw [counted, ← lines]; rfl⟩
  rename_i unquoted
  obtain ⟨single, double⟩ : c ≠ '\'' ∧ c ≠ '"' := by simpa using unquoted
  have uncounted := countedLines_plain feed escape slash single double
  split
  · exact ⟨_, List.takeWhile_append_dropWhile.symm, by rw [uncounted]; rfl⟩
  · obtain ⟨taken, split⟩ := scanOther_suffix source c rest cursor
    refine ⟨taken, split.symm, ?_⟩
    rw [uncounted]
    unfold scanOther
    split
    · rfl
    · rfl
    · split <;> rfl

/-- The pieces of a text that the scanner takes, the one it fails at included. The text alone decides
them. -/
def pieces (chars : List Char) : List (List Char) :=
  match chars with
  | [] => []
  | c :: rest =>
    -- any source and any cursor would do (`step_rest`)
    let s := step "" c rest .start
    let piece := c :: rest.take (rest.length - s.rest.length)
    match s.found with
    | .error _ => [piece]
    | .ok _ => piece :: pieces s.rest
termination_by chars.length
decreasing_by
  have := step_length_le "" c rest .start
  simp only [List.length_cons]
  omega

/-- How many lines are counted in some pieces one after another. -/
def linesIn : List (List Char) → Nat
  | [] => 0
  | piece :: others => countedLines piece + linesIn others

theorem linesIn_append (front back : List (List Char)) :
    linesIn (front ++ back) = linesIn front + linesIn back := by
  induction front with
  | nil => simp [linesIn]
  | cons piece others ih => rw [List.cons_append, linesIn, ih, linesIn, Nat.add_assoc]

theorem step_rest (source : String) (c : Char) (rest : List Char) (cursor : Cursor) :
    (step source c rest cursor).rest = (step "" c rest .start).rest :=
  congrArg Prod.snd (step_blind source "" c rest cursor .start)

theorem step_line (source : String) (c : Char) (rest : List Char) (cursor : Cursor) :
    (step source c rest cursor).cursor.line = cursor.line +
      countedLines (c :: rest.take (rest.length - (step "" c rest .start).rest.length)) := by
  obtain ⟨taken, split, lines⟩ := step_taken source c rest cursor
  have piece : rest.take (rest.length - (step source c rest cursor).rest.length) = taken := by
    generalize (step source c rest cursor).rest = left at split
    rw [split, List.length_append, Nat.add_sub_cancel, List.take_left]
  rw [lines, ← step_rest source c rest cursor, piece]

/-- Whether a step fails does not depend on the place either. -/
theorem step_failed {source : String} {c : Char} {rest : List Char} {cursor : Cursor} {fault : Fault}
    (failed : (step source c rest cursor).found = .error fault) (source' : String)
    (cursor' : Cursor) : ∃ fault', (step source' c rest cursor').found = .error fault' := by
  have same := congrArg Prod.fst (step_blind source source' c rest cursor cursor')
  simp only [Step.bare, failed] at same
  cases found : (step source' c rest cursor').found with
  | error fault' => exact ⟨fault', rfl⟩
  | ok token? =>
      rw [found] at same
      cases same

theorem scanFrom_line (source : String) (chars : List Char) (cursor : Cursor) :
    (scanFrom source chars cursor).2.line = cursor.line + linesIn (pieces chars) := by
  fun_induction pieces chars generalizing cursor with
  | case1 =>
      rw [scanFrom]
      rfl
  | case2 c rest s piece fault failed =>
      obtain ⟨fault', failed'⟩ := step_failed failed source cursor.advance
      have lines := step_line source c rest cursor.advance
      rw [scanFrom]
      simp only [failed']
      rw [lines]
      rfl
  | case3 c rest s piece token made ih =>
      have lines := step_line source c rest cursor.advance
      rw [scanFrom]
      cases found : (step source c rest cursor.advance).found with
      | error fault =>
          obtain ⟨fault', failed⟩ := step_failed found "" .start
          cases made.symm.trans failed
      | ok token? =>
          have left : (step source c rest cursor.advance).rest = s.rest :=
            step_rest source c rest cursor.advance
          simp only [left, ih, lines, linesIn, ← Nat.add_assoc]
          rfl

end Token

/-- The cursor of a scanner that has scanned some texts one after another. -/
def Cursor.after (texts : List String) : Cursor :=
  texts.foldl (fun cursor text => (Token.scan text cursor).2) .start

/-- The pieces of texts that are scanned one after another. -/
def Token.piecesOf (texts : List String) : List (List Char) :=
  texts.flatMap fun text => pieces text.toList

theorem Cursor.after_line (texts : List String) :
    (after texts).line = 1 + Token.linesIn (Token.piecesOf texts) := by
  have onward (cursor : Cursor) :
      (texts.foldl (fun cursor text => (Token.scan text cursor).2) cursor).line =
        cursor.line + Token.linesIn (Token.piecesOf texts) := by
    induction texts generalizing cursor with
    | nil => rfl
    | cons text texts ih =>
        have first := Token.scanFrom_line text text.toList cursor
        have split : Token.piecesOf (text :: texts) =
            Token.pieces text.toList ++ Token.piecesOf texts := List.flatMap_cons
        rw [List.foldl_cons, ih, Token.scan, first, split, Token.linesIn_append, Nat.add_assoc]
  exact onward .start

namespace Token

/-! ### What cannot be scanned -/

/-- The characters inside a string: the quote is not among them, but for one after a backslash, and a
backslash has a character after it. -/
inductive Inside (quote : Char) : List Char → Prop
  | nil : Inside quote []
  | plain {c : Char} {rest : List Char} (other : c ≠ quote) (unescaped : c ≠ '\\')
      (more : Inside quote rest) : Inside quote (c :: rest)
  | escaped {c : Char} {rest : List Char} (more : Inside quote rest) :
      Inside quote ('\\' :: c :: rest)

theorem Inside.tail {quote c : Char} {rest : List Char} (inside : Inside quote (c :: rest))
    (unescaped : c ≠ '\\') : Inside quote rest := by
  cases inside with
  | plain _ _ more => exact more
  | escaped more => exact absurd rfl unescaped

theorem Inside.not_cut {quote : Char} {chars : List Char} (inside : Inside quote chars) :
    ¬ Inside quote (chars ++ ['\\']) := by
  induction inside with
  | nil =>
      intro cut
      cases cut with
      | plain _ unescaped _ => exact unescaped rfl
  | plain _ unescaped _ ih => exact fun cut => ih (cut.tail unescaped)
  | escaped _ ih =>
      intro cut
      cases cut with
      | plain _ unescaped _ => exact unescaped rfl
      | escaped more => exact ih more

/-- What the text after a quote is like when the string ends in this way. -/
def StringEnd.Fits : StringEnd → Char → List Char → Prop
  | .closed, quote, chars => ∃ inside left, Inside quote inside ∧ chars = inside ++ quote :: left
  | .unclosed, quote, chars => Inside quote chars
  | .dangling, quote, chars => ∃ inside, Inside quote inside ∧ chars = inside ++ ['\\']

theorem StringEnd.Fits.prepend {ending : StringEnd} {quote : Char} {rest : List Char}
    (fits : ending.Fits quote rest) (front : List Char)
    (grows : ∀ {inside}, Inside quote inside → Inside quote (front ++ inside)) :
    ending.Fits quote (front ++ rest) := by
  cases ending with
  | closed =>
      obtain ⟨inside, left, within, rfl⟩ := fits
      exact ⟨front ++ inside, left, grows within, (List.append_assoc ..).symm⟩
  | unclosed => exact grows fits
  | dangling =>
      obtain ⟨inside, within, rfl⟩ := fits
      exact ⟨front ++ inside, grows within, (List.append_assoc ..).symm⟩

theorem readString_fits (quote : Char) (chars : List Char) (cursor : Cursor) :
    (readString quote chars cursor).1.Fits quote chars := by
  fun_induction readString quote chars cursor with
  | case1 => exact .nil
  | case2 rest cursor => exact ⟨[], rest, .nil, rfl⟩
  | case3 => exact ⟨[], .nil, rfl⟩
  | case4 cursor rest ending inside remains reached read escape ih =>
      rw [read] at ih
      exact ih.prepend ['\\', 'n'] .escaped
  | case5 cursor d rest other ending inside remains reached read escape ih =>
      rw [read] at ih
      exact ih.prepend ['\\', d] .escaped
  | case6 c rest cursor other plain ending contents remains reached read ih =>
      rw [read] at ih
      exact ih.prepend [c] (.plain other plain)

theorem readString_open {quote : Char} {chars : List Char} {cursor : Cursor}
    (unclosed : (readString quote chars cursor).1 ≠ .closed) :
    (readString quote chars cursor).2.2.1 = [] := by
  fun_induction readString quote chars cursor with
  | case1 => rfl
  | case2 => exact absurd rfl unclosed
  | case3 => rfl
  | case4 cursor rest ending inside remains reached read escape ih =>
      rw [read] at ih
      exact ih unclosed
  | case5 cursor d rest other ending inside remains reached read escape ih =>
      rw [read] at ih
      exact ih unclosed
  | case6 c rest cursor other plain ending contents remains reached read ih =>
      rw [read] at ih
      exact ih unclosed

theorem readString_open_line {quote : Char} {chars : List Char} {cursor : Cursor}
    (unclosed : (readString quote chars cursor).1 ≠ .closed) :
    (readString quote chars cursor).2.2.2.line = cursor.line + escapedFeeds chars := by
  obtain ⟨taken, split, counted⟩ := readString_taken quote chars cursor
  rw [readString_open unclosed, List.append_nil] at split
  rw [counted, ← split]

/-- What the scanner reports together with the place. -/
inductive Trouble
  | character
  | operator
  | number
  | string

namespace Trouble

/-- The report, given the place. -/
def fault : Trouble → Spot → Fault
  | character => .invalidCharacter
  | operator => .invalidOperator
  | number => .invalidNumber
  | string => .unclosedString

/-- What is wrong with a character and the text after it: the character begins nothing, a run of
operator characters is no operator, a numeral has two points, or a string is not closed. -/
def Begins : Trouble → Char → List Char → Prop
  | character, c, _ =>
    c ≠ '\\' ∧ Text.isBlank c = false ∧ punctuation? c = none ∧ c ≠ '\'' ∧ c ≠ '"' ∧
      Text.isLetter c = false ∧ c ≠ '_' ∧ c ≠ '$' ∧ Text.isDigit c = false ∧
      isOperatorChar c = false
  | operator, c, rest =>
    isOperatorChar c = true ∧ (c = '/' → ∀ d ∈ rest.head?, d ≠ '/' ∧ d ≠ '*') ∧
      (c = '.' → ∀ d ∈ rest.head?, Text.isDigit d = false) ∧
      String.ofList (c :: rest.takeWhile isOperatorChar) ∉ operators
  | number, c, rest =>
    (Text.isDigit c || c = '.' && rest.head?.any Text.isDigit) = true ∧
      1 < (c :: rest.takeWhile continuesNumber).count '.'
  | string, c, rest =>
    (c = '\'' ∨ c = '"') ∧ ∀ inside left, Inside c inside → rest ≠ inside ++ c :: left

/-- How many lines are counted before it is found. -/
def lines : Trouble → List Char → Nat
  | string, rest => escapedFeeds rest
  | _, _ => 0

/-- The text ends inside a string right after a backslash. -/
def CutOff : Trouble → Char → List Char → Prop
  | string, quote, rest => ∃ inside, Inside quote inside ∧ rest = inside ++ ['\\']
  | _, _, _ => False

theorem step_character {c : Char} {rest : List Char} (begins : character.Begins c rest)
    (source : String) (cursor : Cursor) :
    (step source c rest cursor).found =
      .error (faultAt source cursor.line cursor.column .invalidCharacter) := by
  obtain ⟨escape, blank, punctuation, single, double, letter, under, dollar, digit, operator⟩ := begins
  have slash : c ≠ '/' := by
    rintro rfl
    exact absurd operator (by decide)
  have point : c ≠ '.' := by
    rintro rfl
    exact absurd operator (by decide)
  simp [step, escape, blank, slash, punctuation, single, double, letter, under, dollar, scanOther,
    digit, point, operator]

theorem step_operatorRun {c : Char} {rest : List Char} (begins : operator.Begins c rest)
    (source : String) (cursor : Cursor) :
    (step source c rest cursor).found =
      .error (faultAt source cursor.line cursor.column .invalidOperator) := by
  obtain ⟨operator, noComment, noNumeral, unknown⟩ := begins
  have more : c = '.' → rest ≠ [] := by
    rintro rfl rfl
    exact unknown (by decide)
  have refused : ¬ operators.contains (String.ofList (c :: rest.takeWhile isOperatorChar)) = true :=
    fun known => unknown (List.contains_iff_mem.mp known)
  rw [step_operator source cursor operator noComment fun point => ⟨more point, noNumeral point⟩,
    scanOperator, if_neg refused]

theorem step_numeral {c : Char} {rest : List Char} (begins : number.Begins c rest)
    (source : String) (cursor : Cursor) :
    (step source c rest cursor).found =
      .error (faultAt source cursor.line cursor.column .invalidNumber) := by
  rw [step_number source cursor begins.1, scanNumber, if_pos begins.2]

theorem step_quote {c : Char} (quote : c = '\'' ∨ c = '"') (source : String) (rest : List Char)
    (cursor : Cursor) : step source c rest cursor = scanString source c rest cursor := by
  have blank : Text.isBlank '\'' = false ∧ Text.isBlank '"' = false := by decide +kernel
  rcases quote with rfl | rfl <;> simp [step, blank, punctuation?]

theorem step_found {trouble : Trouble} {c : Char} {rest : List Char} (begins : trouble.Begins c rest)
    (source : String) (cursor : Cursor) :
    (¬ trouble.CutOff c rest → (step source c rest cursor).found =
        .error (faultAt source (cursor.line + trouble.lines rest) cursor.column trouble.fault)) ∧
      (trouble.CutOff c rest → (step source c rest cursor).found =
        .error (.notConcatenable "str" "NoneType")) := by
  cases trouble with
  | character => exact ⟨fun _ => step_character begins source cursor, False.elim⟩
  | operator => exact ⟨fun _ => step_operatorRun begins source cursor, False.elim⟩
  | number => exact ⟨fun _ => step_numeral begins source cursor, False.elim⟩
  | string =>
      obtain ⟨quote, unclosed⟩ := begins
      have fits := readString_fits c rest cursor
      rw [step_quote quote, scanString]
      rcases read : readString c rest cursor with ⟨ending, contents, left, after⟩
      rw [read] at fits
      -- the text rules out a closing quote, and tells the two other endings apart
      cases ending with
      | closed =>
          obtain ⟨inside, left, within, same⟩ := fits
          exact absurd same (unclosed inside left within)
      | unclosed =>
          have stillOpen : (readString c rest cursor).1 ≠ .closed := by
            rw [read]
            exact StringEnd.noConfusion
          have counted : after.line = cursor.line + escapedFeeds rest := by
            have line := readString_open_line stillOpen
            rwa [read] at line
          refine ⟨fun _ => by rw [lines, ← counted]; rfl, ?_⟩
          rintro ⟨inside, within, rfl⟩
          exact absurd fits within.not_cut
      | dangling => exact ⟨fun whole => absurd fits whole, fun _ => rfl⟩

theorem className_fault (trouble : Trouble) (spot : Spot) :
    (trouble.fault spot).className = "Exception" := by
  cases trouble <;> rfl

end Trouble

/-! ### The line that is shown -/

/-- A report shows a line that the text has. -/
theorem faultAt_shown {source : String} {lines : Nat} (within : lines ≤ source.toList.count '\n')
    (column : Nat) (cause : Spot → Fault) :
    ∃ line, (source.toList.splitOn '\n')[lines]? = some line ∧
      faultAt source (lines + 1) column cause = cause ⟨lines + 1, column, String.ofList line⟩ := by
  have size := Text.length_splitOn_feeds source.toList
  have made : lines < (source.toList.splitOn '\n').length := by omega
  refine ⟨_, List.getElem?_eq_getElem made, ?_⟩
  simp [faultAt, Text.splitOn_feeds, made]

theorem faultAt_missing {source : String} {lines : Nat} (beyond : source.toList.count '\n' < lines)
    (column : Nat) (cause : Spot → Fault) : faultAt source (lines + 1) column cause = .outOfRange := by
  have size := Text.length_splitOn_feeds source.toList
  have missing : (source.toList.splitOn '\n').length ≤ lines := by omega
  simp [faultAt, Text.splitOn_feeds, missing]

/-- The scanner comes from a text to an end of it without a fault, and takes these pieces on its
way. -/
inductive Reaches (source : String) :
    List Char → Cursor → List (List Char) → List Char → Cursor → Prop
  | here {chars : List Char} {cursor : Cursor} : Reaches source chars cursor [] chars cursor
  | step {c : Char} {rest taken left remains : List Char} {cursor next there : Cursor}
      {token? : Option Token} {others : List (List Char)} (split : rest = taken ++ left)
      (made : step source c rest cursor.advance = ⟨.ok token?, left, next⟩)
      (onward : Reaches source left next others remains there) :
      Reaches source (c :: rest) cursor ((c :: taken) :: others) remains there

theorem Reaches.line {source : String} {chars remains : List Char} {cursor there : Cursor}
    {taken : List (List Char)} (reached : Reaches source chars cursor taken remains there) :
    there.line = cursor.line + linesIn taken := by
  induction reached with
  | here => rfl
  | @step c rest taken left remains cursor next there token? others split made onward ih =>
      obtain ⟨piece, pieces, lines⟩ := step_taken source c rest cursor.advance
      rw [made] at pieces lines
      obtain rfl : piece = taken := List.append_cancel_right (pieces.symm.trans split)
      rw [ih, linesIn, ← Nat.add_assoc]
      exact congrArg (· + _) lines

/-- A scan ends in the fault that it comes to. -/
theorem Reaches.scanFrom_failed {source : String} {chars rest : List Char} {cursor there : Cursor}
    {taken : List (List Char)} {c : Char} {fault : Fault}
    (reached : Reaches source chars cursor taken (c :: rest) there)
    (failed : (Token.step source c rest there.advance).found = .error fault) :
    (scanFrom source chars cursor).1 = .error fault := by
  generalize remaining : c :: rest = remains at reached
  induction reached with
  | here =>
      subst remaining
      rw [scanFrom]
      simp only [failed]
  | step split made onward ih =>
      rw [scanFrom, made]
      simp only [ih failed remaining, Except.map]

section Reporting

variable {earlier : List String} {text : String} {taken : List (List Char)} {c : Char}
  {rest : List Char} {cursor : Cursor} {trouble : Trouble}

/-- How many lines one scanner has counted in the texts before, in this text up to a trouble, and in
what it took before the trouble was found. -/
def linesBefore (earlier : List String) (taken : List (List Char)) (trouble : Trouble)
    (rest : List Char) : Nat :=
  linesIn (piecesOf earlier ++ taken) + trouble.lines rest

theorem Reaches.scan_trouble
    (reached : Reaches text text.toList (.after earlier) taken (c :: rest) cursor)
    (begins : trouble.Begins c rest) (whole : ¬ trouble.CutOff c rest) :
    (scan text (.after earlier)).1 =
      .error (faultAt text (linesBefore earlier taken trouble rest + 1) (cursor.column + 1)
        trouble.fault) := by
  have failed := (trouble.step_found begins text cursor.advance).1 whole
  have line : cursor.advance.line + trouble.lines rest =
      linesBefore earlier taken trouble rest + 1 := by
    have before := Cursor.after_line earlier
    have here := reached.line
    have same : cursor.advance.line = cursor.line := rfl
    rw [linesBefore, linesIn_append]
    omega
  rw [line] at failed
  exact reached.scanFrom_failed failed

/-- Where a scanner comes to something that it cannot scan, in any of the texts it is given one after
another, it reports that exactly if it has not counted more lines than the text has line feeds, and the
text does not end after a backslash in a string. The report then shows the line of the text that has
the number; otherwise the line cannot be found, or the character after the backslash. -/
theorem scan_reports (reached : Reaches text text.toList (.after earlier) taken (c :: rest) cursor)
    (begins : trouble.Begins c rest) :
    let lines := linesBefore earlier taken trouble rest
    let outcome := (scan text (.after earlier)).1
    ((∃ fault, outcome = .error fault ∧ fault.className = "Exception") ↔
      lines ≤ text.toList.count '\n' ∧ ¬ trouble.CutOff c rest) ∧
    (lines ≤ text.toList.count '\n' → ¬ trouble.CutOff c rest →
      ∃ line, (text.toList.splitOn '\n')[lines]? = some line ∧
        outcome = .error (trouble.fault ⟨lines + 1, cursor.column + 1, String.ofList line⟩)) ∧
    (text.toList.count '\n' < lines → ¬ trouble.CutOff c rest → outcome = .error .outOfRange) ∧
    (trouble.CutOff c rest → outcome = .error (.notConcatenable "str" "NoneType")) := by
  intro lines outcome
  have cutOff (cut : trouble.CutOff c rest) :
      outcome = .error (.notConcatenable "str" "NoneType") :=
    reached.scanFrom_failed ((trouble.step_found begins text cursor.advance).2 cut)
  have missing (beyond : text.toList.count '\n' < lines) (whole : ¬ trouble.CutOff c rest) :
      outcome = .error .outOfRange := by
    rw [← faultAt_missing beyond (cursor.column + 1) trouble.fault]
    exact reached.scan_trouble begins whole
  have shown (within : lines ≤ text.toList.count '\n') (whole : ¬ trouble.CutOff c rest) :
      ∃ line, (text.toList.splitOn '\n')[lines]? = some line ∧
        outcome = .error (trouble.fault ⟨lines + 1, cursor.column + 1, String.ofList line⟩) := by
    obtain ⟨line, found, report⟩ := faultAt_shown within (cursor.column + 1) trouble.fault
    exact ⟨line, found, report ▸ reached.scan_trouble begins whole⟩
  refine ⟨⟨?_, ?_⟩, shown, missing, cutOff⟩
  · rintro ⟨fault, failed, own⟩
    by_cases cut : trouble.CutOff c rest
    · cases failed.symm.trans (cutOff cut)
      exact absurd own (by decide)
    · refine ⟨Nat.le_of_not_lt fun beyond => ?_, cut⟩
      cases failed.symm.trans (missing beyond cut)
      exact absurd own (by decide)
  · rintro ⟨within, whole⟩
    obtain ⟨line, -, report⟩ := shown within whole
    exact ⟨_, report, trouble.className_fault _⟩

end Reporting

/-- An escaped line feed in the text before makes the report show a line too far down. -/
theorem scan_reports_laterLine :
    Reaches "/*\n*/1.2.3\n\n" "/*\n*/1.2.3\n\n".toList (.after ["'a\\nb'"])
      [['/', '*', '\n', '*', '/']] ['1', '.', '2', '.', '3', '\n', '\n'] ⟨2, 3, 1⟩ ∧
    Trouble.number.Begins '1' ['.', '2', '.', '3', '\n', '\n'] ∧
    linesBefore ["'a\\nb'"] [['/', '*', '\n', '*', '/']] .number ['.', '2', '.', '3', '\n', '\n'] = 2 ∧
    (scan "/*\n*/1.2.3\n\n" (.after ["'a\\nb'"])).1 = .error (.invalidNumber ⟨3, 2, ""⟩) := by
  have before : Cursor.after ["'a\\nb'"] = ⟨1, 2, 2⟩ := by decide +kernel
  have chars : "/*\n*/1.2.3\n\n".toList =
      ['/', '*', '\n', '*', '/', '1', '.', '2', '.', '3', '\n', '\n'] := by decide
  have reached : Reaches "/*\n*/1.2.3\n\n" "/*\n*/1.2.3\n\n".toList (.after ["'a\\nb'"])
      [['/', '*', '\n', '*', '/']] ['1', '.', '2', '.', '3', '\n', '\n'] ⟨2, 3, 1⟩ := by
    rw [before, chars]
    exact .step rfl (step_slash _ _ _) .here
  have begins : Trouble.number.Begins '1' ['.', '2', '.', '3', '\n', '\n'] :=
    ⟨by decide, by decide +kernel⟩
  have lines : linesBefore ["'a\\nb'"] [['/', '*', '\n', '*', '/']] .number
      ['.', '2', '.', '3', '\n', '\n'] = 2 := by decide +kernel
  have reports := (scan_reports reached begins).2.1
  rw [lines, chars] at reports
  obtain ⟨line, found, report⟩ := reports (by decide) id
  cases found
  exact ⟨reached, begins, lines, report⟩

/-- A string that is not closed has an escaped line feed, and the text has no second line. -/
theorem unclosed_string_unreported :
    Reaches "\"a\\n" "\"a\\n".toList (.after []) [] ['"', 'a', '\\', 'n'] .start ∧
    Trouble.string.Begins '"' ['a', '\\', 'n'] ∧
    (scan "\"a\\n" (.after [])).1 = .error .outOfRange ∧
    Fault.outOfRange.className = "IndexError" := by
  have chars : "\"a\\n".toList = ['"', 'a', '\\', 'n'] := by decide
  have reached : Reaches "\"a\\n" "\"a\\n".toList (.after []) [] ['"', 'a', '\\', 'n'] .start := by
    rw [chars]
    exact .here
  have begins : Trouble.string.Begins '"' ['a', '\\', 'n'] := by
    refine ⟨Or.inr rfl, ?_⟩
    intro inside left within same
    have quoted : '"' ∈ ['a', '\\', 'n'] := same ▸ List.mem_append_right inside List.mem_cons_self
    exact absurd quoted (by decide)
  have whole : ¬ Trouble.string.CutOff '"' ['a', '\\', 'n'] := by
    rintro ⟨inside, within, same⟩
    have last := congrArg List.getLast? same
    rw [List.getLast?_concat] at last
    exact absurd last (by decide)
  have lines : linesBefore [] [] .string ['a', '\\', 'n'] = 1 := by decide
  have beyond : "\"a\\n".toList.count '\n' < 1 := by
    rw [chars]
    decide
  refine ⟨reached, begins, ?_, rfl⟩
  rw [reached.scan_trouble begins whole, lines]
  exact congrArg Except.error (faultAt_missing beyond _ _)

end Token

end Scriptlet
