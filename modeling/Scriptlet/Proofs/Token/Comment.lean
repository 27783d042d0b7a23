import Scriptlet.Token.Scan

set_option autoImplicit false

/-!
Comments. A comment of one line reaches up to the end of its line. A comment of several lines reaches
up to the first `*/` after its slash, the star of which may be the one that opened the comment, and its
line ends are counted.
-/

namespace Scriptlet.Token

/-- What closes a comment of several lines. -/
def closing : List Char := ['*', '/']

/-- A text ends in `*/` and has no other beginning that does. -/
def FirstClosed (text : List Char) : Prop :=
  closing <:+ text ∧ ∀ beginning, beginning <+: text → closing <:+ beginning → beginning = text

theorem firstClosed_closing : FirstClosed closing := by
  refine ⟨List.suffix_rfl, ?_⟩
  intro beginning begins closed
  exact begins.eq_of_length_le closed.length_le

/-- A character before does not close a text earlier, unless it makes a `*/` with the first one. -/
theorem FirstClosed.cons {previous c : Char} {text : List Char} (first : FirstClosed (c :: text))
    (goesOn : ¬ (previous = '*' ∧ c = '/')) : FirstClosed (previous :: c :: text) := by
  refine ⟨first.1.trans (List.suffix_cons previous _), ?_⟩
  intro beginning begins closed
  rcases List.prefix_cons_iff.mp begins with rfl | ⟨inner, rfl, within⟩
  · cases List.suffix_nil.mp closed
  · rcases List.suffix_cons_iff.mp closed with whole | closed
    -- the beginning is `*/` itself, so the text begins with a slash
    · obtain ⟨rfl, rfl⟩ := List.cons.inj whole
      obtain ⟨rest, same⟩ := within
      exact absurd ⟨rfl, (List.cons.inj same).1.symm⟩ goesOn
    · rw [first.2 inner within closed]

theorem closing_infix_cons {previous c : Char} {text : List Char} :
    closing <:+: previous :: c :: text ↔ previous = '*' ∧ c = '/' ∨ closing <:+: c :: text := by
  rw [List.infix_cons_iff]
  simp only [closing, List.cons_prefix_cons, List.nil_prefix, and_true, @eq_comm _ _ previous,
    @eq_comm _ _ c]

/-- Together with the character before, what is skipped is closed for the first time at its end. -/
theorem skipBlock_closed {previous : Char} {chars left : List Char} {cursor after : Cursor}
    (closed : skipBlock previous chars cursor = (some left, after)) :
    ∃ skipped, chars = skipped ++ left ∧ FirstClosed (previous :: skipped) ∧
      after.pos = cursor.pos ∧ after.line = cursor.line + skipped.countP endsLine := by
  fun_induction skipBlock previous chars cursor with
  | case1 => cases closed
  | case2 previous c rest cursor ends =>
      cases closed
      obtain ⟨rfl, rfl⟩ : previous = '*' ∧ c = '/' := by simpa using ends
      exact ⟨['/'], rfl, firstClosed_closing, rfl, rfl⟩
  | case3 previous c rest cursor goesOn line ih =>
      obtain ⟨skipped, rfl, first, pos, lines⟩ := ih closed
      have counted : endsLine c = true := line
      have moved : cursor.nextLine.line = cursor.line + 1 := rfl
      refine ⟨c :: skipped, rfl, first.cons (by simpa using goesOn), pos, ?_⟩
      rw [lines, List.countP_cons_of_pos counted, moved]
      omega
  | case4 previous c rest cursor goesOn line ih =>
      obtain ⟨skipped, rfl, first, pos, lines⟩ := ih closed
      have uncounted : ¬ endsLine c = true := line
      refine ⟨c :: skipped, rfl, first.cons (by simpa using goesOn), pos, ?_⟩
      rw [lines, List.countP_cons_of_neg uncounted, Cursor.skip]

theorem skipBlock_unclosed {previous : Char} {chars : List Char} {cursor after : Cursor}
    (unclosed : skipBlock previous chars cursor = (none, after)) :
    ¬ closing <:+: previous :: chars ∧
      after.pos = cursor.pos ∧ after.line = cursor.line + chars.countP endsLine := by
  fun_induction skipBlock previous chars cursor with
  | case1 previous cursor =>
      cases unclosed
      refine ⟨fun found => ?_, rfl, rfl⟩
      have short := found.length_le
      simp [closing] at short
  | case2 => cases unclosed
  | case3 previous c rest cursor goesOn line ih =>
      obtain ⟨open', pos, lines⟩ := ih unclosed
      have counted : endsLine c = true := line
      have moved : cursor.nextLine.line = cursor.line + 1 := rfl
      refine ⟨?_, pos, ?_⟩
      · rw [closing_infix_cons]
        exact not_or.mpr ⟨by simpa using goesOn, open'⟩
      · rw [lines, List.countP_cons_of_pos counted, moved]
        omega
  | case4 previous c rest cursor goesOn line ih =>
      obtain ⟨open', pos, lines⟩ := ih unclosed
      have uncounted : ¬ endsLine c = true := line
      refine ⟨?_, pos, ?_⟩
      · rw [closing_infix_cons]
        exact not_or.mpr ⟨by simpa using goesOn, open'⟩
      · rw [lines, List.countP_cons_of_neg uncounted, Cursor.skip]

theorem countP_endsLine (chars : List Char) :
    chars.countP endsLine = chars.count '\r' + chars.count '\n' := by
  induction chars with
  | nil => rfl
  | cons c rest ih =>
      rw [List.countP_cons, List.count_cons, List.count_cons, ih]
      by_cases back : c = '\r'
      · simp [endsLine, back, Nat.add_right_comm]
      · by_cases feed : c = '\n' <;> simp [endsLine, back, feed, Nat.add_assoc]

theorem step_slash (source : String) (rest : List Char) (cursor : Cursor) :
    step source '/' rest cursor = scanSlash source rest cursor := by
  have blank : Text.isBlank '/' = false := by decide +kernel
  simp [step, blank]

/-- A step that makes no token leaves the scan to what is left of the text. -/
theorem scanFrom_of_skipped {source : String} {c : Char} {rest left : List Char}
    {cursor next : Cursor} (skipped : step source c rest cursor.advance = ⟨.ok none, left, next⟩) :
    scanFrom source (c :: rest) cursor = scanFrom source left next := by
  rw [scanFrom, skipped]
  rcases scanFrom source left next with ⟨fault | tokens, after⟩ <;> rfl

/-- The scanner takes a slash and the text after it in one step, makes no token of them and goes on
with what is left. -/
structure Skips (source : String) (skipped left : List Char) (cursor next : Cursor) : Prop where
  step_eq : step source '/' (skipped ++ left) cursor.advance = ⟨.ok none, left, next⟩
  scanFrom_eq : scanFrom source ('/' :: (skipped ++ left)) cursor = scanFrom source left next

theorem Skips.of_scanSlash {source : String} {skipped left : List Char} {cursor next : Cursor}
    (stepped : scanSlash source (skipped ++ left) cursor.advance = ⟨.ok none, left, next⟩) :
    Skips source skipped left cursor next := by
  have taken : step source '/' (skipped ++ left) cursor.advance = ⟨.ok none, left, next⟩ := by
    rw [step_slash, stepped]
  exact ⟨taken, scanFrom_of_skipped taken⟩

/-- After a slash that the scanner takes, a second slash begins a comment up to the end of the line. A
star begins a comment up to the first `*/`, the star itself included, and every line end in it counts
as a line; where there is no `*/`, all of the text is taken and the comment is found to be open. -/
theorem scanFrom_comment (source : String) (body : List Char) (cursor : Cursor) :
    (∃ comment left, '/' :: body = comment ++ left ∧
      (∀ c ∈ comment, c ≠ '\r' ∧ c ≠ '\n') ∧ (∀ c ∈ left.head?, c = '\r' ∨ c = '\n') ∧
      Skips source comment left cursor (cursor.advance.skip comment.length)) ∧
    ((∃ comment left next, '*' :: body = comment ++ left ∧ FirstClosed comment ∧
        Skips source comment left cursor next ∧ next.pos = cursor.pos + 1 ∧
        next.line = cursor.line + (comment.count '\r' + comment.count '\n')) ∨
      (¬ closing <:+: '*' :: body ∧ ∃ after,
        step source '/' ('*' :: body) cursor.advance = ⟨.error .unclosedComment, [], after⟩ ∧
        scanFrom source ('/' :: '*' :: body) cursor = (.error .unclosedComment, after) ∧
        Fault.unclosedComment.message = "A multi-line comment was not closed.")) := by
  constructor
  · refine ⟨('/' :: body).takeWhile fun c => !endsLine c, ('/' :: body).dropWhile fun c => !endsLine c,
      List.takeWhile_append_dropWhile.symm, ?_, ?_, .of_scanSlash ?_⟩
    · intro c inside
      have within := List.all_eq_true.mp List.all_takeWhile c inside
      simpa [endsLine] using within
    · intro c first
      have outside := List.head?_dropWhile_not (fun c => !endsLine c) ('/' :: body)
      rw [first] at outside
      have ends : endsLine c = true := by simpa using outside
      simpa [endsLine] using ends
    · rw [List.takeWhile_append_dropWhile]
      rfl
  · rcases skipped : skipBlock '*' body cursor.advance with ⟨_ | left, after⟩
    · have stepped : step source '/' ('*' :: body) cursor.advance =
          ⟨.error .unclosedComment, [], after⟩ := by
        simp only [step_slash, scanSlash, skipped]
      refine Or.inr ⟨(skipBlock_unclosed skipped).1, after, stepped, ?_, rfl⟩
      rw [scanFrom, stepped]
    · obtain ⟨comment, rfl, first, pos, lines⟩ := skipBlock_closed skipped
      refine Or.inl ⟨'*' :: comment, left, after, rfl, first, .of_scanSlash ?_, pos, ?_⟩
      · simp only [List.cons_append, scanSlash, skipped]
      · rw [lines, countP_endsLine]
        rfl

/-- The star that opens a comment closes it with a slash right after. -/
example (source : String) (cursor : Cursor) :
    scanSlash source ['*', '/', '*', '/'] cursor = ⟨.ok none, ['*', '/'], cursor⟩ := rfl

end Scriptlet.Token
