import Scriptlet.Text.Alphanumeric
import Scriptlet.Text.Blank

set_option autoImplicit false

/-!
The classes of characters that tell tokens apart. Blanks, letters and digits exclude one another, so
the first character of a token decides what it is.
-/

namespace Scriptlet.Text

/-- A property of all of ASCII is checked code point by code point. -/
theorem ascii_induction (p : Char → Bool) (checked : ∀ n < 128, p (Char.ofNat n) = true) (c : Char)
    (ascii : c.toNat < 128) : p c = true := by
  have same : Char.ofNat c.toNat = c := Char.ofNat_toNat c
  rw [← same]
  exact checked c.toNat ascii

/-- No interval of one table meets an interval of the other. -/
def apart (spans others : Array (Nat × Nat)) : Bool :=
  spans.toList.all fun s => others.toList.all fun t => Nat.blt s.2 t.1 || Nat.blt t.2 s.1

theorem covers_of_apart {spans others : Array (Nat × Nat)} (separate : apart spans others = true)
    {c : Char} (covered : covers spans c = true) : covers others c = false := by
  obtain ⟨s, inSpans, held⟩ := Array.any_eq_true'.mp covered
  rw [covers, Array.any_eq_false']
  intro t inOthers heldToo
  have between := List.all_eq_true.mp
    (List.all_eq_true.mp separate s inSpans.val) t inOthers.val
  simp only [holds, Bool.and_eq_true, Bool.or_eq_true, decide_eq_true_eq, Nat.blt_eq]
    at held heldToo between
  omega

theorem blank_of_letter {c : Char} (letter : isLetter c = true) : isBlank c = false := by
  by_cases ascii : c.toNat < 128
  · have checked := ascii_induction (fun c => !(isLetter c && isBlank c)) (by decide +kernel) c ascii
    simpa [letter] using checked
  · simp only [isLetter, ascii, ↓reduceIte] at letter
    exact covers_of_apart (by decide +kernel : apart letterSpans blankSpans = true) letter

theorem blank_of_digit {c : Char} (digit : isDigit c = true) : isBlank c = false := by
  by_cases ascii : c.toNat < 128
  · have checked := ascii_induction (fun c => !(isDigit c && isBlank c)) (by decide +kernel) c ascii
    simpa [digit] using checked
  · simp only [isDigit, ascii, ↓reduceIte, Bool.or_eq_true] at digit
    rcases digit with decimal | sign
    · exact covers_of_apart (by decide +kernel : apart decimalSpans blankSpans = true) decimal
    · exact covers_of_apart (by decide +kernel : apart signDigitSpans blankSpans = true) sign

theorem letter_of_digit {c : Char} (digit : isDigit c = true) : isLetter c = false := by
  by_cases ascii : c.toNat < 128
  · have checked := ascii_induction (fun c => !(isDigit c && isLetter c)) (by decide +kernel) c ascii
    simpa [digit] using checked
  · simp only [isDigit, ascii, ↓reduceIte, Bool.or_eq_true] at digit
    simp only [isLetter, ascii, ↓reduceIte]
    rcases digit with decimal | sign
    · exact covers_of_apart (by decide +kernel : apart decimalSpans letterSpans = true) decimal
    · exact covers_of_apart (by decide +kernel : apart signDigitSpans letterSpans = true) sign

end Scriptlet.Text
