import Mathlib.Data.List.TakeWhile
import Scriptlet.Proofs.Expr.Grammar

set_option autoImplicit false

/-! Whole numbers written in digits, and how they are read back. -/

namespace Scriptlet.Number

/-- The digits of a whole number that is short enough to be read. Leading zeros are allowed. -/
structure Numeral where
  digits : List (Fin 10)
  nonempty : digits ≠ []
  short : digits.length ≤ digitLimit

namespace Numeral

def digitChar (d : Fin 10) : Char := Char.ofNat (48 + d)

def chars (n : Numeral) : List Char := n.digits.map digitChar

def text (n : Numeral) : String := String.ofList n.chars

/-- The number that the digits stand for, the highest first. -/
def value (n : Numeral) : Nat := n.digits.foldl (fun m d => m * 10 + d.val) 0

theorem digitChar_facts : ∀ d : Fin 10,
    (digitChar d).isDigit = true ∧ Text.isDigit (digitChar d) = true ∧
      isPadding (digitChar d) = false ∧ plainDigit (digitChar d) = digitChar d ∧
      (digitChar d).toNat - 48 = d.val ∧ digitChar d ≠ '_' ∧ digitChar d ≠ '-' ∧ digitChar d ≠ '+' ∧
      digitChar d ≠ '.' := by
  decide

theorem digitsValue_map (digits : List (Fin 10)) (start : Nat) :
    (digits.map digitChar).foldl (fun n c => n * 10 + (c.toNat - 48)) start =
      digits.foldl (fun m d => m * 10 + d.val) start := by
  induction digits generalizing start with
  | nil => rfl
  | cons d digits ih =>
      rw [List.map_cons, List.foldl_cons, List.foldl_cons, ih, (digitChar_facts d).2.2.2.2.1]

theorem underscoresFit_map (digits : List (Fin 10)) :
    underscoresFit (digits.map digitChar) = true := by
  induction digits with
  | nil => rfl
  | cons d digits ih =>
      cases digits with
      | nil => simp [underscoresFit, digitChar_facts d]
      | cons d' digits =>
          simp only [List.map_cons, underscoresFit] at ih ⊢
          simp [digitChar_facts, ih]

theorem unpadded_text (n : Numeral) : unpadded n.text = n.chars := by
  have padding : ∀ c ∈ n.chars, isPadding c = false := by
    intro c member
    obtain ⟨d, -, rfl⟩ := List.mem_map.mp member
    exact (digitChar_facts d).2.2.1
  have kept : ∀ chars : List Char, (∀ c ∈ chars, isPadding c = false) →
      chars.dropWhile isPadding = chars := by
    intro chars outside
    cases chars with
    | nil => rfl
    | cons c chars => simp [outside c (by simp)]
  have plain : n.chars.map plainDigit = n.chars := by
    rw [chars, List.map_map]
    exact List.map_congr_left fun d _ => (digitChar_facts d).2.2.2.1
  rw [unpadded, text, String.toList_ofList, kept _ padding,
    kept _ (fun c member => padding c (List.mem_reverse.mp member)), List.reverse_reverse, plain]

theorem splitSign_chars (n : Numeral) : splitSign n.chars = (false, n.chars) := by
  unfold splitSign
  split
  · rename_i rest same
    have member : '-' ∈ n.chars := by simp [same]
    obtain ⟨d, -, minus⟩ := List.mem_map.mp member
    exact absurd minus (digitChar_facts d).2.2.2.2.2.2.1
  · rename_i rest same
    have member : '+' ∈ n.chars := by simp [same]
    obtain ⟨d, -, plus⟩ := List.mem_map.mp member
    exact absurd plus (digitChar_facts d).2.2.2.2.2.2.2.1
  · rfl

theorem readInt_text (n : Numeral) : readInt n.text = .ok (n.value : Int) := by
  have digits : ∀ c ∈ n.chars, c.isDigit = true := by
    intro c member
    obtain ⟨d, -, rfl⟩ := List.mem_map.mp member
    exact (digitChar_facts d).1
  have run : n.chars.takeWhile (fun c => c.isDigit || c = '_') = n.chars :=
    List.takeWhile_eq_self_iff.mpr fun c member => by simp [digits c member]
  have filtered : n.chars.filter Char.isDigit = n.chars := List.filter_eq_self.mpr digits
  have first : n.chars.head? ≠ some '_' := by
    intro underscore
    have member := List.mem_of_head? underscore
    obtain ⟨d, -, same⟩ := List.mem_map.mp member
    exact absurd same (digitChar_facts d).2.2.2.2.2.1
  have fits : underscoresFit n.chars = true := underscoresFit_map n.digits
  have nonempty : n.chars.isEmpty = false := by simpa [chars] using n.nonempty
  have short : ¬ digitLimit < n.chars.length := by simpa [chars] using n.short
  have sum : digitsValue n.chars = n.value := digitsValue_map n.digits 0
  rw [readInt, unpadded_text, splitSign_chars]
  simp [run, filtered, first, fits, nonempty, short, sum]

theorem numberOf_text (n : Numeral) : Reading.numberOf n.text = .ok (.int n.value) := by
  have point : n.text.toList.contains '.' = false := by
    rw [text, String.toList_ofList]
    simp only [List.contains_eq_mem, decide_eq_false_iff_not]
    intro member
    obtain ⟨d, -, same⟩ := List.mem_map.mp member
    exact absurd same (digitChar_facts d).2.2.2.2.2.2.2.2
  rw [Reading.numberOf, point, readInt_text]
  rfl

theorem text_ne (n : Numeral) {s : String} (other : s.toList.all Text.isDigit = false) :
    n.text ≠ s := by
  rintro rfl
  have digits : n.text.toList.all Text.isDigit = true := by
    rw [text, String.toList_ofList, List.all_eq_true]
    intro c member
    obtain ⟨d, -, rfl⟩ := List.mem_map.mp member
    exact (digitChar_facts d).2.1
  rw [digits] at other
  cases other

theorem isNumeral_chars (n : Numeral) : Word.isNumeral n.chars = true := by
  have digits : ∀ c ∈ n.chars, Text.isDigit c = true ∧ c ≠ '.' := by
    intro c member
    obtain ⟨d, -, rfl⟩ := List.mem_map.mp member
    exact ⟨(digitChar_facts d).2.1, (digitChar_facts d).2.2.2.2.2.2.2.2⟩
  cases same : n.chars with
  | nil => exact absurd (List.map_eq_nil_iff.mp same) n.nonempty
  | cons c rest =>
      rw [same] at digits
      have points : (c :: rest).count '.' = 0 :=
        List.count_eq_zero.mpr fun member => (digits '.' member).2 rfl
      simp only [Word.isNumeral, points, (digits c (by simp)).1]
      simpa using fun d member => Or.inl (digits d (by simp [member])).1

theorem wellFormed_word (n : Numeral) : Word.wellFormed ⟨.number, n.text⟩ = true := by
  have numeral : Word.isNumeral n.text.toList = true := by
    rw [text, String.toList_ofList]
    exact n.isNumeral_chars
  exact numeral

theorem operand (n : Numeral) {t : Token} (spells : t.Spells ⟨.number, n.text⟩) :
    Reading.Operand (.int n.value) [t] := by
  obtain ⟨kind, value⟩ := spells
  have other : ∀ s : String, s.toList.all Text.isDigit = false → t.value ≠ s := by
    intro s outside
    rw [value]
    exact n.text_ne outside
  have plain : Reading.Plain t := by
    refine ⟨?_, other _ (by decide), other _ (by decide)⟩
    simp [Reading.isUnary, other "-" (by decide), other "+" (by decide), other "++" (by decide),
      other "--" (by decide), other "!" (by decide)]
  exact .number kind plain (by rw [value]; exact n.numberOf_text)

theorem digitChar_ofNat {c : Char} (digit : c.isDigit = true) :
    digitChar (Fin.ofNat 10 (c.toNat - 48)) = c := by
  simp only [Char.isDigit, Bool.and_eq_true, decide_eq_true_eq] at digit
  have bounds : 48 ≤ c.toNat ∧ c.toNat ≤ 57 := digit
  have same : 48 + (c.toNat - 48) % 10 = c.toNat := by omega
  rw [digitChar, Fin.val_ofNat, same, Char.ofNat_toNat]

theorem length_toDigits {n limit : Nat} (positive : 0 < limit) (small : n < Nat.pow 10 limit) :
    (Nat.toDigits 10 n).length ≤ limit :=
  (Nat.length_toDigits_le_iff (by decide) positive).mpr small

/-- The numeral of a number, unless it has too many digits. -/
def ofNat (n : Nat) (small : n < Nat.pow 10 digitLimit) : Numeral where
  digits := (Nat.toDigits 10 n).map fun c => Fin.ofNat 10 (c.toNat - 48)
  nonempty := by simp [Nat.toDigits_ne_nil]
  short := by
    rw [List.length_map]
    exact length_toDigits (by decide) small

theorem chars_ofNat (n : Nat) (small : n < Nat.pow 10 digitLimit) :
    (ofNat n small).chars = Nat.toDigits 10 n := by
  rw [chars, ofNat, List.map_map]
  exact (List.map_congr_left fun c member =>
    digitChar_ofNat (Nat.isDigit_of_mem_toDigits (by decide) (by decide) member)).trans (List.map_id _)

theorem text_ofNat (n : Nat) (small : n < Nat.pow 10 digitLimit) :
    (ofNat n small).text = toString n := by
  rw [text, chars_ofNat]
  exact Nat.repr_eq_ofList_toDigits.symm

theorem value_ofNat (n : Nat) (small : n < Nat.pow 10 digitLimit) : (ofNat n small).value = n := by
  have read := Nat.ofDigitChars_toDigits (b := 10) (n := n) (by decide) (by decide)
  rw [Nat.ofDigitChars, ← chars_ofNat n small, chars] at read
  simp only [Nat.mul_comm 10] at read
  exact (digitsValue_map _ 0).symm.trans read

/-- A numeral is scanned as one word, up to what continues no number. -/
theorem scans_numeral (n : Numeral) {source : String} {rest : List Char} {words : List Word}
    (stop : ∀ c ∈ rest.head?, Token.continuesNumber c = false) (others : Token.Scans source rest words) :
    Token.Scans source (n.text.toList ++ rest) (⟨.number, n.text⟩ :: words) := by
  have numeral := n.isNumeral_chars
  rw [text, String.toList_ofList]
  cases written : n.chars with
  | nil =>
      rw [written] at numeral
      cases numeral
  | cons c tail =>
      rw [written] at numeral
      exact Token.scans_step (Token.steps_number source numeral stop) others

theorem digitChar_not_operator : ∀ d : Fin 10, Token.isOperatorChar (digitChar d) = false := by
  decide +kernel

/-- A numeral right after a minus is scanned by itself. -/
theorem scans_negative (n : Numeral) {source : String} {rest : List Char} {words : List Word}
    (stop : ∀ c ∈ rest.head?, Token.continuesNumber c = false) (others : Token.Scans source rest words) :
    Token.Scans source ('-' :: (n.text.toList ++ rest))
      (⟨.operator, "-"⟩ :: ⟨.number, n.text⟩ :: words) := by
  have digit : ∀ c ∈ (n.text.toList ++ rest).head?, Token.isOperatorChar c = false := by
    intro c first
    rw [text, String.toList_ofList, chars] at first
    cases digits : n.digits with
    | nil => exact absurd digits n.nonempty
    | cons d others =>
        obtain rfl : digitChar d = c := by simpa [digits] using first
        exact digitChar_not_operator d
  have known : operators.contains (String.ofList ['-']) = true := by decide
  exact Token.scans_step (Token.steps_operator source known digit (by simp))
    (n.scans_numeral stop others)

end Numeral

end Scriptlet.Number
