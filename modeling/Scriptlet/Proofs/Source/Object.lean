import Mathlib.Data.List.Nodup
import Scriptlet.Proofs.Expr.Grammar

set_option autoImplicit false

/-!
Objects as they are written, and how they are read back. A key may be written more than once: the object
has it at its first place, with its last value (`Value.settled`).
-/

namespace Scriptlet

namespace Value

/-- Entries with every key once: a key that is written again keeps its place and takes the later value. -/
def settled : List (String × Value) → List (String × Value)
  | [] => []
  | (key, v) :: rest =>
    (key, (atKey? key (settled rest)).getD v) :: (settled rest).filter (·.1 ≠ key)

variable {key k : String} {v w : Value} {acc entries : List (String × Value)}

theorem putEntry_self (found : atKey? key acc = some v) : putEntry key v acc = acc := by
  induction acc with
  | nil => cases found
  | cons e acc ih =>
      rw [atKey?] at found
      rw [putEntry]
      split at found
      · rename_i here
        cases found
        rw [if_pos here]
      · rename_i other
        rw [if_neg other, ih found]

theorem atKey?_putEntry (acc : List (String × Value)) (k : String) (v : Value) (key : String) :
    atKey? key (putEntry k v acc) = if k = key then some v else atKey? key acc := by
  induction acc with
  | nil => rfl
  | cons e acc ih =>
      rw [putEntry]
      split
      · rename_i here
        subst here
        by_cases same : e.1 = key <;> simp [atKey?, same]
      · rename_i other
        rw [atKey?, ih]
        by_cases here : e.1 = key
        · have apart : k ≠ key := fun same => other (here.trans same.symm)
          simp [here, apart, atKey?]
        · simp [here, atKey?]

theorem putEntry_putEntry (acc : List (String × Value)) (k : String) (v w : Value) :
    putEntry k w (putEntry k v acc) = putEntry k w acc := by
  induction acc with
  | nil => simp [putEntry]
  | cons e acc ih => by_cases here : e.1 = k <;> simp [putEntry, here, ih]

/-- An entry that is there already can be changed before another one is put. -/
theorem putEntry_comm (other : k ≠ key) (found : (atKey? key acc).isSome) :
    putEntry key v (putEntry k w acc) = putEntry k w (putEntry key v acc) := by
  induction acc with
  | nil => cases found
  | cons e acc ih =>
      by_cases here : e.1 = key
      · have apart : e.1 ≠ k := fun same => other (same.symm.trans here)
        simp [putEntry, here, other.symm]
      · rw [atKey?, if_neg here] at found
        by_cases there : e.1 = k
        · simp [putEntry, there, other]
        · simp [putEntry, here, there, ih found]

/-- Putting entries on top of one with a key leaves it in its place, with the last value that is put. -/
theorem foldl_putEntry_later (distinct : (entries.map Prod.fst).Nodup) (found : atKey? key acc = some v) :
    entries.foldl (fun acc e => putEntry e.1 e.2 acc) acc =
      (entries.filter (·.1 ≠ key)).foldl (fun acc e => putEntry e.1 e.2 acc)
        (putEntry key ((atKey? key entries).getD v) acc) := by
  induction entries generalizing acc with
  | nil => exact (putEntry_self found).symm
  | cons e entries ih =>
      obtain ⟨new, distinct⟩ := List.nodup_cons.mp distinct
      by_cases here : e.1 = key
      · subst here
        have rest : entries.filter (·.1 ≠ e.1) = entries := by
          refine List.filter_eq_self.mpr fun d member => ?_
          simp only [ne_eq, decide_eq_true_eq]
          exact fun same => new (List.mem_map.mpr ⟨d, member, same⟩)
        rw [List.foldl_cons, List.filter_cons_of_neg (by simp), rest, atKey?, if_pos rfl,
          Option.getD_some]
      · have still : atKey? key (putEntry e.1 e.2 acc) = some v := by
          rw [atKey?_putEntry, if_neg here, found]
        have there : (atKey? key acc).isSome := by simp [found]
        rw [List.foldl_cons, ih distinct still, putEntry_comm here there,
          List.filter_cons_of_pos (by simpa using here), List.foldl_cons, atKey?, if_neg here]

theorem settled_distinct (entries : List (String × Value)) :
    ((settled entries).map Prod.fst).Nodup := by
  induction entries with
  | nil => exact List.nodup_nil
  | cons e entries ih =>
      rw [settled, List.map_cons, List.nodup_cons]
      refine ⟨by simp, ?_⟩
      exact ih.sublist (List.filter_sublist.map Prod.fst)

theorem foldl_putEntry_settled (entries acc : List (String × Value)) :
    entries.foldl (fun acc e => putEntry e.1 e.2 acc) acc =
      (settled entries).foldl (fun acc e => putEntry e.1 e.2 acc) acc := by
  induction entries generalizing acc with
  | nil => rfl
  | cons e entries ih =>
      have put : atKey? e.1 (putEntry e.1 e.2 acc) = some e.2 := by rw [atKey?_putEntry, if_pos rfl]
      rw [List.foldl_cons, ih, foldl_putEntry_later (settled_distinct entries) put, putEntry_putEntry]
      rfl

/-- A key that is new goes to the end. -/
theorem putEntry_fresh (fresh : key ∉ acc.map Prod.fst) : putEntry key v acc = acc ++ [(key, v)] := by
  induction acc with
  | nil => rfl
  | cons e acc ih =>
      simp only [List.map_cons, List.mem_cons, not_or] at fresh
      have other : e.1 ≠ key := fun same => fresh.1 same.symm
      rw [putEntry, if_neg other, ih fresh.2, List.cons_append]

theorem foldl_putEntry_distinct (distinct : ((acc ++ entries).map Prod.fst).Nodup) :
    entries.foldl (fun acc e => putEntry e.1 e.2 acc) acc = acc ++ entries := by
  induction entries generalizing acc with
  | nil => exact (List.append_nil acc).symm
  | cons e entries ih =>
      have fresh : e.1 ∉ acc.map Prod.fst := by
        rw [List.map_append, List.nodup_append] at distinct
        exact fun member => distinct.2.2 _ member _ List.mem_cons_self rfl
      rw [List.foldl_cons, putEntry_fresh fresh, ih, List.append_assoc, List.singleton_append]
      rwa [List.append_assoc, List.singleton_append]

/-- What entries build up when they are put one by one. -/
theorem foldl_putEntry_nil (entries : List (String × Value)) :
    entries.foldl (fun acc e => putEntry e.1 e.2 acc) [] = settled entries := by
  rw [foldl_putEntry_settled, foldl_putEntry_distinct (settled_distinct entries), List.nil_append]

end Value

namespace Source

/-- A key or a text inside of an object: a string or a bare name. -/
structure Label where
  word : Word
  wellFormed : word.wellFormed = true
  kind : word.kind = .string ∨ word.kind = .identifier

mutual

inductive Field
  | text (l : Label)
  | object (entries : Entries)

inductive Entries
  | none
  | more (key : Label) (field : Field) (rest : Entries)

end

mutual

def Field.value : Field → Value
  | .text l => .str l.word.value
  | .object entries => .obj (Value.settled entries.pairs)

/-- The entries in the order in which they are written. -/
def Entries.pairs : Entries → List (String × Value)
  | .none => []
  | .more key field rest => (key.word.value, field.value) :: rest.pairs

end

/-- The entries of the object that is written. -/
def Entries.list (entries : Entries) : List (String × Value) := Value.settled entries.pairs

def Entries.isNone : Entries → Bool
  | .none => true
  | .more .. => false

mutual

def Field.words : Field → List Word
  | .text l => [l.word]
  | .object entries => ⟨.lbrace, "\x7b"⟩ :: (entries.words ++ [⟨.rbrace, "\x7d"⟩])

/-- The words of entries, with a comma between any two of them. -/
def Entries.words : Entries → List Word
  | .none => []
  | .more key field rest =>
    key.word :: ⟨.operator, ":"⟩ ::
      (field.words ++ if rest.isNone then [] else ⟨.comma, ","⟩ :: rest.words)

end

mutual

theorem field_wellFormed : (field : Field) → ∀ w ∈ field.words, w.wellFormed = true
  | .text l => List.forall_mem_singleton.mpr l.wellFormed
  | .object entries => List.forall_mem_cons.mpr ⟨rfl, List.forall_mem_append.mpr
      ⟨entries_wellFormed entries, List.forall_mem_singleton.mpr rfl⟩⟩

theorem entries_wellFormed : (entries : Entries) → ∀ w ∈ entries.words, w.wellFormed = true
  | .none => by simp [Entries.words]
  | .more key field rest => by
      refine List.forall_mem_cons.mpr ⟨key.wellFormed, List.forall_mem_cons.mpr ⟨by decide, ?_⟩⟩
      refine List.forall_mem_append.mpr ⟨field_wellFormed field, ?_⟩
      split
      · simp
      · exact List.forall_mem_cons.mpr ⟨rfl, entries_wellFormed rest⟩

end

theorem pairs_of_isNone {entries : Entries} (nothing : entries.isNone = true) : entries.pairs = [] := by
  cases entries with
  | none => rfl
  | more => cases nothing

open Reading

section Steps

variable {n : Nat} {t close comma : Token} {tokens rest : List Token} {key : String} {value : Value}
  {acc : List (String × Value)}

theorem label_kind (l : Label) (spells : t.Spells l.word) :
    t.kind = some .string ∨ t.kind = some .identifier := by
  rw [spells.1]
  rcases l.kind with kind | kind <;> simp [kind]

theorem take_label (l : Label) (spells : t.Spells l.word) (rest : List Token) :
    (takeOneOf [.identifier, .string]).run (t :: rest) = (.ok t, rest) := by
  rcases label_kind l spells with kind | kind
  · exact run_takeOneOf rest kind (by simp)
  · exact run_takeOneOf rest kind (by simp)

theorem readEntries_close (closes : close.Spells ⟨.rbrace, "\x7d"⟩) :
    (readEntries (n + 1) acc).run (close :: rest) = (.ok (.obj acc), close :: rest) := by
  obtain ⟨kind, spelling⟩ := closes
  simp [readEntries, readEntries.closeObject, kind, spelling]

theorem readEntries_last (closes : close.Spells ⟨.rbrace, "\x7d"⟩) (other : t.kind ≠ some .rbrace)
    (entry : (readEntry n).run (t :: tokens) = (.ok (key, value), close :: rest)) :
    (readEntries (n + 1) acc).run (t :: tokens) =
      (.ok (.obj (Value.putEntry key value acc)), close :: rest) := by
  obtain ⟨kind, spelling⟩ := closes
  simp [readEntries, readEntries.closeObject, other, entry, dropNewlines, kind, spelling]

theorem readEntries_more (separates : comma.kind = some .comma) (other : t.kind ≠ some .rbrace)
    (entry : (readEntry n).run (t :: tokens) = (.ok (key, value), comma :: rest)) :
    (readEntries (n + 1) acc).run (t :: tokens) =
      (readEntries n (Value.putEntry key value acc)).run rest := by
  simp [readEntries, other, entry, dropNewlines, separates, run_take]

end Steps

mutual

theorem readEntry_field : (field : Field) → ∀ (l : Label) (fuel : Nat) (key colon : Token)
    (tokens rest : List Token), key.Spells l.word → colon.Spells ⟨.operator, ":"⟩ →
    Token.Spelled tokens field.words → tokens.length + 1 ≤ fuel →
    (readEntry fuel).run (key :: colon :: (tokens ++ rest)) = (.ok (l.word.value, field.value), rest)
  | .text text, l, fuel, key, colon, tokens, rest, spells, colons, spelled, enough => by
      simp only [Field.words, Token.spelled_cons, Token.spelled_nil] at spelled
      obtain ⟨word, -, rfl, spellsWord, rfl⟩ := spelled
      obtain ⟨n, rfl⟩ : ∃ n, fuel = n + 1 := ⟨fuel - 1, by omega⟩
      have notNewline : key.kind ≠ some .newline := by
        rcases label_kind l spells with kind | kind <;> simp [kind]
      have notBrace : word.kind ≠ some .lbrace := by
        rcases label_kind text spellsWord with kind | kind <;> simp [kind]
      simp [readEntry, dropNewlines, notNewline, take_label l spells, takeSpelled, colons.1, colons.2,
        notBrace, take_label text spellsWord, spells.2, spellsWord.2, Field.value]
  | .object entries, l, fuel, key, colon, tokens, rest, spells, colons, spelled, enough => by
      simp only [Field.words, Token.spelled_cons, Token.spelled_append, Token.spelled_nil] at spelled
      obtain ⟨first, -, rfl, opens, inside, -, rfl, spelled, last, -, rfl, closes, rfl⟩ := spelled
      simp only [List.length_cons, List.length_append, List.length_nil] at enough
      obtain ⟨n, rfl⟩ : ∃ n, fuel = n + 1 := ⟨fuel - 1, by omega⟩
      have notNewline : key.kind ≠ some .newline := by
        rcases label_kind l spells with kind | kind <;> simp [kind]
      have read := readEntries_entries entries n [] inside last rest spelled closes (by omega)
      rw [Value.foldl_putEntry_nil] at read
      simp [readEntry, dropNewlines, notNewline, take_label l spells, takeSpelled, colons.1, colons.2,
        opens.1, run_take, read, closes.1, spells.2, Field.value]

/-- The entries are put on top of those that were read before. -/
theorem readEntries_entries : (entries : Entries) → ∀ (fuel : Nat) (acc : List (String × Value))
    (tokens : List Token) (close : Token) (rest : List Token), Token.Spelled tokens entries.words →
    close.Spells ⟨.rbrace, "\x7d"⟩ → tokens.length + 1 ≤ fuel →
    (readEntries fuel acc).run (tokens ++ close :: rest) =
      (.ok (.obj (entries.pairs.foldl (fun acc e => Value.putEntry e.1 e.2 acc) acc)), close :: rest)
  | .none, fuel, acc, tokens, close, rest, spelled, closes, enough => by
      obtain rfl := Token.spelled_nil.mp spelled
      obtain ⟨n, rfl⟩ : ∃ n, fuel = n + 1 := ⟨fuel - 1, by omega⟩
      rw [List.nil_append, readEntries_close closes, Entries.pairs, List.foldl_nil]
  | .more l field others, fuel, acc, tokens, close, rest, spelled, closes, enough => by
      simp only [Entries.words, Token.spelled_cons, Token.spelled_append] at spelled
      obtain ⟨key, -, rfl, spells, colon, -, rfl, colons, front, back, rfl, spelledField, spelled⟩ :=
        spelled
      simp only [List.length_cons, List.length_append] at enough
      obtain ⟨n, rfl⟩ : ∃ n, fuel = n + 1 := ⟨fuel - 1, by omega⟩
      have entry : ∀ rest, (readEntry n).run (key :: colon :: (front ++ rest)) =
          (.ok (l.word.value, field.value), rest) := fun rest =>
        readEntry_field field l n key colon front rest spells colons spelledField (by omega)
      have notClosing : key.kind ≠ some .rbrace := by
        rcases label_kind l spells with kind | kind <;> simp [kind]
      rw [List.cons_append, List.cons_append, List.append_assoc, Entries.pairs, List.foldl_cons]
      cases nothing : others.isNone with
      | true =>
          simp only [nothing, if_true, Token.spelled_nil] at spelled
          subst spelled
          rw [List.nil_append, readEntries_last closes notClosing (entry (close :: rest)),
            pairs_of_isNone nothing, List.foldl_nil]
      | false =>
          simp only [nothing, Bool.false_eq_true, if_false, Token.spelled_cons] at spelled
          obtain ⟨comma, more, rfl, separates, spelled⟩ := spelled
          simp only [List.length_cons] at enough
          rw [List.cons_append, readEntries_more separates.1 notClosing (entry (comma :: _))]
          exact readEntries_entries others n _ more close rest spelled closes (by omega)

end

/-- An object in braces is read as a whole. -/
theorem readPrimary_object (entries : Entries) {n : Nat} {opening close : Token}
    {tokens rest : List Token} (opens : opening.Spells ⟨.lbrace, "\x7b"⟩)
    (spelled : Token.Spelled tokens entries.words) (closes : close.Spells ⟨.rbrace, "\x7d"⟩) :
    (readPrimary (n + 1)).run (opening :: (tokens ++ close :: rest)) =
      (.ok (.datum (.obj entries.list)), rest) := by
  have enough : tokens.length + 1 ≤ fuelFor (tokens ++ close :: rest) := by
    rw [fuelFor, List.length_append]
    omega
  have read := readEntries_entries entries _ [] tokens close rest spelled closes enough
  rw [Value.foldl_putEntry_nil] at read
  have plain : isUnary opening = false := by simp [isUnary, opens.2]
  simp [readPrimary, dropNewlines, opens.1, plain, opens.2, run_take, readObject, read, closes.1,
    Entries.list]

end Source

end Scriptlet
