import Scriptlet.Proofs.Expr.Fuel

set_option autoImplicit false

/-!
Readings across a separator. A reading may take the separator that ends a statement and then look at the
first token of the next one. If it stops at a mark there, a number or a sign, then it stops in the same
place before all that begins alike. Each step is followed up to the separator, and the steps after that
are shown to look for nothing that sets the mark apart.
-/

namespace Scriptlet.Reading

/-- A mark to probe with: a number or a sign. -/
def Probes (m : Token) : Prop :=
  m.kind = some .number ∧ m.value = "0" ∨ m.kind = some .operator ∧ m.value = "-"

def Blank (tokens : List Token) : Prop := ∀ t ∈ tokens, t.kind = some .newline

/-- What no reading goes on with that stops at the mark. -/
def Alike (m : Token) (tail : List Token) : Prop :=
  ∀ t, tail.head? = some t → t.kind ≠ some .newline ∧ t.kind ≠ some .semicolon ∧ ¬ Branches t ∧
    (t.kind = some .operator → m.kind = some .operator ∧ precedence t ≤ precedence m)

/-- The steps that leave the mark also leave newlines and the tail in its place. -/
def Calm (m : Token) (tail : List Token) (symbols : List Symbol) : Prop :=
  ∀ rest blank, Blank blank → Derives symbols (m :: rest) (m :: rest) →
    ∃ kept, kept <:+ blank ∧ Derives symbols (blank ++ tail) (kept ++ tail)

section

variable {m : Token} {tail : List Token} {symbols : List Symbol}

theorem blank_suffix {blank kept : List Token} (newlines : Blank blank) (suffix : kept <:+ blank) :
    Blank kept :=
  fun t member => newlines t (suffix.subset member)

theorem head_blank_append {blank : List Token} {t : Token} (newlines : Blank blank)
    (first : (blank ++ tail).head? = some t) : t.kind = some .newline ∨ tail.head? = some t := by
  cases blank with
  | nil => exact .inr first
  | cons u blank =>
      obtain rfl : u = t := by simpa using first
      exact .inl (newlines u (by simp))

theorem calm_nil : Calm m tail [] := fun _ blank _ _ => ⟨blank, List.suffix_rfl, .nil⟩

theorem calm_of_takes (takes : Takes symbols) : Calm m tail symbols := by
  intro rest blank _ derives
  exact absurd (derives.shorter takes (by simp)) (by simp)

theorem calm_look {p : Option Token → Prop} (unseen : ¬ p (some m)) :
    Calm m tail (.look p :: symbols) := by
  intro rest blank _ derives
  exact absurd (derives_look.mp derives).1 unseen

theorem calm_endOr {p : Token → Prop} (newline : ∀ t : Token, t.kind = some .newline → p t)
    (agrees : p m → ∀ t, tail.head? = some t → p t) : Calm m tail [.endOr p] := by
  intro rest blank newlines derives
  have holds : p m := (derives_look.mp derives).1 m rfl
  refine ⟨blank, List.suffix_rfl, .look ?_ .nil⟩
  intro t first
  exact (head_blank_append newlines first).elim (newline t) (agrees holds t)

/-- Operators that stop at the mark stop at what is alike. -/
theorem calm_operators (alike : Alike m tail) {least : Int} {l e : Expr} :
    Calm m tail [.part (.operators least l) e] := by
  intro rest blank newlines derives
  obtain ⟨inner, production, steps⟩ := reads_iff.mp derives
  have idle : ¬ Takes inner := fun takes => absurd (steps.shorter takes (by simp)) (by simp)
  cases production with
  | operatorsStop =>
      have calm : Calm m tail
          [.endOr fun t => ¬ Operates least t ∧ t.kind ≠ some .semicolon] := by
        refine calm_endOr (fun t newline => by simp [Operates, newline]) ?_
        rintro ⟨stops, -⟩ t first
        obtain ⟨-, semicolon, -, bound⟩ := alike t first
        refine ⟨?_, semicolon⟩
        rintro ⟨operator, high⟩
        obtain ⟨kind, le⟩ := bound operator
        exact stops ⟨kind, by omega⟩
      obtain ⟨kept, suffix, further⟩ := calm rest blank newlines steps
      exact ⟨kept, suffix, Production.operatorsStop.reads further⟩
  | operatorsEnd => exact absurd trivial idle
  | post => exact absurd trivial idle
  | binary => exact absurd trivial idle

/-- A value is read from the mark on. -/
theorem calm_assignment (probes : Probes m) {binding : Option String} {name : String} {e : Expr} :
    Calm m tail [.part (.assignment binding name) e] := by
  intro rest blank newlines derives
  obtain ⟨inner, production, steps⟩ := reads_iff.mp derives
  have idle : ¬ Takes inner := fun takes => absurd (steps.shorter takes (by simp)) (by simp)
  cases production with
  | valueless =>
      obtain ⟨_, _, ⟨⟩, kind, -⟩ := derives_ahead.mp steps
      rcases probes with probe | probe <;> simp [probe.1] at kind
  | valuelessEnd => exact absurd trivial idle
  | value => simp [Takes, Symbol.ahead, Form.Takes] at idle
  | valueEnd => simp [Takes, Symbol.ahead, Form.Takes] at idle

theorem calm_parameters (probes : Probes m) {params : List Parameter} :
    Calm m tail [.part .parameters params] := by
  intro rest blank newlines derives
  obtain ⟨inner, production, steps⟩ := reads_iff.mp derives
  have idle : ¬ Takes inner := fun takes => absurd (steps.shorter takes (by simp)) (by simp)
  cases production with
  | parametersBrace =>
      obtain ⟨_, _, ⟨⟩, brace, -⟩ := derives_ahead.mp steps
      rcases probes with probe | probe <;> simp [probe.2] at brace
  | parametersStop => simp [Takes, Symbol.finish] at idle
  | parametersEnd => exact absurd trivial idle
  | parametersLast => exact absurd trivial idle
  | parametersMore => exact absurd trivial idle
  | parametersDefault => exact absurd trivial idle

/-- Dropping newlines leaves some of them and the tail. -/
theorem dropNewlines_blank (alike : Alike m tail) (limit : Option Nat) {blank : List Token}
    (newlines : Blank blank) :
    ∃ kept, kept <:+ blank ∧ dropNewlines limit (blank ++ tail) = kept ++ tail := by
  induction blank generalizing limit with
  | nil =>
      refine ⟨[], List.suffix_rfl, ?_⟩
      cases tail with
      | nil => rfl
      | cons t tail => exact dropNewlines_cons tail limit (alike t rfl).1
  | cons t blank ih =>
      rw [List.cons_append, dropNewlines]
      split
      · have others : Blank blank := blank_suffix newlines (List.suffix_cons t blank)
        obtain ⟨kept, suffix, dropped⟩ := ih (limit.map (· - 1)) others
        exact ⟨kept, suffix.trans (List.suffix_cons t blank), dropped⟩
      · exact ⟨t :: blank, List.suffix_rfl, rfl⟩

theorem calm_newlines (probes : Probes m) (alike : Alike m tail) (limit : Option Nat)
    (calm : Calm m tail symbols) : Calm m tail (.newlines limit :: symbols) := by
  intro rest blank newlines derives
  have steps := derives_newlines.mp derives
  rw [dropNewlines_cons rest limit (by rcases probes with h | h <;> simp [h.1])] at steps
  obtain ⟨kept, suffix, dropped⟩ := dropNewlines_blank alike limit newlines
  obtain ⟨last, suffix', further⟩ := calm rest kept (blank_suffix newlines suffix) steps
  refine ⟨last, suffix'.trans suffix, .newlines ?_⟩
  rwa [dropped]

/-- The steps that may end with a separator. -/
def Symbol.MayEnd : Symbol → Prop
  | .token t => Terminates t
  | .look _ => False
  | .newlines _ | .skip | .part _ _ => True

/-- All steps after one that may end with a separator are calm. -/
def Tame (m : Token) (tail : List Token) : List Symbol → Prop
  | [] => True
  | symbol :: symbols => (symbol.MayEnd → Calm m tail symbols) ∧ Tame m tail symbols

theorem Production.tame (probes : Probes m) (alike : Alike m tail) {f : Form} {a : f.Result}
    (production : Production f a symbols) : Tame m tail symbols := by
  have branches : Calm m tail [.endOr (¬ Branches ·)] := by
    refine calm_endOr (fun t newline => by simp [Branches, newline]) ?_
    exact fun _ t first => (alike t first).2.2.1
  have closes : Calm m tail [.ahead ClosesBrace] := by
    refine calm_look ?_
    rintro ⟨_, ⟨⟩, kind, -⟩
    rcases probes with probe | probe <;> simp [probe.1] at kind
  have comma : Calm m tail [.endOr (·.kind = some .comma)] := by
    refine calm_look fun kind => ?_
    rcases probes with probe | probe <;> simp [probe.1] at kind
  have lastBranch : Calm m tail [.newlines none, .endOr (¬ Branches ·)] :=
    calm_newlines probes alike none branches
  have lastEntry : Calm m tail [.newlines none, .ahead ClosesBrace] :=
    calm_newlines probes alike none closes
  cases production
  all_goals
    simp only [Tame, and_true]
    repeat' apply And.intro
    all_goals
      intro ends
      first
        | exact ends.elim
        | exact calm_nil
        | exact calm_operators alike
        | exact calm_assignment probes
        | exact calm_parameters probes
        | assumption
        | (refine calm_of_takes ?_; simp [Takes, Form.Takes, Symbol.finish, Symbol.ahead]; done)
        | grind [Symbol.MayEnd, Terminates, InPath, Keyword, Binds]

/-- A suffix that holds the mark is the mark's, or it also holds the separator before it. -/
theorem suffix_cases {front left rest : List Token} {s : Token}
    (suffix : left <:+ front ++ s :: m :: rest) (holds : m :: rest <:+ left) :
    left = m :: rest ∨ ∃ front', front' <:+ front ∧ left = front' ++ s :: m :: rest := by
  obtain ⟨taken, same⟩ := suffix
  obtain ⟨kept, rfl⟩ := holds
  have same : (taken ++ kept) = front ++ [s] := by
    refine (List.append_left_inj (m :: rest)).mp ?_
    simpa using same
  rcases List.eq_nil_or_concat kept with rfl | ⟨kept, u, rfl⟩
  · exact .inl rfl
  · rw [List.concat_eq_append, ← List.append_assoc] at same
    obtain ⟨rfl, same⟩ := List.append_inj' same rfl
    obtain rfl : u = s := by simpa using same
    exact .inr ⟨kept, List.suffix_append taken kept, by simp⟩

/-- What leaves the mark after a separator leaves all that is alike in its place. -/
theorem Derives.seam (probes : Probes m) (alike : Alike m tail) {tokens left : List Token}
    (derives : Derives symbols tokens left) (tame : Tame m tail symbols) {s : Token}
    (ends : Terminates s) {rest : List Token} (leaves : left = m :: rest) {blank : List Token}
    (newlines : Blank blank) (front : List Token) (given : tokens = front ++ s :: m :: rest) :
    ∃ kept, kept <:+ blank ∧ Derives symbols (front ++ s :: (blank ++ tail)) (kept ++ tail) := by
  induction derives generalizing front rest with
  | nil =>
      rw [leaves] at given
      have lengths := congrArg List.length given
      simp only [List.length_cons, List.length_append] at lengths
      omega
  | @token u symbols tokens left others ih =>
      cases front with
      | nil =>
          obtain ⟨rfl, rfl⟩ := List.cons.inj given
          subst leaves
          obtain ⟨kept, suffix, further⟩ := tame.1 ends rest blank newlines others
          exact ⟨kept, suffix, .token further⟩
      | cons u front =>
          obtain ⟨rfl, rfl⟩ := List.cons.inj given
          obtain ⟨kept, suffix, further⟩ := ih tame.2 leaves front rfl
          exact ⟨kept, suffix, .token further⟩
  | look seen others ih =>
      obtain ⟨kept, suffix, further⟩ := ih tame.2 leaves front given
      subst given
      refine ⟨kept, suffix, .look ?_ further⟩
      cases front <;> exact seen
  | @newlines limit symbols tokens left others ih =>
      subst given leaves
      have drops : ∀ back, dropNewlines limit (front ++ s :: back) =
          dropNewlines limit ((front ++ [s]) ++ back) := by simp
      rcases dropNewlines_append limit (front ++ [s]) with ⟨some, stops⟩ | ⟨-, limit', goesOn⟩
      · have kept := drops (m :: rest)
        rw [stops] at kept
        rcases suffix_cases (dropNewlines_suffix ..) others.suffix with same | ⟨front', -, same⟩
        · exact absurd (List.append_left_eq_self.mp (kept.symm.trans same)) some
        · obtain ⟨kept', suffix, further⟩ := ih tame.2 rfl front' same
          refine ⟨kept', suffix, .newlines ?_⟩
          have before : dropNewlines limit (front ++ [s]) = front' ++ [s] := by
            refine (List.append_left_inj (m :: rest)).mp ?_
            rw [← kept, same]
            simp
          rw [drops, stops, before]
          simpa using further
      · rw [drops, goesOn] at others
        rw [dropNewlines_cons rest limit' (by rcases probes with h | h <;> simp [h.1])] at others
        obtain ⟨kept, suffix, dropped⟩ := dropNewlines_blank alike limit' newlines
        obtain ⟨last, suffix', further⟩ :=
          tame.1 trivial rest kept (blank_suffix newlines suffix) others
        refine ⟨last, suffix'.trans suffix, .newlines ?_⟩
        rwa [drops, goesOn, dropped]
  | @skip symbols tokens left others ih =>
      subst given
      cases front with
      | nil =>
          subst leaves
          obtain ⟨kept, suffix, further⟩ := tame.1 trivial rest blank newlines others
          exact ⟨kept, suffix, .skip further⟩
      | cons u front =>
          obtain ⟨kept, suffix, further⟩ := ih tame.2 leaves front rfl
          exact ⟨kept, suffix, .skip further⟩
  | @part f a inner symbols tokens middle left production first others ihFirst ihOthers =>
      subst given leaves
      rcases suffix_cases first.suffix others.suffix with rfl | ⟨front', suffix', rfl⟩
      · obtain ⟨kept, suffix, reads⟩ := ihFirst (production.tame probes alike) rfl front rfl
        obtain ⟨last, suffix', further⟩ :=
          tame.1 trivial rest kept (blank_suffix newlines suffix) others
        exact ⟨last, suffix'.trans suffix, .part production reads further⟩
      · obtain ⟨kept, suffix, further⟩ := ihOthers tame.2 rfl front' rfl
        obtain ⟨taken, rfl⟩ := suffix'
        exact ⟨kept, suffix, .part production (first.exchange (blank ++ tail)) further⟩

theorem Sequence.suffix {tokens rest : List Token} {program : List Expr}
    (sequence : Sequence tokens program rest) : rest <:+ tokens := by
  induction sequence with
  | nil => exact List.suffix_rfl
  | newline kind others ih => exact ih.trans (List.suffix_cons ..)
  | statement kind first others ih => exact ih.trans first.suffix

/-- Statements take tokens. -/
theorem Sequence.idle {tokens : List Token} {program : List Expr}
    (sequence : Sequence tokens program tokens) : program = [] := by
  cases sequence with
  | nil => rfl
  | newline kind others =>
      have shorter := others.suffix.length_le
      rw [List.length_cons] at shorter
      omega
  | statement kind first others =>
      have shorter := others.suffix.length_le
      have shortest := first.shorter (.inl trivial) (by simp)
      omega

theorem Sequence.append {tokens left rest : List Token} {program others : List Expr}
    (first : Sequence tokens program left) (second : Sequence left others rest) :
    Sequence tokens (program ++ others) rest := by
  induction first with
  | nil => exact second
  | newline kind _ ih => exact .newline kind (ih second)
  | statement kind first _ ih => exact .statement kind first (ih second)

theorem Sequence.split {tokens rest : List Token} {program others : List Expr}
    (sequence : Sequence tokens (program ++ others) rest) :
    ∃ left, Sequence tokens program left ∧ Sequence left others rest := by
  generalize same : program ++ others = all at sequence
  induction sequence generalizing program with
  | @nil tokens =>
      obtain ⟨rfl, rfl⟩ := List.append_eq_nil_iff.mp same
      exact ⟨tokens, .nil, .nil⟩
  | newline kind _ ih =>
      obtain ⟨left, first, second⟩ := ih same
      exact ⟨left, .newline kind first, second⟩
  | @statement t tokens left rest e all kind first sequence ih =>
      cases program with
      | nil =>
          obtain rfl : others = e :: all := same
          exact ⟨t :: tokens, .nil, .statement kind first sequence⟩
      | cons e' program =>
          obtain ⟨rfl, rest⟩ := List.cons.inj same
          obtain ⟨middle, before, after⟩ := ih rest
          exact ⟨middle, .statement kind first before, after⟩

theorem sequence_blank {blank : List Token} {program : List Expr} (newlines : Blank blank) :
    Sequence (blank ++ tail) program [] ↔ Sequence tail program [] := by
  induction blank with
  | nil => rfl
  | cons t blank ih =>
      have further := ih (blank_suffix newlines (List.suffix_cons t blank))
      rw [← further]
      constructor
      · intro sequence
        cases sequence with
        | newline kind others => exact others
        | statement kind first others => exact absurd (newlines t (by simp)) kind
      · exact .newline (newlines t (by simp))

/-- What leaves the mark after a separator leaves all that is alike in its place. -/
theorem Sequence.seam (probes : Probes m) (alike : Alike m tail) {tokens left : List Token}
    {program : List Expr} (sequence : Sequence tokens program left) {s : Token}
    (ends : Terminates s) {rest : List Token} (leaves : left = m :: rest) {blank : List Token}
    (newlines : Blank blank) (front : List Token) (given : tokens = front ++ s :: m :: rest) :
    ∃ kept, kept <:+ blank ∧ Sequence (front ++ s :: (blank ++ tail)) program (kept ++ tail) := by
  induction sequence generalizing front with
  | nil =>
      rw [leaves] at given
      have lengths := congrArg List.length given
      simp only [List.length_cons, List.length_append] at lengths
      omega
  | @newline t tokens left program kind others ih =>
      cases front with
      | nil =>
          obtain ⟨rfl, rfl⟩ := List.cons.inj given
          subst leaves
          rw [others.idle]
          exact ⟨blank, List.suffix_rfl, .newline kind .nil⟩
      | cons u front =>
          obtain ⟨rfl, rfl⟩ := List.cons.inj given
          obtain ⟨kept, suffix, further⟩ := ih leaves front rfl
          exact ⟨kept, suffix, .newline kind further⟩
  | @statement t tokens middle left e program kind first others ih =>
      have reads : ∃ kept, kept <:+ blank ∧ ∃ middle',
          Reads .statement (front ++ s :: (blank ++ tail)) e middle' ∧
          Sequence middle' program (kept ++ tail) := by
        rw [given] at first
        subst leaves
        rcases suffix_cases first.suffix others.suffix with rfl | ⟨front', ⟨taken, rfl⟩, rfl⟩
        · have tame : Tame m tail [.part .statement e] := ⟨fun _ => calm_nil, trivial⟩
          obtain ⟨kept, suffix, reads⟩ := first.seam probes alike tame ends rfl newlines front rfl
          rw [others.idle]
          exact ⟨kept, suffix, kept ++ tail, reads, .nil⟩
        · obtain ⟨kept, suffix, further⟩ := ih rfl front' rfl
          exact ⟨kept, suffix, front' ++ s :: (blank ++ tail), first.exchange (blank ++ tail), further⟩
      obtain ⟨kept, suffix, middle', reads, further⟩ := reads
      refine ⟨kept, suffix, ?_⟩
      cases front with
      | nil =>
          obtain ⟨rfl, -⟩ := List.cons.inj given
          exact .statement kind reads further
      | cons u front =>
          obtain ⟨rfl, -⟩ := List.cons.inj given
          exact .statement kind reads further

end

end Scriptlet.Reading
