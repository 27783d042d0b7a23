import Scriptlet.Proofs.Expr.Fuel

set_option autoImplicit false

/-!
Reading ends. With fuel in proportion to the tokens no reader runs out of it, and more fuel changes
nothing, also where the reading fails. The rank of a form counts the readers that may call each other
before a token is taken, as it does for the readings that succeed.
-/

namespace Scriptlet.Reading

variable {α β : Type}

/-- Two readings do the same with the tokens, and do not run out of fuel. -/
structure Settled (r s : Reading α) (tokens : List Token) : Prop where
  same : s.run tokens = r.run tokens
  ends : (r.run tokens).1 ≠ .error .outOfFuel

section Steps

variable {tokens : List Token} {r s : Reading α} {k l : α → Reading β}

theorem settled_pure (a : α) : Settled (pure a) (pure a) tokens := ⟨rfl, by simp⟩

theorem settled_throw {fault : Fault} (other : fault ≠ .outOfFuel) :
    Settled (throw fault : Reading α) (throw fault) tokens :=
  ⟨rfl, by simpa using other⟩

theorem Settled.bind (first : Settled r s tokens)
    (others : ∀ a left, r.run tokens = (.ok a, left) → Settled (k a) (l a) left) :
    Settled (r >>= k) (s >>= l) tokens := by
  obtain ⟨same, ends⟩ := first
  rcases ran : r.run tokens with ⟨fault | a, left⟩
  · rw [ran] at ends
    exact ⟨by simp [same, ran], by simpa [ran] using ends⟩
  · obtain ⟨same', ends'⟩ := others a left ran
    exact ⟨by simp [same, ran, same'], by simpa [ran] using ends'⟩

/-- Both readings make the same step first. -/
theorem settled_step {outcome : Except Fault α} {left : List Token}
    (ran : r.run tokens = (outcome, left)) (ends : outcome ≠ .error .outOfFuel)
    (others : ∀ a, outcome = .ok a → Settled (k a) (l a) left) :
    Settled (r >>= k) (r >>= l) tokens := by
  refine Settled.bind ⟨rfl, by rwa [ran]⟩ fun a left' ran' => ?_
  obtain ⟨rfl, rfl⟩ := Prod.mk.inj (ran.symm.trans ran')
  exact others a rfl

theorem settled_current {k l : Option Token → Reading β}
    (others : Settled (k tokens.head?) (l tokens.head?) tokens) :
    Settled (current >>= k) (current >>= l) tokens :=
  settled_step (run_current tokens) (by simp) (by rintro _ ⟨⟩; exact others)

theorem settled_next {k l : Option Token → Reading β}
    (others : Settled (k tokens.head?) (l tokens.head?) tokens.tail) :
    Settled (next >>= k) (next >>= l) tokens :=
  settled_step (run_next tokens) (by simp) (by rintro _ ⟨⟩; exact others)

theorem settled_skipNewlines {limit : Option Nat} {k l : Option Token → Reading β}
    (others : ∀ left, left.length ≤ tokens.length → dropNewlines limit tokens = left →
      Settled (k left.head?) (l left.head?) left) :
    Settled (skipNewlines limit >>= k) (skipNewlines limit >>= l) tokens :=
  settled_step (run_skipNewlines tokens limit) (by simp)
    (by rintro _ ⟨⟩; exact others _ (dropNewlines_suffix limit tokens).length_le rfl)

theorem settled_demand {member : String} {o : Option Token} {k l : Token → Reading β}
    (others : ∀ t, o = some t → Settled (k t) (l t) tokens) :
    Settled (demand member o >>= k) (demand member o >>= l) tokens := by
  cases o with
  | none => exact settled_step rfl (by simp) (by rintro _ ⟨⟩)
  | some t =>
      refine settled_step (run_demand_some tokens member t) (by simp) ?_
      rintro _ ⟨⟩
      exact others t rfl

theorem settled_accept {member : String} {p : Token → Prop} [DecidablePred p] {fault : Token → Fault}
    {k l : Token → Reading β} (other : ∀ t, fault t ≠ .outOfFuel)
    (others : ∀ t left, tokens = t :: left → Settled (k t) (l t) left) :
    Settled (accept member p fault >>= k) (accept member p fault >>= l) tokens := by
  cases tokens with
  | nil => exact settled_step rfl (by simp) (by rintro _ ⟨⟩)
  | cons t tokens =>
    by_cases passes : p t
    · refine settled_step (run_accept tokens passes) (by simp) ?_
      rintro _ ⟨⟩
      exact others t tokens rfl
    · refine settled_step (run_accept_other tokens passes) (by simpa using other t) ?_
      rintro _ ⟨⟩

theorem settled_take {kind : TokenKind} {k l : Token → Reading β}
    (others : ∀ t left, tokens = t :: left → Settled (k t) (l t) left) :
    Settled (take kind >>= k) (take kind >>= l) tokens :=
  settled_accept (by simp) others

theorem settled_takeOneOf {kinds : List TokenKind} {k l : Token → Reading β}
    (others : ∀ t left, tokens = t :: left → Settled (k t) (l t) left) :
    Settled (takeOneOf kinds >>= k) (takeOneOf kinds >>= l) tokens :=
  settled_accept (by simp) others

theorem settled_takeSpelled {spelling : String} {k l : Token → Reading β}
    (others : ∀ t left, tokens = t :: left → Settled (k t) (l t) left) :
    Settled (takeSpelled spelling >>= k) (takeSpelled spelling >>= l) tokens :=
  settled_accept (by simp) others

theorem settled_currentKind {k l : Option TokenKind → Reading β}
    (others : ∀ t left, tokens = t :: left → Settled (k t.kind) (l t.kind) tokens) :
    Settled (currentKind >>= k) (currentKind >>= l) tokens := by
  cases tokens with
  | nil => exact settled_step rfl (by simp) (by rintro _ ⟨⟩)
  | cons t left =>
      refine settled_step (run_currentKind left t) (by simp) ?_
      rintro _ ⟨⟩
      exact others t left rfl

theorem settled_currentValue {k l : String → Reading β}
    (others : ∀ t left, tokens = t :: left → Settled (k t.value) (l t.value) tokens) :
    Settled (currentValue >>= k) (currentValue >>= l) tokens := by
  cases tokens with
  | nil => exact settled_step rfl (by simp) (by rintro _ ⟨⟩)
  | cons t left =>
      refine settled_step (run_currentValue left t) (by simp) ?_
      rintro _ ⟨⟩
      exact others t left rfl

/-- Both readings take the same branch first. -/
theorem settled_branch {c : Prop} [Decidable c] {r' s' : Reading α} (yes : Settled r s tokens)
    (no : Settled r' s' tokens) (others : ∀ a left, Settled (k a) (l a) left) :
    Settled (if c then r >>= k else r' >>= k) (if c then s >>= l else s' >>= l) tokens := by
  split
  · exact yes.bind fun a left _ => others a left
  · exact no.bind fun a left _ => others a left

theorem settled_takeIf {kinds : List TokenKind} {k l : Option Token → Reading β}
    (others : ∀ o left, left.length ≤ tokens.length → Settled (k o) (l o) left) :
    Settled (takeIf (.oneOf kinds) >>= k) (takeIf (.oneOf kinds) >>= l) tokens := by
  cases tokens with
  | nil => exact settled_step rfl (by simp) (by rintro _ ⟨⟩)
  | cons t tokens =>
    by_cases wanted : ∃ k, k ∈ kinds ∧ t.kind = some k
    · have ran : (takeIf (.oneOf kinds)).run (t :: tokens) = (.ok (some t), tokens) := by
        simp [takeIf, wanted]
      exact settled_step ran (by simp) fun o _ => others o tokens (by simp)
    · have ran : (takeIf (.oneOf kinds)).run (t :: tokens) = (.ok none, t :: tokens) := by
        simp [takeIf, wanted]
      exact settled_step ran (by simp) fun o _ => others o (t :: tokens) Nat.le.refl

/-- A reading that gets the fuel for the tokens it is run on. -/
theorem settled_fuelled {r : Nat → Reading α}
    (settled : Settled (r (fuelFor tokens)) (r (fuelFor tokens)) tokens) :
    Settled (fuelled r) (fuelled r) tokens :=
  ⟨rfl, settled.ends⟩

theorem numberOf_ends (text : String) : numberOf text ≠ .error .outOfFuel := by
  have int : Number.readInt text ≠ .error .outOfFuel := by
    rw [Number.readInt]
    grind
  have float : Number.readFloat text ≠ .error .outOfFuel := by
    rw [Number.readFloat]
    grind
  rw [numberOf]
  split
  · cases h : Number.readFloat text with
    | ok x => exact fun ended => by cases ended
    | error fault => exact fun ended => by cases ended; exact float h
  · cases h : Number.readInt text with
    | ok x => exact fun ended => by cases ended
    | error fault => exact fun ended => by cases ended; exact int h

theorem settled_numberOf (text : String) :
    Settled (liftM (numberOf text) : Reading Expr) (liftM (numberOf text)) tokens :=
  ⟨rfl, numberOf_ends text⟩

end Steps

theorem settled_path {n m : Nat} (le : n ≤ m) {tokens : List Token}
    (enough : 8 * tokens.length + 1 ≤ n) (name : Option String) (parents : List (Option String)) :
    Settled (readModule n name parents) (readModule m name parents) tokens := by
  induction n generalizing m tokens name parents with
  | zero => omega
  | succ n ih =>
    obtain ⟨m, rfl⟩ : ∃ k, m = k + 1 := ⟨m - 1, by omega⟩
    rw [readModule, readModule]
    refine settled_current (settled_demand fun t first => ?_)
    obtain ⟨left, rfl⟩ := List.head?_eq_some_iff.mp first
    rw [List.length_cons] at enough
    split
    · exact settled_pure _
    iterate 2
      · exact settled_takeOneOf fun _ _ _ => settled_pure _
    iterate 2
      · refine settled_next (settled_current (settled_demand fun following _ => ?_))
        have enough : 8 * (t :: left).tail.length + 1 ≤ n := by
          rw [List.tail_cons]
          omega
        split
        iterate 2
          · exact ih (by omega) enough _ _
        iterate 2
          · exact settled_takeOneOf fun _ _ _ => settled_pure _
        · exact settled_pure _
    · exact settled_throw (by simp)

theorem settled_closeObject (entries : List (String × Value)) (tokens : List Token) :
    Settled (readEntries.closeObject entries) (readEntries.closeObject entries) tokens := by
  rw [readEntries.closeObject]
  refine settled_current (settled_demand fun t _ => ?_)
  split
  · exact settled_pure _
  · exact settled_throw (by simp)

mutual

theorem settled_entries {n m : Nat} (le : n ≤ m) {tokens : List Token}
    (enough : 8 * tokens.length + 2 ≤ n) (before : List (String × Value)) :
    Settled (readEntries n before) (readEntries m before) tokens := by
  match n, m with
  | 0, _ => omega
  | n + 1, 0 => omega
  | n + 1, m + 1 =>
    rw [readEntries, readEntries]
    refine settled_current ?_
    cases tokens with
    | nil => exact settled_closeObject before []
    | cons t tokens =>
      simp only [List.head?_cons]
      split
      · exact settled_closeObject before (t :: tokens)
      · refine Settled.bind (settled_entry (by omega) (by omega)) fun entry left read => ?_
        have shorter := (reads_entry read).shorter (.inl trivial) (by simp)
        simp only [List.length_cons] at enough shorter
        refine settled_skipNewlines fun after dropped _ => settled_currentKind fun t' _ _ => ?_
        split
        · exact settled_closeObject _ after
        · refine settled_take fun t left same => settled_entries (by omega) ?_ _
          rw [same, List.length_cons] at dropped
          omega
  termination_by n

theorem settled_entry {n m : Nat} (le : n ≤ m) {tokens : List Token}
    (enough : 8 * tokens.length + 1 ≤ n) : Settled (readEntry n) (readEntry m) tokens := by
  match n, m with
  | 0, _ => omega
  | n + 1, 0 => omega
  | n + 1, m + 1 =>
    rw [readEntry, readEntry]
    refine settled_skipNewlines fun left dropped _ => settled_takeOneOf fun key _ same => ?_
    rw [same, List.length_cons] at dropped
    refine settled_takeSpelled fun colon _ same => settled_currentKind fun t _ _ => ?_
    rw [same, List.length_cons] at dropped
    split
    · refine settled_take fun _ left same => ?_
      rw [same, List.length_cons] at dropped
      refine Settled.bind (settled_entries (by omega) (by omega) []) fun object after _ => ?_
      exact settled_take fun _ _ _ => settled_pure _
    · exact settled_takeOneOf fun _ _ _ => settled_pure _
  termination_by n

end

theorem settled_import {n m : Nat} {tokens : List Token} (le : n ≤ m) (enough : fuelFor tokens ≤ n) :
    Settled (readModule n none []) (readModule m none []) tokens := by
  rw [fuelFor] at enough
  exact settled_path le (by omega) none []

theorem settled_object {n m : Nat} {tokens : List Token} (le : n ≤ m) (enough : fuelFor tokens ≤ n) :
    Settled (readObject n) (readObject m) tokens := by
  rw [fuelFor] at enough
  exact settled_entries le (by omega) []

theorem read_le (f : Form) {fuel : Nat} {tokens left : List Token} {a : f.Result}
    (read : (f.read fuel).run tokens = (.ok a, left)) : left.length ≤ tokens.length :=
  (reads_of_run read).suffix.length_le

theorem read_lt (f : Form) (takes : f.Takes) {fuel : Nat} {t : Token} {tokens left : List Token}
    {a : f.Result} (read : (f.read fuel).run (t :: tokens) = (.ok a, left)) :
    left.length ≤ tokens.length :=
  Nat.le_of_lt_succ ((reads_of_run read).shorter (.inl takes) (by simp))

/-- The readers that call each other do the same with either fuel, on tokens for which the lesser is
enough. -/
structure Settles (n m : Nat) : Prop where
  statement {tokens : List Token} (enough : 8 * tokens.length + 3 ≤ n) :
    Settled (readTop n) (readTop m) tokens
  expression (least : Int) {tokens : List Token} (enough : 8 * tokens.length + 2 ≤ n) :
    Settled (readExpr n least) (readExpr m least) tokens
  operators (least : Int) (l : Expr) {tokens : List Token} (enough : 8 * tokens.length + 1 ≤ n) :
    Settled (readOperators n least l) (readOperators m least l) tokens
  operand {tokens : List Token} (enough : 8 * tokens.length + 1 ≤ n) :
    Settled (readPrimary n) (readPrimary m) tokens
  usage (name : String) {tokens : List Token} (enough : 8 * tokens.length + 1 ≤ n) :
    Settled (readName n name) (readName m name) tokens
  assignment (binding : Option String) (name : String) {tokens : List Token}
    (enough : 8 * tokens.length + 3 ≤ n) :
    Settled (readAssignment n binding name) (readAssignment m binding name) tokens
  call {t : Token} {left : List Token} (enough : 8 * left.length + 8 ≤ n) :
    Settled (readArguments n) (readArguments m) (t :: left)
  arguments {tokens : List Token} (enough : 8 * tokens.length + 4 ≤ n) :
    Settled (readMoreArguments n) (readMoreArguments m) tokens
  signature {tokens : List Token} (enough : 8 * tokens.length + 2 ≤ n) :
    Settled (readParameters n) (readParameters m) tokens
  parameters {tokens : List Token} (enough : 8 * tokens.length + 1 ≤ n) :
    Settled (readMoreParameters n) (readMoreParameters m) tokens
  function {tokens : List Token} (enough : 8 * tokens.length + 3 ≤ n) :
    Settled (readFunction n) (readFunction m) tokens
  ret {tokens : List Token} (enough : 8 * tokens.length + 2 ≤ n) :
    Settled (readReturn n) (readReturn m) tokens
  conditional {tokens : List Token} (enough : 8 * tokens.length + 1 ≤ n) :
    Settled (readConditional n) (readConditional m) tokens
  block {tokens : List Token} (enough : 8 * tokens.length + 4 ≤ n) :
    Settled (readBlock n) (readBlock m) tokens
  statements {tokens : List Token} (enough : 8 * tokens.length + 4 ≤ n) :
    Settled (readStatements n) (readStatements m) tokens

theorem readParameters_le {fuel : Nat} {tokens left : List Token} {params : List Parameter}
    (read : (readParameters fuel).run tokens = (.ok params, left)) : left.length ≤ tokens.length := by
  cases fuel with
  | zero => cases read
  | succ fuel =>
    rw [readParameters] at read
    obtain ⟨t, inside, opened, after⟩ := run_bind_ok.mp read
    obtain ⟨rfl, -⟩ := run_take_ok.mp opened
    exact Nat.le_succ_of_le (read_le .parameters after)

section Readers

variable {n m : Nat} (known : Settles n m) {tokens : List Token}

include known

theorem settled_expression (least : Int) (enough : 8 * tokens.length + 2 ≤ n + 1) :
    Settled (readExpr (n + 1) least) (readExpr (m + 1) least) tokens := by
  rw [readExpr, readExpr]
  refine (known.operand (by omega)).bind fun l left read => known.operators least l ?_
  have shorter := read_le .operand read
  omega

theorem settled_operators (least : Int) (l : Expr) (enough : 8 * tokens.length + 1 ≤ n + 1) :
    Settled (readOperators (n + 1) least l) (readOperators (m + 1) least l) tokens := by
  rw [readOperators, readOperators]
  refine settled_current ?_
  cases tokens with
  | nil => exact settled_pure l
  | cons t tokens =>
    rw [List.length_cons] at enough
    simp only [List.head?_cons]
    split
    · refine settled_next ?_
      split
      · exact settled_pure _
      · rw [List.tail_cons]
        refine (known.expression _ (by omega)).bind fun r left read => ?_
        have shorter := read_le (.expression _) read
        exact known.operators least _ (by omega)
    · split
      · exact settled_take fun _ _ _ => settled_pure l
      · exact settled_pure l

theorem settled_operand (enough : 8 * tokens.length + 1 ≤ n + 1) :
    Settled (readPrimary (n + 1)) (readPrimary (m + 1)) tokens := by
  rw [readPrimary, readPrimary]
  refine settled_skipNewlines fun left shorter _ => ?_
  cases left with
  | nil => exact settled_pure _
  | cons t left =>
    rw [List.length_cons] at shorter
    simp only [List.head?_cons]
    split
    · refine settled_next ?_
      rw [List.tail_cons]
      split
      · exact (known.operand (by omega)).bind fun _ _ _ => settled_pure _
      · exact (known.expression _ (by omega)).bind fun _ _ _ => settled_pure _
    split
    · refine settled_take fun _ left' same => ?_
      obtain ⟨-, rfl⟩ := List.cons.inj same
      refine (known.expression 0 (by omega)).bind fun _ _ _ => ?_
      exact settled_take fun _ _ _ => settled_pure _
    split
    · refine settled_take fun _ left' same => ?_
      obtain ⟨-, rfl⟩ := List.cons.inj same
      refine (settled_fuelled (settled_object Nat.le.refl Nat.le.refl)).bind fun _ _ _ => ?_
      exact settled_take fun _ _ _ => settled_pure _
    split
    · exact settled_next (settled_numberOf _)
    · exact settled_next (settled_pure _)
    · refine settled_next (known.usage t.value ?_)
      rw [List.tail_cons]
      omega
    · refine settled_next ?_
      rw [List.tail_cons]
      split
      · exact settled_pure _
      refine settled_currentValue fun following left' same => ?_
      split
      · rw [same, List.length_cons] at shorter
        subst same
        exact (known.call (by omega)).bind fun _ _ _ => settled_pure _
      split
      · exact settled_throw (by simp)
      · exact settled_throw (by simp)
    · exact settled_throw (by simp)

theorem settled_usage (name : String) (enough : 8 * tokens.length + 1 ≤ n + 1) :
    Settled (readName (n + 1) name) (readName (m + 1) name) tokens := by
  rw [readName, readName]
  refine settled_currentValue fun t left same => ?_
  subst same
  rw [List.length_cons] at enough
  split
  · exact settled_next ((known.statement (by rw [List.tail_cons]; omega)).bind fun _ _ _ =>
      settled_pure _)
  split
  · exact (known.call (by omega)).bind fun _ _ _ => settled_pure _
  split
  · exact settled_next (known.assignment none name (by rw [List.tail_cons]; omega))
  · exact settled_pure _

theorem settled_assignment (binding : Option String) (name : String)
    (enough : 8 * tokens.length + 3 ≤ n + 1) :
    Settled (readAssignment (n + 1) binding name) (readAssignment (m + 1) binding name) tokens := by
  rw [readAssignment, readAssignment]
  refine settled_currentKind fun t left same => ?_
  split
  · exact settled_pure _
  · refine settled_branch (settled_pure Expr.missing) (known.expression 0 (by omega))
      fun value left => settled_current ?_
    split
    · exact settled_pure _
    split
    · exact settled_pure _
    · exact settled_takeOneOf fun _ _ _ => settled_pure _

theorem settled_call {t : Token} {left : List Token} (enough : 8 * left.length + 8 ≤ n + 1) :
    Settled (readArguments (n + 1)) (readArguments (m + 1)) (t :: left) := by
  rw [readArguments, readArguments]
  refine settled_take fun _ left' same => known.arguments ?_
  obtain ⟨-, rfl⟩ := List.cons.inj same
  omega

theorem settled_arguments (enough : 8 * tokens.length + 4 ≤ n + 1) :
    Settled (readMoreArguments (n + 1)) (readMoreArguments (m + 1)) tokens := by
  rw [readMoreArguments, readMoreArguments]
  refine settled_current ?_
  cases tokens with
  | nil => exact settled_pure _
  | cons t tokens =>
    rw [List.length_cons] at enough
    simp only [List.head?_cons]
    split
    · exact settled_take fun _ _ _ => settled_pure _
    refine (known.statement (by rw [List.length_cons]; omega)).bind fun argument left read => ?_
    have shorter := read_lt .statement trivial read
    refine settled_currentValue fun following left' same => ?_
    split
    · refine settled_takeIf fun _ after dropped => ?_
      exact (known.arguments (by omega)).bind fun _ _ _ => settled_pure _
    · exact settled_take fun _ _ _ => settled_pure _

theorem settled_signature (enough : 8 * tokens.length + 2 ≤ n + 1) :
    Settled (readParameters (n + 1)) (readParameters (m + 1)) tokens := by
  rw [readParameters, readParameters]
  refine settled_take fun _ left same => known.parameters ?_
  rw [same, List.length_cons] at enough
  omega

theorem settled_parameters (enough : 8 * tokens.length + 1 ≤ n + 1) :
    Settled (readMoreParameters (n + 1)) (readMoreParameters (m + 1)) tokens := by
  rw [readMoreParameters, readMoreParameters]
  refine settled_current ?_
  cases tokens with
  | nil => exact settled_pure _
  | cons t tokens =>
    rw [List.length_cons] at enough
    simp only [List.head?_cons]
    split
    · exact settled_take fun _ _ _ => settled_pure _
    split
    · exact settled_pure _
    refine settled_next ?_
    split
    · refine settled_take fun name left same => ?_
      refine settled_current (settled_demand fun following first => ?_)
      rw [List.tail_cons] at same
      rw [same, List.length_cons] at enough
      split
      · exact (known.parameters (by omega)).bind fun _ _ _ => settled_pure _
      split
      · refine settled_next ?_
        have tail : left.tail.length ≤ left.length := by simp
        split
        · refine (known.expression 0 (by omega)).bind fun _ after read => settled_next ?_
          have shorter := read_le (.expression 0) read
          have tail : after.tail.length ≤ after.length := by simp
          exact (known.parameters (by omega)).bind fun _ _ _ => settled_pure _
        · exact (known.parameters (by omega)).bind fun _ _ _ => settled_pure _
      · exact settled_throw (by simp)
    · exact settled_throw (by simp)

theorem settled_function (enough : 8 * tokens.length + 3 ≤ n + 1) :
    Settled (readFunction (n + 1)) (readFunction (m + 1)) tokens := by
  rw [readFunction, readFunction]
  refine settled_take fun name left same => ?_
  rw [same, List.length_cons] at enough
  refine (known.signature (by omega)).bind fun params after read => ?_
  have shorter := readParameters_le read
  exact (known.block (by omega)).bind fun _ _ _ => settled_pure _

theorem settled_ret (enough : 8 * tokens.length + 2 ≤ n + 1) :
    Settled (readReturn (n + 1)) (readReturn (m + 1)) tokens := by
  rw [readReturn, readReturn]
  refine settled_next (settled_currentKind fun t left same => ?_)
  split
  · exact settled_next (settled_pure _)
  split
  · exact settled_pure _
  · refine (known.expression 0 ?_).bind fun _ _ _ => settled_pure _
    have tail := congrArg List.length same
    rw [List.length_tail, List.length_cons] at tail
    rw [List.length_tail]
    omega

theorem settled_conditional (enough : 8 * tokens.length + 1 ≤ n + 1) :
    Settled (readConditional (n + 1)) (readConditional (m + 1)) tokens := by
  rw [readConditional, readConditional]
  refine settled_next (settled_demand fun t first => ?_)
  obtain ⟨left, rfl⟩ := List.head?_eq_some_iff.mp first
  rw [List.tail_cons]
  rw [List.length_cons] at enough
  split
  · exact (known.block (by omega)).bind fun _ _ _ => settled_pure _
  refine settled_take fun _ inside same => ?_
  rw [same, List.length_cons] at enough
  refine (known.expression 0 (by omega)).bind fun condition closing read => ?_
  have shorter := read_le (.expression 0) read
  refine settled_take fun _ after same => ?_
  rw [same, List.length_cons] at shorter
  refine (known.block (by omega)).bind fun body behind read => ?_
  have shorter := read_le .block read
  refine settled_skipNewlines fun rest dropped _ => ?_
  cases rest with
  | nil => exact settled_pure _
  | cons following rest =>
    simp only [List.head?_cons]
    split
    · exact (known.conditional (by omega)).bind fun _ _ _ => settled_pure _
    · exact settled_pure _

theorem settled_block (enough : 8 * tokens.length + 4 ≤ n + 1) :
    Settled (readBlock (n + 1)) (readBlock (m + 1)) tokens := by
  rw [readBlock, readBlock]
  refine settled_current (settled_demand fun t first => ?_)
  split
  · refine settled_take fun _ left same => settled_skipNewlines fun inside dropped _ => ?_
    rw [same, List.length_cons] at enough
    exact known.statements (by omega)
  · refine settled_skipNewlines fun left dropped _ => settled_currentKind fun _ _ _ => ?_
    split
    · exact settled_throw (by simp)
    · exact (known.statement (by omega)).bind fun _ _ _ => settled_pure _

theorem settled_statements (enough : 8 * tokens.length + 4 ≤ n + 1) :
    Settled (readStatements (n + 1)) (readStatements (m + 1)) tokens := by
  rw [readStatements, readStatements]
  refine settled_current ?_
  cases tokens with
  | nil => exact settled_throw (by simp)
  | cons t tokens =>
    rw [List.length_cons] at enough
    simp only [List.head?_cons]
    split
    · exact settled_next (settled_pure _)
    · refine (known.statement (by rw [List.length_cons]; omega)).bind fun _ left read => ?_
      have shorter := read_lt .statement trivial read
      refine settled_skipNewlines fun after dropped _ => ?_
      exact (known.statements (by omega)).bind fun _ _ _ => settled_pure _

theorem settled_statement (enough : 8 * tokens.length + 3 ≤ n + 1) :
    Settled (readTop (n + 1)) (readTop (m + 1)) tokens := by
  rw [readTop, readTop]
  refine settled_current ?_
  cases tokens with
  | nil => exact settled_pure _
  | cons t tokens =>
    have enough' := enough
    rw [List.length_cons] at enough'
    simp only [List.head?_cons]
    split
    · exact known.expression 0 (by omega)
    split
    · exact settled_next (settled_fuelled (settled_import Nat.le.refl Nat.le.refl))
    split
    · refine settled_next (settled_take fun name left same => ?_)
      rw [List.tail_cons] at same
      rw [same, List.length_cons] at enough'
      refine settled_current (settled_demand fun following _ => ?_)
      have tail : left.tail.length ≤ left.length := by simp
      split
      · exact settled_next (known.assignment _ _ (by omega))
      · exact settled_pure _
    split
    · exact settled_next (known.function (by rw [List.tail_cons]; omega))
    split
    · exact known.ret (by omega)
    split
    · exact known.conditional (by omega)
    split
    · exact settled_next (settled_throw (by simp))
    · exact settled_throw (by simp)

end Readers

theorem settles_zero (m : Nat) : Settles 0 m := by
  constructor
  all_goals intros; omega

theorem settles {n m : Nat} (le : n ≤ m) : Settles n m := by
  induction n generalizing m with
  | zero => exact settles_zero m
  | succ n ih =>
    obtain ⟨m, rfl⟩ : ∃ k, m = k + 1 := ⟨m - 1, by omega⟩
    have known : Settles n m := ih (by omega)
    exact {
      statement := settled_statement known
      expression least _ := settled_expression known least
      operators least l _ := settled_operators known least l
      operand := settled_operand known
      usage name _ := settled_usage known name
      assignment binding name _ := settled_assignment known binding name
      call := settled_call known
      arguments := settled_arguments known
      signature := settled_signature known
      parameters := settled_parameters known
      function := settled_function known
      ret := settled_ret known
      conditional := settled_conditional known
      block := settled_block known
      statements := settled_statements known }

theorem settled_top {n m : Nat} {tokens : List Token} (le : n ≤ m) (enough : fuelFor tokens ≤ n) :
    Settled (readTop n) (readTop m) tokens := by
  rw [fuelFor] at enough
  exact (settles le).statement (by omega)

/-- A program takes a token for each of its fuel. -/
theorem settled_program {n m : Nat} (le : n ≤ m) {tokens : List Token}
    (enough : tokens.length + 1 ≤ n) : Settled (readProgram n) (readProgram m) tokens := by
  induction n generalizing m tokens with
  | zero => omega
  | succ n ih =>
    obtain ⟨m, rfl⟩ : ∃ k, m = k + 1 := ⟨m - 1, by omega⟩
    rw [readProgram, readProgram]
    refine settled_current ?_
    cases tokens with
    | nil => exact settled_pure _
    | cons t tokens =>
      rw [List.length_cons] at enough
      simp only [List.head?_cons]
      split
      · exact settled_next (ih (by omega) (by rw [List.tail_cons]; omega))
      · refine (settled_fuelled (settled_top Nat.le.refl Nat.le.refl)).bind
          fun statement left read => ?_
        rw [run_fuelled] at read
        generalize fuelFor (t :: tokens) = fuel at read
        have shorter := read_lt .statement trivial read
        exact (ih (by omega) (by omega)).bind fun _ _ _ => settled_pure _

theorem ofTokens_eq_run (tokens : List Token) {fuel : Nat} (enough : tokens.length < fuel) :
    Expr.ofTokens tokens = ((readProgram fuel).run tokens).1 := by
  have most : tokens.length + 1 ≤ fuelFor tokens := by
    rw [fuelFor]
    omega
  -- Both are what the least fuel gives.
  rw [Expr.ofTokens, (settled_program most Nat.le.refl).same,
    (settled_program enough Nat.le.refl).same]

theorem ofTokens_ends (tokens : List Token) : Expr.ofTokens tokens ≠ .error .outOfFuel := by
  rw [ofTokens_eq_run tokens (Nat.lt_succ_self _)]
  exact (settled_program Nat.le.refl Nat.le.refl).ends

/-- A reader that ends, that takes tokens from the front, and that looks no further than the first
token it leaves. -/
structure OneAhead (reader : Nat → Reading α) : Prop where
  /-- With fuel for the tokens the reader does not run out of it, however much more there is. -/
  ends (tokens : List Token) : ∃ outcome : Except Fault α × List Token,
    outcome.1 ≠ .error .outOfFuel ∧
    ∀ fuel, fuelFor tokens ≤ fuel → (reader fuel).run tokens = outcome
  /-- What is left is a part of the tokens, and not all of them. -/
  takes {fuel : Nat} {tokens left : List Token} {a : α} :
    (reader fuel).run tokens = (.ok a, left) →
    left <:+ tokens ∧ (tokens ≠ [] → left.length < tokens.length)
  /-- Tokens after the first one left do not matter, not even for the fuel. -/
  ahead {fuel : Nat} {taken rest : List Token} {t : Token} {a : α} :
    (reader fuel).run (taken ++ t :: rest) = (.ok a, t :: rest) →
    ∀ rest' fuel', fuelFor taken ≤ fuel' →
      (reader fuel').run (taken ++ t :: rest') = (.ok a, t :: rest')

theorem Reads.lookahead {f : Form} {a : f.Result} {taken rest : List Token} {t : Token}
    (reads : Reads f (taken ++ t :: rest) a (t :: rest)) (rest' : List Token) :
    Reads f (taken ++ t :: rest') a (t :: rest') :=
  Derives.lookahead reads taken rest t rfl rfl rest'

theorem oneAhead (f : Form) (takes : f.Takes)
    (settled : ∀ {n m : Nat} {tokens : List Token}, n ≤ m → fuelFor tokens ≤ n →
      Settled (f.read n) (f.read m) tokens) : OneAhead fun fuel => f.read fuel where
  ends tokens :=
    ⟨_, (settled Nat.le.refl Nat.le.refl).ends, fun _ more => (settled more Nat.le.refl).same⟩
  takes read :=
    have reads := reads_of_run read
    ⟨reads.suffix, fun some => reads.shorter (.inl takes) some⟩
  ahead read rest' fuel' enough := by
    refine run_of_reads ((reads_of_run read).lookahead rest') ?_
    have rank : f.rank ≤ 4 := by cases f <;> simp [Form.rank]
    rw [fuelFor] at enough
    rw [List.length_append]
    omega

/-- Every list of tokens has a program or a fault, whatever the fuel beyond one for each token. The
readers of a statement, an expression and an operand take a token if there is one, and look at one
more. -/
theorem ofTokens_ends_oneAhead :
    (∀ tokens : List Token, Expr.ofTokens tokens ≠ .error .outOfFuel ∧
      ∀ fuel, tokens.length < fuel →
        ((readProgram fuel).run tokens).1 = Expr.ofTokens tokens) ∧
    OneAhead readTop ∧ (∀ least, OneAhead fun fuel => readExpr fuel least) ∧
    OneAhead readPrimary := by
  refine ⟨fun tokens => ?_, oneAhead .statement trivial settled_top,
    fun least => oneAhead (.expression least) trivial fun more enough => ?_,
    oneAhead .operand trivial fun more enough => ?_⟩
  · exact ⟨ofTokens_ends tokens, fun fuel enough => (ofTokens_eq_run tokens enough).symm⟩
  all_goals rw [fuelFor] at enough
  · exact (settles more).expression least (by omega)
  · exact (settles more).operand (by omega)

end Scriptlet.Reading
