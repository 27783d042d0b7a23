import Scriptlet.Proofs.Expr.Production

set_option autoImplicit false

/-!
The contents of strings do not steer the reading. The readers look at the spelling of a token in many
places, and in some of them without regard to its kind, so that a string may be taken for a bracket.
Other contents may be exchanged: the two readings go abreast, and end in programs that differ in the
contents of strings alone.
-/

namespace Scriptlet

mutual

/-- A value of an object without the contents of its strings. Keys stay. -/
def Value.emptied : Value → Value
  | .str _ => .str ""
  | .obj entries => .obj (Value.emptiedEntries entries)
  | v => v

def Value.emptiedEntries : List (String × Value) → List (String × Value)
  | [] => []
  | (key, v) :: entries => (key, v.emptied) :: Value.emptiedEntries entries

end

mutual

/-- An expression without the contents of its string literals and of the strings in its objects. -/
def Expr.emptied : Expr → Expr
  | .datum v => .datum v.emptied
  | .literal kind v => .literal kind (if kind = .string then .str "" else v)
  | .ident name => .ident name
  | .property name index => .property name index.emptied
  | .unary operator operand => .unary operator operand.emptied
  | .binary operator left right => .binary operator left.emptied right.emptied
  | .assign binding name value => .assign binding name value.emptied
  | .call name args => .call name (Expr.emptiedAll args)
  | .define name params body => .define name (Parameter.emptiedAll params) (Expr.emptiedAll body)
  | .param p => .param p.emptied
  | .ret value => .ret value.emptied
  | .conditional keyword condition body otherwise =>
    .conditional keyword condition.emptied (Expr.emptiedAll body) (Expr.emptiedBranch otherwise)
  | .module parents name => .module parents name

def Expr.emptiedAll : List Expr → List Expr
  | [] => []
  | e :: es => e.emptied :: Expr.emptiedAll es

def Expr.emptiedBranch : Option (List Expr) → Option (List Expr)
  | none => none
  | some es => some (Expr.emptiedAll es)

def Parameter.emptied : Parameter → Parameter
  | .mk name binding default => .mk name binding default.emptied

def Parameter.emptiedAll : List Parameter → List Parameter
  | [] => []
  | p :: params => p.emptied :: Parameter.emptiedAll params

end

namespace Reading

/-- The spellings that are looked for whatever the kind of the token. -/
def spellings : List String := ["(", ")", "\x7b", "\x7d", ",", ".", "=", "newline"]

/-- What stands after a key. -/
def Colon (t : Token) : Prop := t.value = ":" ∧ t.kind ≠ some .string

/-- Two tokens that differ at most in what they contain as strings, and then spell nothing that is
looked for. -/
structure Similar (t t' : Token) : Prop where
  kind : t'.kind = t.kind
  value : t'.value = t.value ∨
    t.kind = some .string ∧ t.value ∉ spellings ∧ t'.value ∉ spellings

/-- Two lists of tokens that differ at most in the contents of strings that are no keys. -/
inductive SameButStrings : List Token → List Token → Prop
  | nil : SameButStrings [] []
  | cons {t t' : Token} {tokens tokens' : List Token} (first : Similar t t')
      (key : t'.value = t.value ∨ ∀ u, tokens.head? = some u → ¬ Colon u)
      (others : SameButStrings tokens tokens') : SameButStrings (t :: tokens) (t' :: tokens')

/-- Two readings both fail, or both give values so related and leave tokens that differ in strings
alone. -/
inductive Parallel {α : Type} (V : α → α → Prop) (r r' : Reading α) (tokens tokens' : List Token) :
    Prop
  | read {a a' : α} {left left' : List Token} (first : r.run tokens = (.ok a, left))
      (second : r'.run tokens' = (.ok a', left')) (values : V a a')
      (rest : SameButStrings left left')
  | fault {fault fault' : Fault} {left left' : List Token}
      (first : r.run tokens = (.error fault, left))
      (second : r'.run tokens' = (.error fault', left'))

section Steps

variable {α β : Type} {V : α → α → Prop} {W : β → β → Prop} {tokens tokens' : List Token}
  {t t' : Token} {r r' : Reading α}

theorem Similar.spelled (similar : Similar t t') {s : String} (looked : s ∈ spellings) :
    t'.value = s ↔ t.value = s := by
  rcases similar.value with same | ⟨-, free, free'⟩
  · rw [same]
  · constructor <;> rintro rfl
    · exact absurd looked free'
    · exact absurd looked free

theorem Similar.plain (similar : Similar t t') (other : t.kind ≠ some .string) :
    t'.value = t.value :=
  similar.value.resolve_right fun contents => other contents.1

theorem Similar.colon (similar : Similar t t') : Colon t' ↔ Colon t := by
  rw [Colon, Colon, similar.kind]
  exact and_congr_left fun other => by rw [similar.plain other]

theorem SameButStrings.length (same : SameButStrings tokens tokens') :
    tokens'.length = tokens.length := by
  induction same with
  | nil => rfl
  | cons first key others ih => rw [List.length_cons, List.length_cons, ih]

theorem SameButStrings.tail (same : SameButStrings tokens tokens') :
    SameButStrings tokens.tail tokens'.tail := by
  cases same with
  | nil => exact .nil
  | cons first key others => exact others

theorem SameButStrings.dropNewlines (same : SameButStrings tokens tokens') (limit : Option Nat) :
    SameButStrings (dropNewlines limit tokens) (dropNewlines limit tokens') := by
  induction same generalizing limit with
  | nil => exact .nil
  | cons first key others ih =>
    rw [Reading.dropNewlines, Reading.dropNewlines, first.kind]
    split
    · exact ih _
    · exact .cons first key others

theorem parallel_pure {a a' : α} (values : V a a') (same : SameButStrings tokens tokens') :
    Parallel V (pure a) (pure a') tokens tokens' :=
  .read rfl rfl values same

theorem parallel_throw (fault fault' : Fault) :
    Parallel V (throw fault) (throw fault') tokens tokens' :=
  .fault rfl rfl

/-- Each of the readings makes a step that does not fail. -/
theorem parallel_step {k k' : α → Reading β} {a a' : α} {left left' : List Token}
    (ran : r.run tokens = (.ok a, left)) (ran' : r'.run tokens' = (.ok a', left'))
    (others : Parallel W (k a) (k' a') left left') :
    Parallel W (r >>= k) (r' >>= k') tokens tokens' := by
  cases others with
  | read after after' values rest =>
    exact .read ((run_bind_of_ok ran).trans after) ((run_bind_of_ok ran').trans after') values rest
  | fault after after' =>
    exact .fault ((run_bind_of_ok ran).trans after) ((run_bind_of_ok ran').trans after')

theorem parallel_fail {k k' : α → Reading β} {fault fault' : Fault} {left left' : List Token}
    (ran : r.run tokens = (.error fault, left)) (ran' : r'.run tokens' = (.error fault', left')) :
    Parallel W (r >>= k) (r' >>= k') tokens tokens' :=
  .fault (by rw [run_bind, ran]) (by rw [run_bind, ran'])

theorem Parallel.bind {k k' : α → Reading β} (first : Parallel V r r' tokens tokens')
    (others : ∀ a a' left left', V a a' → SameButStrings left left' →
      Parallel W (k a) (k' a') left left') :
    Parallel W (r >>= k) (r' >>= k') tokens tokens' := by
  cases first with
  | read ran ran' values rest => exact parallel_step ran ran' (others _ _ _ _ values rest)
  | fault ran ran' => exact parallel_fail ran ran'

theorem parallel_ite {c c' : Prop} [Decidable c] [Decidable c'] {s s' : Reading α} (same : c' ↔ c)
    (yes : c → Parallel V r r' tokens tokens') (no : ¬ c → Parallel V s s' tokens tokens') :
    Parallel V (if c then r else s) (if c' then r' else s') tokens tokens' := by
  by_cases holds : c
  · rw [if_pos holds, if_pos (same.mpr holds)]
    exact yes holds
  · rw [if_neg holds, if_neg (mt same.mp holds)]
    exact no holds

/-- A spelling that is looked for is found in both tokens or in neither. -/
theorem parallel_spelled {s : String} {q q' : Reading α} (similar : Similar t t')
    (yes : Parallel V r r' tokens tokens') (no : Parallel V q q' tokens tokens')
    (looked : s ∈ spellings := by decide) :
    Parallel V (if t.value = s then r else q) (if t'.value = s then r' else q') tokens tokens' :=
  parallel_ite (similar.spelled looked) (fun _ => yes) fun _ => no

theorem parallel_current {k k' : Option Token → Reading β}
    (others : Parallel W (k tokens.head?) (k' tokens'.head?) tokens tokens') :
    Parallel W (current >>= k) (current >>= k') tokens tokens' :=
  parallel_step (run_current tokens) (run_current tokens') others

theorem parallel_next {k k' : Option Token → Reading β}
    (others : Parallel W (k tokens.head?) (k' tokens'.head?) tokens.tail tokens'.tail) :
    Parallel W (next >>= k) (next >>= k') tokens tokens' :=
  parallel_step (run_next tokens) (run_next tokens') others

theorem parallel_skipNewlines {limit : Option Nat} {k k' : Option Token → Reading β}
    (same : SameButStrings tokens tokens')
    (others : ∀ left left', SameButStrings left left' →
      Parallel W (k left.head?) (k' left'.head?) left left') :
    Parallel W (skipNewlines limit >>= k) (skipNewlines limit >>= k') tokens tokens' :=
  parallel_step (run_skipNewlines tokens limit) (run_skipNewlines tokens' limit)
    (others _ _ (same.dropNewlines limit))

/-- The first tokens are looked at, whichever have been taken since. -/
theorem parallel_demand {member : String} {k k' : Token → Reading β} {left left' : List Token}
    (same : SameButStrings tokens tokens')
    (others : ∀ t t', tokens.head? = some t → tokens'.head? = some t' → Similar t t' →
      Parallel W (k t) (k' t') left left') :
    Parallel W (demand member tokens.head? >>= k) (demand member tokens'.head? >>= k')
      left left' := by
  cases same with
  | nil => exact parallel_fail rfl rfl
  | cons first key rest => exact parallel_step rfl rfl (others _ _ rfl rfl first)

theorem parallel_currentKind {k k' : Option TokenKind → Reading β}
    (same : SameButStrings tokens tokens')
    (others : ∀ kind, Parallel W (k kind) (k' kind) tokens tokens') :
    Parallel W (currentKind >>= k) (currentKind >>= k') tokens tokens' := by
  cases same with
  | nil => exact parallel_fail rfl rfl
  | @cons t t' tokens tokens' first key rest =>
    refine parallel_step (run_currentKind tokens t) (run_currentKind tokens' t') ?_
    rw [first.kind]
    exact others t.kind

theorem parallel_currentValue {k k' : String → Reading β} (same : SameButStrings tokens tokens')
    (others : ∀ t t', Similar t t' → Parallel W (k t.value) (k' t'.value) tokens tokens') :
    Parallel W (currentValue >>= k) (currentValue >>= k') tokens tokens' := by
  cases same with
  | nil => exact parallel_fail rfl rfl
  | @cons t t' tokens tokens' first key rest =>
    exact parallel_step (run_currentValue tokens t) (run_currentValue tokens' t') (others t t' first)

/-- A token is taken if it is accepted, which does not depend on the contents of strings. -/
theorem parallel_accept {member : String} {p : Token → Prop} [DecidablePred p]
    {fault : Token → Fault} (agree : ∀ t t', Similar t t' → (p t' ↔ p t))
    (same : SameButStrings tokens tokens') :
    Parallel (fun t t' => Similar t t' ∧ p t ∧ tokens.head? = some t)
      (accept member p fault) (accept member p fault) tokens tokens' := by
  refine parallel_next (parallel_demand same fun t t' front _ similar => ?_)
  refine parallel_ite (agree t t' similar) (fun accepted => ?_) fun _ => parallel_throw _ _
  exact parallel_pure ⟨similar, accepted, front⟩ same.tail

theorem parallel_take (kind : TokenKind) (same : SameButStrings tokens tokens') :
    Parallel (fun t t' => Similar t t' ∧ t.kind = some kind ∧ tokens.head? = some t)
      (take kind) (take kind) tokens tokens' :=
  parallel_accept (fun t t' similar => by rw [similar.kind]) same

theorem parallel_takeOneOf (kinds : List TokenKind) (same : SameButStrings tokens tokens') :
    Parallel (fun t t' => Similar t t' ∧ (kinds.any fun k => t.kind = some k) ∧ tokens.head? = some t)
      (takeOneOf kinds) (takeOneOf kinds) tokens tokens' :=
  parallel_accept (fun t t' similar => by rw [similar.kind]) same

theorem parallel_takeIf (kinds : List TokenKind) (same : SameButStrings tokens tokens') :
    Parallel (fun _ _ => True) (takeIf (.oneOf kinds)) (takeIf (.oneOf kinds)) tokens tokens' := by
  rw [takeIf]
  refine parallel_currentKind same fun kind => ?_
  dsimp only
  split
  · exact .read (run_next tokens) (run_next tokens') trivial same.tail
  · exact parallel_pure trivial same

theorem parallel_takeColon (same : SameButStrings tokens tokens') :
    Parallel (fun t t' => Similar t t' ∧ (t.value = ":" && t.kind ≠ some .string) ∧
      tokens.head? = some t) (takeSpelled ":") (takeSpelled ":") tokens tokens' :=
  parallel_accept (fun t t' similar => by simpa [Colon] using similar.colon) same

/-- A key and its colon. The key is the same on both sides, because a colon stands after it. -/
theorem parallel_key (kinds : List TokenKind) {k k' : Token → Reading β}
    (same : SameButStrings tokens tokens')
    (others : ∀ t t' left left', t'.value = t.value → SameButStrings left left' →
      Parallel W (k t) (k' t') left left') :
    Parallel W (do let t ← takeOneOf kinds; let _ ← takeSpelled ":"; k t)
      (do let t ← takeOneOf kinds; let _ ← takeSpelled ":"; k' t) tokens tokens' := by
  cases same with
  | nil => exact parallel_fail rfl rfl
  | @cons t t' tokens tokens' first key rest =>
    by_cases labels : ∃ kind, kind ∈ kinds ∧ t.kind = some kind
    · obtain ⟨kind, member, right⟩ := labels
      refine parallel_step (run_takeOneOf tokens right member)
        (run_takeOneOf tokens' (first.kind.trans right) member) ?_
      refine (parallel_takeColon rest).bind fun u _ left left' found rest => ?_
      have colon : Colon u := by simpa [Colon] using found.2.1
      exact others t t' left left' (key.resolve_right fun none => none u found.2.2 colon) rest
    · have other : ¬ ∃ kind, kind ∈ kinds ∧ t'.kind = some kind := by rwa [first.kind]
      have rejected (u : Token) (left : List Token)
          (none : ¬ ∃ kind, kind ∈ kinds ∧ u.kind = some kind) :
          (takeOneOf kinds).run (u :: left) = (.error (.notJoinable 0 "TokenType"), left) := by
        simp [takeOneOf, none]
      exact parallel_fail (rejected t tokens labels) (rejected t' tokens' other)

theorem parallel_branch {c : Prop} [Decidable c] {s s' : Reading α} {k k' : α → Reading β}
    (yes : Parallel V r r' tokens tokens') (no : Parallel V s s' tokens tokens')
    (others : ∀ a a' left left', V a a' → SameButStrings left left' →
      Parallel W (k a) (k' a') left left') :
    Parallel W (if c then r >>= k else s >>= k) (if c then r' >>= k' else s' >>= k')
      tokens tokens' := by
  split
  · exact yes.bind others
  · exact no.bind others

theorem parallel_fuelled {r : Nat → Reading α} (same : SameButStrings tokens tokens')
    (alike : ∀ fuel, Parallel V (r fuel) (r fuel) tokens tokens') :
    Parallel V (fuelled r) (fuelled r) tokens tokens' := by
  have fuel : fuelFor tokens' = fuelFor tokens := by rw [fuelFor, fuelFor, same.length]
  cases alike (fuelFor tokens) with
  | read ran ran' values rest => exact .read ran (by rw [run_fuelled, fuel, ran']) values rest
  | fault ran ran' => exact .fault ran (by rw [run_fuelled, fuel, ran'])

end Steps

theorem precedence_congr {t t' : Token} (value : t'.value = t.value) :
    precedence t' = precedence t := by
  rw [precedence, precedence, value]

theorem Similar.isUnary {t t' : Token} (similar : Similar t t') : isUnary t' = isUnary t := by
  rw [Reading.isUnary, Reading.isUnary, similar.kind]
  by_cases string : t.kind = some .string
  · simp [string]
  · rw [similar.plain string]

/-- Expressions that differ at most in the contents of strings. -/
def Like (e e' : Expr) : Prop := e.emptied = e'.emptied

def AllLike (es es' : List Expr) : Prop := Expr.emptiedAll es = Expr.emptiedAll es'

def ParametersLike (params params' : List Parameter) : Prop :=
  Parameter.emptiedAll params = Parameter.emptiedAll params'

theorem like_conditional {keyword : String} {c c' : Expr} {body body' : List Expr}
    {otherwise otherwise' : Option (List Expr)} (condition : Like c c') (bodies : AllLike body body')
    (branch : Expr.emptiedBranch otherwise = Expr.emptiedBranch otherwise') :
    Like (.conditional keyword c body otherwise) (.conditional keyword c' body' otherwise') := by
  unfold Like at *
  rw [Expr.emptied, Expr.emptied, condition, show Expr.emptiedAll body = _ from bodies, branch]

theorem parallel_numberOf {tokens tokens' : List Token} (same : SameButStrings tokens tokens')
    (text : String) :
    Parallel Like (liftM (numberOf text)) (liftM (numberOf text)) tokens tokens' := by
  cases value : numberOf text with
  | ok e => exact .read rfl rfl rfl same
  | error fault => exact .fault rfl rfl

theorem parallel_path (fuel : Nat) {tokens tokens' : List Token}
    (same : SameButStrings tokens tokens') (name : Option String) (parents : List (Option String)) :
    Parallel Like (readModule fuel name parents) (readModule fuel name parents) tokens tokens' := by
  induction fuel generalizing tokens tokens' name parents with
  | zero => exact parallel_throw _ _
  | succ fuel ih =>
    rw [readModule]
    refine parallel_current (parallel_demand same fun t t' _ _ similar => ?_)
    rw [similar.kind]
    split
    · exact parallel_pure rfl same
    iterate 2
      · exact (parallel_takeOneOf _ same).bind fun _ _ _ _ _ rest => parallel_pure rfl rest
    iterate 2
      · rename_i kind
        rw [similar.plain (by simp [kind])]
        refine parallel_next (parallel_current (parallel_demand same.tail fun u u' _ _ similar => ?_))
        rw [similar.kind]
        split
        iterate 2
          · rename_i kind
            rw [similar.plain (by simp [kind])]
            exact ih same.tail _ _
        iterate 2
          · exact (parallel_takeOneOf _ same.tail).bind fun _ _ _ _ _ rest => parallel_pure rfl rest
        · exact parallel_pure rfl same.tail
    · exact parallel_throw _ _

theorem parallel_closeObject {before before' : List (String × Value)} {tokens tokens' : List Token}
    (entries : Value.emptiedEntries before = Value.emptiedEntries before')
    (same : SameButStrings tokens tokens') :
    Parallel (fun v v' => v.emptied = v'.emptied) (readEntries.closeObject before)
      (readEntries.closeObject before') tokens tokens' := by
  rw [readEntries.closeObject, readEntries.closeObject]
  refine parallel_current (parallel_demand same fun t t' _ _ similar => ?_)
  refine parallel_spelled similar (parallel_pure ?_ same) (parallel_throw _ _)
  exact congrArg Value.obj entries

theorem emptiedEntries_putEntry (key : String) (v : Value) (entries : List (String × Value)) :
    Value.emptiedEntries (Value.putEntry key v entries) =
      Value.putEntry key v.emptied (Value.emptiedEntries entries) := by
  induction entries with
  | nil => simp [Value.putEntry, Value.emptiedEntries]
  | cons entry entries ih =>
    obtain ⟨k, w⟩ := entry
    by_cases same : k = key <;> simp [Value.putEntry, Value.emptiedEntries, same, ih]

mutual

theorem parallel_entries (fuel : Nat) {before before' : List (String × Value)}
    {tokens tokens' : List Token}
    (entries : Value.emptiedEntries before = Value.emptiedEntries before')
    (same : SameButStrings tokens tokens') :
    Parallel (fun v v' => v.emptied = v'.emptied) (readEntries fuel before) (readEntries fuel before')
      tokens tokens' := by
  match fuel with
  | 0 => exact parallel_throw _ _
  | fuel + 1 =>
    rw [readEntries, readEntries]
    refine parallel_current ?_
    cases same with
    | nil => exact parallel_closeObject entries .nil
    | @cons t t' tokens tokens' first key others =>
      have same : SameButStrings (t :: tokens) (t' :: tokens') := .cons first key others
      simp only [List.head?_cons]
      rw [first.kind]
      split
      · exact parallel_closeObject entries same
      · refine (parallel_entry fuel same).bind fun entry entry' left left' alike rest => ?_
        obtain ⟨k, v⟩ := entry
        obtain ⟨k', v'⟩ := entry'
        obtain ⟨rfl, values⟩ := alike
        have entries : Value.emptiedEntries (Value.putEntry k v before) =
            Value.emptiedEntries (Value.putEntry k v' before') := by
          rw [emptiedEntries_putEntry, emptiedEntries_putEntry, entries, values]
        refine parallel_skipNewlines rest fun left left' rest => ?_
        refine parallel_currentKind rest fun kind => ?_
        split
        · exact parallel_closeObject entries rest
        · exact (parallel_take .comma rest).bind fun _ _ _ _ _ rest =>
            parallel_entries fuel entries rest

theorem parallel_entry (fuel : Nat) {tokens tokens' : List Token}
    (same : SameButStrings tokens tokens') :
    Parallel (fun entry entry' => entry.1 = entry'.1 ∧ entry.2.emptied = entry'.2.emptied)
      (readEntry fuel) (readEntry fuel) tokens tokens' := by
  match fuel with
  | 0 => exact parallel_throw _ _
  | fuel + 1 =>
    rw [readEntry]
    refine parallel_skipNewlines same fun _ _ same => ?_
    refine parallel_key _ same fun t t' left left' key same => ?_
    refine parallel_currentKind same fun kind => ?_
    split
    · refine (parallel_take .lbrace same).bind fun _ _ _ _ _ same => ?_
      refine (parallel_entries fuel rfl same).bind fun v v' _ _ values same => ?_
      exact (parallel_take .rbrace same).bind fun _ _ _ _ _ same =>
        parallel_pure ⟨key.symm, values⟩ same
    · exact (parallel_takeOneOf _ same).bind fun _ _ _ _ _ same =>
        parallel_pure ⟨key.symm, rfl⟩ same

end

/-- The readers that call each other go in parallel. The front of a conditional is a keyword, which has
been looked at. -/
structure InParallel (fuel : Nat) : Prop where
  statement {tokens tokens' : List Token} (same : SameButStrings tokens tokens') :
    Parallel Like (readTop fuel) (readTop fuel) tokens tokens'
  expression (least : Int) {tokens tokens' : List Token} (same : SameButStrings tokens tokens') :
    Parallel Like (readExpr fuel least) (readExpr fuel least) tokens tokens'
  operators (least : Int) {l l' : Expr} (like : Like l l') {tokens tokens' : List Token}
    (same : SameButStrings tokens tokens') :
    Parallel Like (readOperators fuel least l) (readOperators fuel least l') tokens tokens'
  operand {tokens tokens' : List Token} (same : SameButStrings tokens tokens') :
    Parallel Like (readPrimary fuel) (readPrimary fuel) tokens tokens'
  usage (name : String) {tokens tokens' : List Token} (same : SameButStrings tokens tokens') :
    Parallel Like (readName fuel name) (readName fuel name) tokens tokens'
  assignment (binding : Option String) (name : String) {tokens tokens' : List Token}
    (same : SameButStrings tokens tokens') :
    Parallel Like (readAssignment fuel binding name) (readAssignment fuel binding name) tokens tokens'
  call {tokens tokens' : List Token} (same : SameButStrings tokens tokens') :
    Parallel AllLike (readArguments fuel) (readArguments fuel) tokens tokens'
  arguments {tokens tokens' : List Token} (same : SameButStrings tokens tokens') :
    Parallel AllLike (readMoreArguments fuel) (readMoreArguments fuel) tokens tokens'
  signature {tokens tokens' : List Token} (same : SameButStrings tokens tokens') :
    Parallel ParametersLike (readParameters fuel) (readParameters fuel) tokens tokens'
  parameters {tokens tokens' : List Token} (same : SameButStrings tokens tokens') :
    Parallel ParametersLike (readMoreParameters fuel) (readMoreParameters fuel) tokens tokens'
  function {tokens tokens' : List Token} (same : SameButStrings tokens tokens') :
    Parallel Like (readFunction fuel) (readFunction fuel) tokens tokens'
  ret {tokens tokens' : List Token} (same : SameButStrings tokens tokens') :
    Parallel Like (readReturn fuel) (readReturn fuel) tokens tokens'
  conditional {t t' : Token} {tokens tokens' : List Token} (word : t'.value = t.value)
    (same : SameButStrings (t :: tokens) (t' :: tokens')) :
    Parallel Like (readConditional fuel) (readConditional fuel) (t :: tokens) (t' :: tokens')
  block {tokens tokens' : List Token} (same : SameButStrings tokens tokens') :
    Parallel AllLike (readBlock fuel) (readBlock fuel) tokens tokens'
  statements {tokens tokens' : List Token} (same : SameButStrings tokens tokens') :
    Parallel AllLike (readStatements fuel) (readStatements fuel) tokens tokens'

section Readers

variable {fuel : Nat} (known : InParallel fuel) {tokens tokens' : List Token}
  (same : SameButStrings tokens tokens')

include known same

theorem parallel_expression (least : Int) :
    Parallel Like (readExpr (fuel + 1) least) (readExpr (fuel + 1) least) tokens tokens' := by
  rw [readExpr]
  exact (known.operand same).bind fun _ _ _ _ like rest => known.operators least like rest

theorem parallel_operators (least : Int) {l l' : Expr} (like : Like l l') :
    Parallel Like (readOperators (fuel + 1) least l) (readOperators (fuel + 1) least l')
      tokens tokens' := by
  rw [readOperators, readOperators]
  refine parallel_current ?_
  cases same with
  | nil => exact parallel_pure like .nil
  | @cons t t' tokens tokens' first key others =>
    have same : SameButStrings (t :: tokens) (t' :: tokens') := .cons first key others
    simp only [List.head?_cons]
    refine parallel_ite ?_ (fun operates => ?_) fun _ => ?_
    · by_cases operator : t.kind = some .operator
      · rw [first.kind, precedence_congr (first.plain (by simp [operator]))]
      · simp [first.kind, operator]
    · -- An operator is no string, so it is the same on both sides.
      have value : t'.value = t.value := by
        refine first.plain fun string => ?_
        simp [string] at operates
      have associative : isLeftAssociative t' = isLeftAssociative t := by
        rw [isLeftAssociative, isLeftAssociative, first.kind, value]
      rw [value, associative, precedence_congr value]
      refine parallel_next ?_
      split
      · exact parallel_pure (congrArg (Expr.unary _) like) others
      · refine (known.expression _ others).bind fun right right' _ _ like' rest => ?_
        have binary : Like (.binary t.value l right) (.binary t.value l' right') :=
          congrArg₂ (Expr.binary t.value) like like'
        exact known.operators least binary rest
    · rw [first.kind]
      split
      · exact (parallel_take .semicolon same).bind fun _ _ _ _ _ rest => parallel_pure like rest
      · exact parallel_pure like same

theorem parallel_operand :
    Parallel Like (readPrimary (fuel + 1)) (readPrimary (fuel + 1)) tokens tokens' := by
  rw [readPrimary]
  refine parallel_skipNewlines same fun left left' same => ?_
  cases same with
  | nil => exact parallel_pure rfl .nil
  | @cons t t' tokens tokens' first key others =>
    have same : SameButStrings (t :: tokens) (t' :: tokens') := .cons first key others
    simp only [List.head?_cons]
    rw [first.isUnary, first.kind]
    refine parallel_ite .rfl (fun unary => ?_) fun _ => ?_
    · have value : t'.value = t.value := by
        refine first.plain fun string => ?_
        simp [isUnary, string] at unary
      rw [value, precedence_congr value]
      refine parallel_next ?_
      split
      · exact (known.operand others).bind fun _ _ _ _ like rest =>
          parallel_pure (congrArg (Expr.unary _) like) rest
      · exact (known.expression _ others).bind fun _ _ _ _ like rest =>
          parallel_pure (congrArg (Expr.unary _) like) rest
    refine parallel_spelled first ?_ ?_
    · refine (parallel_take .lparen same).bind fun _ _ _ _ _ rest => ?_
      refine (known.expression 0 rest).bind fun _ _ _ _ like rest => ?_
      exact (parallel_take .rparen rest).bind fun _ _ _ _ _ rest => parallel_pure like rest
    refine parallel_spelled first ?_ ?_
    · refine (parallel_take .lbrace same).bind fun _ _ _ _ _ rest => ?_
      refine (parallel_fuelled rest fun fuel => parallel_entries fuel rfl rest).bind
        fun _ _ _ _ values rest => ?_
      exact (parallel_take .rbrace rest).bind fun _ _ _ _ _ rest =>
        parallel_pure (congrArg Expr.datum values) rest
    split
    · rename_i kind
      rw [first.plain (by simp [kind])]
      exact parallel_next (parallel_numberOf others _)
    · exact parallel_next (parallel_pure rfl others)
    · rename_i kind
      rw [first.plain (by simp [kind])]
      exact parallel_next (known.usage _ others)
    · rename_i kind
      rw [first.plain (by simp [kind])]
      refine parallel_next ?_
      split
      · exact parallel_pure rfl others
      refine parallel_currentValue others fun u u' similar => ?_
      refine parallel_spelled similar ?_ ?_
      · exact (known.call others).bind fun _ _ _ _ like rest =>
          parallel_pure (congrArg (Expr.call _) like) rest
      split
      · exact parallel_throw _ _
      · exact parallel_throw _ _
    · exact parallel_throw _ _

theorem parallel_usage (name : String) :
    Parallel Like (readName (fuel + 1) name) (readName (fuel + 1) name) tokens tokens' := by
  rw [readName]
  refine parallel_currentValue same fun t t' similar => ?_
  refine parallel_spelled similar ?_ ?_
  · exact parallel_next ((known.statement same.tail).bind fun _ _ _ _ like rest =>
      parallel_pure (congrArg (Expr.property name) like) rest)
  refine parallel_spelled similar ?_ ?_
  · exact (known.call same).bind fun _ _ _ _ like rest =>
      parallel_pure (congrArg (Expr.call name) like) rest
  refine parallel_spelled similar ?_ ?_
  · exact parallel_next (known.assignment none name same.tail)
  · exact parallel_pure rfl same

theorem parallel_assignment (binding : Option String) (name : String) :
    Parallel Like (readAssignment (fuel + 1) binding name) (readAssignment (fuel + 1) binding name)
      tokens tokens' := by
  rw [readAssignment]
  refine parallel_currentKind same fun kind => ?_
  split
  · exact parallel_pure rfl same
  · have missing : Parallel Like (pure .missing) (pure .missing) tokens tokens' :=
      parallel_pure rfl same
    refine parallel_branch missing (known.expression 0 same) fun value value' _ _ like rest => ?_
    have assigned : Like (.assign binding name value) (.assign binding name value') :=
      congrArg (Expr.assign binding name) like
    refine parallel_current ?_
    cases rest with
    | nil => exact parallel_pure assigned .nil
    | cons first key others =>
      have rest := SameButStrings.cons first key others
      simp only [List.head?_cons]
      rw [first.kind]
      split
      · exact parallel_pure assigned rest
      · exact (parallel_takeOneOf _ rest).bind fun _ _ _ _ _ rest => parallel_pure assigned rest

theorem parallel_call :
    Parallel AllLike (readArguments (fuel + 1)) (readArguments (fuel + 1)) tokens tokens' := by
  rw [readArguments]
  exact (parallel_take .lparen same).bind fun _ _ _ _ _ rest => known.arguments rest

theorem parallel_arguments :
    Parallel AllLike (readMoreArguments (fuel + 1)) (readMoreArguments (fuel + 1))
      tokens tokens' := by
  rw [readMoreArguments]
  refine parallel_current ?_
  cases same with
  | nil => exact parallel_pure rfl .nil
  | cons first key others =>
    have same := SameButStrings.cons first key others
    simp only [List.head?_cons]
    refine parallel_spelled first ?_ ?_
    · exact (parallel_take .rparen same).bind fun _ _ _ _ _ rest => parallel_pure rfl rest
    refine (known.statement same).bind fun _ _ _ _ like rest => ?_
    refine parallel_currentValue rest fun u u' similar => parallel_ite ?_ (fun _ => ?_) fun _ => ?_
    · have comma : u'.value = "," ↔ u.value = "," := similar.spelled (by decide)
      have newline : u'.value = "newline" ↔ u.value = "newline" := similar.spelled (by decide)
      simp [comma, newline]
    · refine (parallel_takeIf _ rest).bind fun _ _ _ _ _ rest => ?_
      exact (known.arguments rest).bind fun _ _ _ _ all rest =>
        parallel_pure (congrArg₂ List.cons like all) rest
    · exact (parallel_take .rparen rest).bind fun _ _ _ _ _ rest =>
        parallel_pure (congrArg (· :: []) like) rest

theorem parallel_signature :
    Parallel ParametersLike (readParameters (fuel + 1)) (readParameters (fuel + 1))
      tokens tokens' := by
  rw [readParameters]
  exact (parallel_take .lparen same).bind fun _ _ _ _ _ rest => known.parameters rest

theorem parallel_parameters :
    Parallel ParametersLike (readMoreParameters (fuel + 1)) (readMoreParameters (fuel + 1))
      tokens tokens' := by
  rw [readMoreParameters]
  refine parallel_current ?_
  cases same with
  | nil => exact parallel_pure rfl .nil
  | @cons t t' tokens tokens' first key others =>
    have same := SameButStrings.cons first key others
    simp only [List.head?_cons]
    refine parallel_spelled first ?_ ?_
    · exact (parallel_take .rparen same).bind fun _ _ _ _ _ rest => parallel_pure rfl rest
    refine parallel_spelled first ?_ ?_
    · exact parallel_pure rfl same
    refine parallel_next ?_
    rw [first.kind]
    refine parallel_ite ?_ (fun binds => ?_) fun _ => parallel_throw _ _
    · by_cases keyword : t.kind = some .keyword
      · rw [first.plain (by simp [keyword])]
      · simp [keyword]
    have value : t'.value = t.value := by
      refine first.plain fun string => ?_
      simp [string] at binds
    refine (parallel_take .identifier others).bind fun name name' _ _ taken rest => ?_
    rw [taken.1.plain (by simp [taken.2.1]), value]
    refine parallel_current (parallel_demand rest fun u u' _ _ following => ?_)
    rw [following.kind]
    split
    · exact (known.parameters rest).bind fun _ _ _ _ all rest =>
        parallel_pure (congrArg (_ :: ·) all) rest
    refine parallel_ite ?_ (fun divides => ?_) fun _ => parallel_throw _ _
    · by_cases string : u.kind = some .string
      · simp [string]
      · rw [following.plain string]
    have value : u'.value = u.value := by
      refine following.plain fun string => ?_
      simp [string] at divides
    rw [value]
    refine parallel_next ?_
    split
    · refine (known.expression 0 rest.tail).bind fun _ _ _ _ like rest => parallel_next ?_
      exact (known.parameters rest.tail).bind fun _ _ _ _ all rest =>
        parallel_pure (congrArg₂ List.cons (congrArg (Parameter.mk _ _) like) all) rest
    · exact (known.parameters rest.tail).bind fun _ _ _ _ all rest =>
        parallel_pure (congrArg (_ :: ·) all) rest

theorem parallel_function :
    Parallel Like (readFunction (fuel + 1)) (readFunction (fuel + 1)) tokens tokens' := by
  rw [readFunction]
  refine (parallel_take .identifier same).bind fun name name' left left' taken rest => ?_
  rw [taken.1.plain (by simp [taken.2.1])]
  refine (known.signature rest).bind fun _ _ _ _ params rest => ?_
  exact (known.block rest).bind fun _ _ _ _ body rest =>
    parallel_pure (congrArg₂ (Expr.define name.value) params body) rest

theorem parallel_ret :
    Parallel Like (readReturn (fuel + 1)) (readReturn (fuel + 1)) tokens tokens' := by
  rw [readReturn]
  refine parallel_next (parallel_currentKind same.tail fun kind => ?_)
  split
  · exact parallel_next (parallel_pure rfl same.tail.tail)
  split
  · exact parallel_pure rfl same.tail
  · exact (known.expression 0 same.tail).bind fun _ _ _ _ like rest =>
      parallel_pure (congrArg Expr.ret like) rest

theorem parallel_block :
    Parallel AllLike (readBlock (fuel + 1)) (readBlock (fuel + 1)) tokens tokens' := by
  rw [readBlock]
  refine parallel_current (parallel_demand same fun t t' _ _ similar => ?_)
  refine parallel_spelled similar ?_ ?_
  · refine (parallel_take .lbrace same).bind fun _ _ _ _ _ rest => ?_
    exact parallel_skipNewlines rest fun _ _ rest => known.statements rest
  · refine parallel_skipNewlines same fun _ _ rest => parallel_currentKind rest fun kind => ?_
    split
    · exact parallel_throw _ _
    · exact (known.statement rest).bind fun _ _ _ _ like rest =>
        parallel_pure (congrArg (· :: []) like) rest

theorem parallel_statements :
    Parallel AllLike (readStatements (fuel + 1)) (readStatements (fuel + 1)) tokens tokens' := by
  rw [readStatements]
  refine parallel_current ?_
  cases same with
  | nil => exact parallel_throw _ _
  | cons first key others =>
    have same := SameButStrings.cons first key others
    simp only [List.head?_cons]
    refine parallel_spelled first ?_ ?_
    · exact parallel_next (parallel_pure rfl others)
    · refine (known.statement same).bind fun _ _ _ _ like rest => ?_
      refine parallel_skipNewlines rest fun _ _ rest => ?_
      exact (known.statements rest).bind fun _ _ _ _ all rest =>
        parallel_pure (congrArg₂ List.cons like all) rest

theorem parallel_statement :
    Parallel Like (readTop (fuel + 1)) (readTop (fuel + 1)) tokens tokens' := by
  rw [readTop]
  refine parallel_current ?_
  cases same with
  | nil => exact parallel_pure rfl .nil
  | @cons t t' tokens tokens' first key others =>
    have same := SameButStrings.cons first key others
    simp only [List.head?_cons]
    rw [first.kind]
    refine parallel_ite .rfl (fun _ => known.expression 0 same) fun keyword => ?_
    have value : t'.value = t.value := by
      refine first.plain fun string => keyword ?_
      simp [string]
    rw [value]
    split
    · exact parallel_next (parallel_fuelled others fun fuel => parallel_path fuel others none [])
    split
    · refine parallel_next ((parallel_take .identifier others).bind
        fun name name' _ _ taken rest => ?_)
      rw [taken.1.plain (by simp [taken.2.1])]
      refine parallel_current (parallel_demand rest fun u u' _ _ following => ?_)
      rw [following.kind]
      refine parallel_ite ?_ (fun _ => ?_) fun _ => parallel_pure rfl rest
      · by_cases string : u.kind = some .string
        · simp [string]
        · rw [following.plain string]
      · exact parallel_next (known.assignment _ _ rest.tail)
    split
    · exact parallel_next (known.function others)
    split
    · exact known.ret same
    split
    · exact known.conditional value same
    split
    · exact parallel_next (parallel_throw _ _)
    · exact parallel_throw _ _

end Readers

theorem parallel_conditional {fuel : Nat} (known : InParallel fuel) {t t' : Token}
    {tokens tokens' : List Token} (word : t'.value = t.value)
    (same : SameButStrings (t :: tokens) (t' :: tokens')) :
    Parallel Like (readConditional (fuel + 1)) (readConditional (fuel + 1)) (t :: tokens)
      (t' :: tokens') := by
  rw [readConditional]
  refine parallel_next (parallel_step rfl rfl ?_)
  have rest := same.tail
  rw [word]
  split
  · exact (known.block rest).bind fun _ _ _ _ body rest =>
      parallel_pure (like_conditional rfl body rfl) rest
  refine (parallel_take .lparen rest).bind fun _ _ _ _ _ rest => ?_
  refine (known.expression 0 rest).bind fun _ _ _ _ condition rest => ?_
  refine (parallel_take .rparen rest).bind fun _ _ _ _ _ rest => ?_
  refine (known.block rest).bind fun _ _ _ _ body rest => ?_
  refine parallel_skipNewlines rest fun left left' rest => ?_
  cases rest with
  | nil => exact parallel_pure (like_conditional condition body rfl) .nil
  | @cons u u' left left' first key others =>
    have rest := SameButStrings.cons first key others
    simp only [List.head?_cons]
    rw [first.kind]
    refine parallel_ite ?_ (fun branches => ?_) fun _ => ?_
    · by_cases string : u.kind = some .string
      · simp [string]
      · rw [first.plain string]
    · refine (known.conditional ?_ rest).bind fun _ _ _ _ other rest => ?_
      · refine first.plain fun string => ?_
        simp [string] at branches
      · refine parallel_pure (like_conditional condition body ?_) rest
        exact congrArg (fun e => some [e]) other
    · exact parallel_pure (like_conditional condition body rfl) rest

theorem inParallel (fuel : Nat) : InParallel fuel := by
  induction fuel with
  | zero => constructor <;> intros <;> exact parallel_throw _ _
  | succ fuel known =>
    exact {
      statement := parallel_statement known
      expression least _ _ same := parallel_expression known same least
      operators least _ _ like _ _ same := parallel_operators known same least like
      operand := parallel_operand known
      usage name _ _ same := parallel_usage known same name
      assignment binding name _ _ same := parallel_assignment known same binding name
      call := parallel_call known
      arguments := parallel_arguments known
      signature := parallel_signature known
      parameters := parallel_parameters known
      function := parallel_function known
      ret := parallel_ret known
      conditional := parallel_conditional known
      block := parallel_block known
      statements := parallel_statements known }

theorem parallel_program (fuel : Nat) {tokens tokens' : List Token}
    (same : SameButStrings tokens tokens') :
    Parallel AllLike (readProgram fuel) (readProgram fuel) tokens tokens' := by
  induction fuel generalizing tokens tokens' with
  | zero => exact parallel_throw _ _
  | succ fuel ih =>
    rw [readProgram]
    refine parallel_current ?_
    cases same with
    | nil => exact parallel_pure rfl .nil
    | cons first key others =>
      have same := SameButStrings.cons first key others
      simp only [List.head?_cons]
      rw [first.kind]
      split
      · exact parallel_next (ih others)
      · refine (parallel_fuelled same fun fuel => (inParallel fuel).statement same).bind
          fun _ _ _ _ like rest => ?_
        exact (ih rest).bind fun _ _ _ _ all rest =>
          parallel_pure (congrArg₂ List.cons like all) rest

theorem emptiedAll_eq_map (es : List Expr) : Expr.emptiedAll es = es.map Expr.emptied := by
  induction es with
  | nil => rfl
  | cons e es ih => rw [Expr.emptiedAll, List.map_cons, ih]

/-- Programs that differ in the contents of strings that are no keys and spell nothing that is looked
for are read alike, or neither is read. -/
theorem ofTokens_emptied {tokens tokens' : List Token} (same : SameButStrings tokens tokens') :
    (Expr.ofTokens tokens).toOption.map (List.map Expr.emptied) =
      (Expr.ofTokens tokens').toOption.map (List.map Expr.emptied) := by
  have fuel : fuelFor tokens' = fuelFor tokens := by rw [fuelFor, fuelFor, same.length]
  rw [Expr.ofTokens, Expr.ofTokens, fuel]
  cases parallel_program (fuelFor tokens) same with
  | @read program program' _ _ ran ran' values _ =>
    have mapped : program.map Expr.emptied = program'.map Expr.emptied := by
      rwa [← emptiedAll_eq_map, ← emptiedAll_eq_map]
    rw [ran, ran']
    exact congrArg some mapped
  | fault ran ran' =>
    rw [ran, ran']
    rfl

/-- A call with an object in which a string stands under a key. -/
def greetingTokens (contents : String) : List Token :=
  [⟨some .identifier, "print", 1, 5⟩, ⟨some .lparen, "(", 1, 6⟩, ⟨some .lbrace, "\x7b", 1, 7⟩,
    ⟨some .identifier, "to", 1, 9⟩, ⟨some .operator, ":", 1, 10⟩, ⟨some .string, contents, 1, 12⟩,
    ⟨some .rbrace, "\x7d", 1, 13⟩, ⟨some .rparen, ")", 1, 14⟩]

theorem greetingTokens_same {s s' : String} (free : s ∉ spellings) (free' : s' ∉ spellings) :
    SameButStrings (greetingTokens s) (greetingTokens s') := by
  have equal {t : Token} {rest rest' : List Token} (others : SameButStrings rest rest') :
      SameButStrings (t :: rest) (t :: rest') := .cons ⟨rfl, .inl rfl⟩ (.inl rfl) others
  refine equal (equal (equal (equal (equal (.cons ⟨rfl, .inr ⟨rfl, free, free'⟩⟩ (.inr ?_)
    (equal (equal .nil)))))))
  rintro u ⟨⟩ ⟨spelled, -⟩
  exact absurd spelled (by decide)

/-- A string may spell a keyword. -/
theorem ofTokens_emptied_greeting :
    SameButStrings (greetingTokens "you") (greetingTokens "else") ∧
    (Expr.ofTokens (greetingTokens "you")).toOption.map (List.map Expr.emptied) =
      some [.call "print" [.datum (.obj [("to", .str "")])]] ∧
    (Expr.ofTokens (greetingTokens "you")).toOption.map (List.map Expr.emptied) =
      (Expr.ofTokens (greetingTokens "else")).toOption.map (List.map Expr.emptied) :=
  have same : SameButStrings (greetingTokens "you") (greetingTokens "else") :=
    greetingTokens_same (by decide) (by decide)
  ⟨same, rfl, ofTokens_emptied same⟩

end Reading

end Scriptlet
