import Scriptlet.Proofs.Expr.Termination

set_option autoImplicit false

/-!
The end of a program. Some readers take the end for an end, and others look at a token that is not
there, so that a newline at the end may decide whether a program is read. The tokens are read with
three ends, with nothing, a newline or a closing parenthesis after them, and the three readings go
together until the end is reached.
-/

namespace Scriptlet.Reading

/-- The same tokens with three ends. -/
structure Versions where
  bare : List Token
  broken : List Token
  closed : List Token

/-- What a reading gives, and the tokens left. -/
abbrev Outcome (α : Type) := Except Fault α × List Token

section Outcomes

variable {α β : Type}

def Failed (o : Outcome α) : Prop := ∃ fault, o.1 = .error fault

/-- A token was looked at after the last one. -/
def Overruns (result : Except Fault α) : Prop :=
  ∃ member, result = .error (.noAttribute "NoneType" member)

def Overran (o : Outcome α) : Prop := Overruns o.1

def Starved (o : Outcome α) : Prop := o.1 = .error .outOfFuel

/-- How the readings of three versions compare. Those that have all gone well are compared by a
relation of their own. -/
inductive Kin (L : Outcome α → Outcome α → Outcome α → Prop) (o o' o'' : Outcome α) : Prop
  | level (same : L o o' o'')
  | starved (none : Starved o ∨ Starved o' ∨ Starved o'')
  /-- Without an end the last token was not enough. -/
  | lost (past : Overran o)
  | failed (fails : Failed o) (fails' : Failed o') (fails'' : Failed o'')
  /-- The newline was taken for an end, but the parenthesis was not. -/
  | refused (same : o' = o) (fails : Failed o'')
  /-- A call was open: a parenthesis closes it, and so does the end, but not a newline. -/
  | unclosed (past : Overran o') (same : o'' = o)

/-- All have read the same and left these versions. -/
def Level (T : Versions → Prop) (o o' o'' : Outcome α) : Prop :=
  ∃ a v, T v ∧ o = (.ok a, v.bare) ∧ o' = (.ok a, v.broken) ∧ o'' = (.ok a, v.closed)

/-- The reading gives such outcomes on the three versions. -/
def Agrees (L : Outcome α → Outcome α → Outcome α → Prop) (r : Reading α) (v : Versions) : Prop :=
  Kin L (r.run v.bare) (r.run v.broken) (r.run v.closed)

variable {L : Outcome β → Outcome β → Outcome β → Prop} {T : Versions → Prop} {r : Reading α}
  {k : α → Reading β} {v w : Versions} {tokens left : List Token}

theorem Starved.bind (starved : Starved (r.run tokens)) : Starved ((r >>= k).run tokens) :=
  run_bind_of_error starved

theorem Overran.bind (past : Overran (r.run tokens)) : Overran ((r >>= k).run tokens) :=
  Exists.imp (fun _ past => run_bind_of_error past) past

theorem Failed.bind (fails : Failed (r.run tokens)) : Failed ((r >>= k).run tokens) :=
  fails.imp fun _ fails => run_bind_of_error fails

theorem Failed.not_ok {o : Outcome α} (fails : Failed o) {a : α} : o.1 ≠ .ok a := by
  obtain ⟨fault, same⟩ := fails
  simp [same]

theorem Overruns.not_ok {result : Except Fault α} (past : Overruns result) {a : α} :
    result ≠ .ok a := by
  obtain ⟨member, rfl⟩ := past
  simp

/-- Readings that are no longer level keep how they compare, whatever comes after them. -/
theorem Agrees.bind_or {M : Outcome α → Outcome α → Outcome α → Prop} (first : Agrees M r v)
    (level : M (r.run v.bare) (r.run v.broken) (r.run v.closed) → Agrees L (r >>= k) v) :
    Agrees L (r >>= k) v := by
  cases first with
  | level same => exact level same
  | starved none => exact .starved (none.imp Starved.bind (Or.imp Starved.bind Starved.bind))
  | lost past => exact .lost past.bind
  | failed fails fails' fails'' => exact .failed fails.bind fails'.bind fails''.bind
  | refused same fails => exact .refused (by rw [run_bind, run_bind, same]) fails.bind
  | unclosed past same => exact .unclosed past.bind (by rw [run_bind, run_bind, same])

theorem agrees_step {a : α} (ran : r.run v.bare = (.ok a, w.bare))
    (ran' : r.run v.broken = (.ok a, w.broken)) (ran'' : r.run v.closed = (.ok a, w.closed))
    (others : Agrees L (k a) w) : Agrees L (r >>= k) v := by
  rw [Agrees, run_bind_of_ok ran, run_bind_of_ok ran', run_bind_of_ok ran'']
  exact others

theorem Agrees.bind (first : Agrees (Level T) r v) (others : ∀ a w, T w → Agrees L (k a) w) :
    Agrees L (r >>= k) v := by
  refine first.bind_or fun level => ?_
  obtain ⟨a, w, tails, ran, ran', ran''⟩ := level
  exact agrees_step ran ran' ran'' (others a w tails)

theorem agrees_pure {a : α} (tails : T v) : Agrees (Level T) (pure a) v :=
  .level ⟨a, v, tails, rfl, rfl, rfl⟩

theorem agrees_throw (fault : Fault) : Agrees L (throw fault) v :=
  .failed ⟨fault, rfl⟩ ⟨fault, rfl⟩ ⟨fault, rfl⟩

end Outcomes

/-- The tokens go on with one before them. -/
def Versions.cons (t : Token) (v : Versions) : Versions := ⟨t :: v.bare, t :: v.broken, t :: v.closed⟩

def Versions.map (f : List Token → List Token) (v : Versions) : Versions :=
  ⟨f v.bare, f v.broken, f v.closed⟩

/-- Tokens before the three ends. -/
inductive Ahead (newline closing : Token) : Versions → Prop
  | last : Ahead newline closing ⟨[], [newline], [closing]⟩
  | cons (t : Token) {v : Versions} (rest : Ahead newline closing v) :
      Ahead newline closing (v.cons t)

/-- The ends are ahead, or the newline has been skipped. -/
inductive Tails (newline closing : Token) : Versions → Prop
  | ahead {v : Versions} (rest : Ahead newline closing v) : Tails newline closing v
  | skipped : Tails newline closing ⟨[], [], [closing]⟩

/-- The readings of three such versions are level up to the ends. -/
abbrev AgreesOn (newline closing : Token) {α : Type} (r : Reading α) (v : Versions) : Prop :=
  Agrees (Level (Tails newline closing)) r v

section Steps

variable {α β : Type} {L : Outcome α → Outcome α → Outcome α → Prop} {newline closing : Token}
  {v : Versions} {t : Token}

theorem agrees_current {k : Option Token → Reading α} (others : Agrees L (k (some t)) (v.cons t)) :
    Agrees L (current >>= k) (v.cons t) :=
  agrees_step rfl rfl rfl others

theorem agrees_next {k : Option Token → Reading α} (others : Agrees L (k (some t)) v) :
    Agrees L (next >>= k) (v.cons t) :=
  agrees_step rfl rfl rfl others

/-- The first token is dropped, if there is one. -/
theorem agrees_tail {r : Reading α} (others : Agrees L r (v.map List.tail)) :
    Agrees L (do let _ ← next; r) v := by
  rw [Agrees, run_bind_of_ok (run_next _), run_bind_of_ok (run_next _), run_bind_of_ok (run_next _)]
  exact others

theorem agrees_demand {member : String} {k : Token → Reading α} (others : Agrees L (k t) v) :
    Agrees L (demand member (some t) >>= k) v :=
  agrees_step rfl rfl rfl others

/-- A token that must be there is looked at. -/
theorem agrees_front {member : String} {k : Token → Reading α} (tails : Tails newline closing v)
    (others : ∀ t w, Ahead newline closing w → Agrees L (k t) (w.cons t)) :
    Agrees L (do let t ← demand member (← current); k t) v := by
  cases tails with
  | ahead rest =>
    cases rest with
    | last => exact .lost ⟨member, rfl⟩
    | cons t rest => exact agrees_current (agrees_demand (others t _ rest))
  | skipped => exact .lost ⟨member, rfl⟩

/-- A token that must be there is taken. -/
theorem agrees_taken {member : String} {k : Token → Reading α} (tails : Tails newline closing v)
    (others : ∀ t w, Ahead newline closing w → Agrees L (k t) w) :
    Agrees L (do let t ← demand member (← next); k t) v := by
  cases tails with
  | ahead rest =>
    cases rest with
    | last => exact .lost ⟨member, rfl⟩
    | cons t rest => exact agrees_next (agrees_demand (others t _ rest))
  | skipped => exact .lost ⟨member, rfl⟩

/-- A token that must be there and be accepted is taken. -/
theorem agrees_accept {member : String} {p : Token → Prop} [DecidablePred p] {fault : Token → Fault}
    (tails : Tails newline closing v) :
    Agrees (Level (Ahead newline closing)) (accept member p fault) v := by
  refine agrees_taken tails fun t w rest => ?_
  split
  · exact agrees_pure rest
  · exact agrees_throw _

theorem agrees_take (kind : TokenKind) (tails : Tails newline closing v) :
    Agrees (Level (Ahead newline closing)) (take kind) v :=
  agrees_accept tails

theorem agrees_takeOneOf (kinds : List TokenKind) (tails : Tails newline closing v) :
    Agrees (Level (Ahead newline closing)) (takeOneOf kinds) v :=
  agrees_accept tails

theorem agrees_takeSpelled (spelling : String) (tails : Tails newline closing v) :
    Agrees (Level (Ahead newline closing)) (takeSpelled spelling) v :=
  agrees_accept tails

theorem agrees_currentKind (tails : Tails newline closing v) :
    Agrees (Level (Ahead newline closing)) currentKind v := by
  rw [currentKind]
  exact agrees_front tails fun t w rest => agrees_pure (.cons t rest)

theorem agrees_currentValue (tails : Tails newline closing v) :
    Agrees (Level (Ahead newline closing)) currentValue v := by
  rw [currentValue]
  exact agrees_front tails fun t w rest => agrees_pure (.cons t rest)

theorem agrees_takeIf (kinds : List TokenKind) (rest : Ahead newline closing v) :
    Agrees (Level (Ahead newline closing)) (takeIf (.oneOf kinds)) v := by
  cases rest with
  | last => exact .lost ⟨"type", rfl⟩
  | cons t rest =>
    rw [takeIf]
    refine agrees_step (w := Versions.cons t _) rfl rfl rfl ?_
    dsimp only
    split
    · exact .level ⟨some t, _, rest, rfl, rfl, rfl⟩
    · exact agrees_pure (.cons t rest)

/-- Dropping newlines stops at a token, at the ends, or after the newline that is one of them. -/
theorem Tails.drop (breaks : Breaks newline) (closes : Closes closing)
    (tails : Tails newline closing v) (limit : Option Nat) :
    (∃ t w, Ahead newline closing w ∧ v.map (dropNewlines limit) = w.cons t) ∨
    (limit ≠ none ∧ v.map (dropNewlines limit) = ⟨[], [newline], [closing]⟩) ∨
    v.map (dropNewlines limit) = ⟨[], [], [closing]⟩ := by
  have kept (limit : Option Nat) : dropNewlines limit [closing] = [closing] :=
    dropNewlines_cons [] limit (by simp [closes.1])
  cases tails with
  | skipped => exact .inr (.inr (by rw [Versions.map, kept, dropNewlines]))
  | ahead rest =>
    induction rest generalizing limit with
    | last =>
      by_cases zero : limit = some 0
      · exact .inr (.inl ⟨by simp [zero], by simp [Versions.map, dropNewlines, zero]⟩)
      · exact .inr (.inr (by simp [Versions.map, dropNewlines, zero, breaks.1, closes.1]))
    | @cons t v rest ih =>
      by_cases skipped : (t.kind = some .newline && limit ≠ some 0) = true
      · have dropped : (v.cons t).map (dropNewlines limit) =
            v.map (dropNewlines (limit.map (· - 1))) := by
          simp only [Versions.map, Versions.cons, dropNewlines, if_pos skipped]
        rw [dropped]
        refine (ih _).imp_right (Or.imp_left (And.imp_left fun some none => some ?_))
        rw [none, Option.map_none]
      · refine .inl ⟨t, v, rest, ?_⟩
        simp only [Versions.map, Versions.cons, dropNewlines, if_neg skipped]

theorem agrees_map {limit : Option Nat} {k : Option Token → Reading α} {w : Versions}
    (dropped : v.map (dropNewlines limit) = w)
    (others : Kin L ((k w.bare.head?).run w.bare) ((k w.broken.head?).run w.broken)
      ((k w.closed.head?).run w.closed)) : Agrees L (skipNewlines limit >>= k) v := by
  subst dropped
  rw [Agrees, run_bind_of_ok (run_skipNewlines _ _), run_bind_of_ok (run_skipNewlines _ _),
    run_bind_of_ok (run_skipNewlines _ _)]
  exact others

/-- Newlines are skipped up to a token or the end. -/
theorem agrees_skipNewlines (breaks : Breaks newline) (closes : Closes closing)
    {k : Option Token → Reading α} (tails : Tails newline closing v)
    (front : ∀ t w, Ahead newline closing w → Agrees L (k (some t)) (w.cons t))
    (finish : Kin L ((k none).run []) ((k none).run []) ((k (some closing)).run [closing])) :
    Agrees L (skipNewlines none >>= k) v := by
  rcases tails.drop breaks closes none with ⟨t, w, rest, same⟩ | ⟨limited, -⟩ | same
  · exact agrees_map same (front t w rest)
  · exact absurd rfl limited
  · exact agrees_map same finish

theorem agrees_dropNewlines (breaks : Breaks newline) (closes : Closes closing)
    {r : Reading α} (tails : Tails newline closing v) (limit : Option Nat)
    (others : ∀ w, Tails newline closing w → Agrees L r w) :
    Agrees L (do let _ ← skipNewlines limit; r) v := by
  rcases tails.drop breaks closes limit with ⟨t, w, rest, same⟩ | ⟨-, same⟩ | same
  · exact agrees_map same (others _ (.ahead (.cons t rest)))
  · exact agrees_map same (others _ (.ahead .last))
  · exact agrees_map same (others _ .skipped)

/-- With enough fuel for all versions, each is read as with its own. -/
theorem agrees_fuelled {r : Nat → Reading α}
    (settled : ∀ {n m : Nat} {tokens : List Token}, n ≤ m → fuelFor tokens ≤ n →
      Settled (r n) (r m) tokens) (agrees : ∀ fuel, Agrees L (r fuel) v) :
    Agrees L (fuelled r) v := by
  have same (tokens : List Token) {fuel : Nat} (enough : fuelFor tokens ≤ fuel) :
      (fuelled r).run tokens = (r fuel).run tokens :=
    (settled enough Nat.le.refl).same.symm
  have all := agrees (fuelFor v.bare + fuelFor v.broken + fuelFor v.closed)
  rw [Agrees, ← same, ← same, ← same] at all
  · exact all
  all_goals omega

theorem agrees_branch {T : Versions → Prop} {c : Prop} [Decidable c] {r r' : Reading β}
    {k : β → Reading α} (yes : Agrees (Level T) r v) (no : Agrees (Level T) r' v)
    (others : ∀ a w, T w → Agrees L (k a) w) :
    Agrees L (if c then r >>= k else r' >>= k) v := by
  split
  · exact yes.bind others
  · exact no.bind others

end Steps

section Objects

variable {newline closing : Token} {v : Versions}

theorem agrees_path (fuel : Nat) (name : Option String) (parents : List (Option String))
    (tails : Tails newline closing v) :
    AgreesOn newline closing (readModule fuel name parents) v := by
  induction fuel generalizing v name parents with
  | zero => exact agrees_throw _
  | succ fuel ih =>
    rw [readModule]
    refine agrees_front tails fun t w rest => ?_
    have here : Tails newline closing (w.cons t) := .ahead (.cons t rest)
    split
    · exact agrees_pure here
    iterate 2
      · exact (agrees_takeOneOf _ here).bind fun _ w rest => agrees_pure (.ahead rest)
    iterate 2
      · refine agrees_next (agrees_front (.ahead rest) fun t w rest => ?_)
        have here : Tails newline closing (w.cons t) := .ahead (.cons t rest)
        split
        iterate 2
          · exact ih _ _ here
        iterate 2
          · exact (agrees_takeOneOf _ here).bind fun _ w rest => agrees_pure (.ahead rest)
        · exact agrees_pure here
    · exact agrees_throw _

theorem agrees_numberOf (text : String) (tails : Tails newline closing v) :
    AgreesOn newline closing (liftM (numberOf text) : Reading Expr) v := by
  rw [AgreesOn, Agrees, run_lift, run_lift, run_lift]
  cases numberOf text with
  | ok e => exact .level ⟨e, v, tails, rfl, rfl, rfl⟩
  | error fault => exact .failed ⟨fault, rfl⟩ ⟨fault, rfl⟩ ⟨fault, rfl⟩

theorem agrees_closeObject (entries : List (String × Value)) (tails : Tails newline closing v) :
    AgreesOn newline closing (readEntries.closeObject entries) v := by
  rw [readEntries.closeObject]
  refine agrees_front tails fun t w rest => ?_
  split
  · exact agrees_pure (.ahead (.cons t rest))
  · exact agrees_throw _

variable (breaks : Breaks newline) (closes : Closes closing)

include breaks closes

mutual

theorem agrees_entries (fuel : Nat) (before : List (String × Value)) {v : Versions}
    (tails : Tails newline closing v) :
    AgreesOn newline closing (readEntries fuel before) v := by
  match fuel with
  | 0 => exact agrees_throw _
  | fuel + 1 =>
    rw [readEntries]
    cases tails with
    | ahead rest =>
      cases rest with
      | last => exact .lost ⟨"value", rfl⟩
      | cons t rest =>
        refine agrees_current ?_
        have here : Tails newline closing (Versions.cons t _) := .ahead (.cons t rest)
        dsimp only
        split
        · exact agrees_closeObject before here
        · refine (agrees_entry fuel here).bind fun entry w tails => ?_
          refine agrees_dropNewlines breaks closes tails none fun w tails => ?_
          refine (agrees_currentKind tails).bind fun kind w rest => ?_
          split
          · exact agrees_closeObject _ (.ahead rest)
          · exact (agrees_take .comma (.ahead rest)).bind fun _ w rest =>
              agrees_entries fuel _ (.ahead rest)
    | skipped => exact .lost ⟨"value", rfl⟩

theorem agrees_entry (fuel : Nat) {v : Versions} (tails : Tails newline closing v) :
    AgreesOn newline closing (readEntry fuel) v := by
  match fuel with
  | 0 => exact agrees_throw _
  | fuel + 1 =>
    rw [readEntry]
    refine agrees_dropNewlines breaks closes tails none fun w tails => ?_
    refine (agrees_takeOneOf _ tails).bind fun key w rest => ?_
    refine (agrees_takeSpelled ":" (.ahead rest)).bind fun _ w rest => ?_
    refine (agrees_currentKind (.ahead rest)).bind fun kind w rest => ?_
    split
    · refine (agrees_take .lbrace (.ahead rest)).bind fun _ w rest => ?_
      refine (agrees_entries fuel [] (.ahead rest)).bind fun value w tails => ?_
      exact (agrees_take .rbrace tails).bind fun _ w rest => agrees_pure (.ahead rest)
    · exact (agrees_takeOneOf _ (.ahead rest)).bind fun _ w rest => agrees_pure (.ahead rest)

end

end Objects

section Finish

variable {newline closing : Token} (breaks : Breaks newline) (closes : Closes closing)

include closes in
theorem readPrimary_closing (fuel : Nat) : Failed ((readPrimary fuel).run [closing]) := by
  cases fuel with
  | zero => exact ⟨_, rfl⟩
  | succ fuel =>
    obtain ⟨kind, value⟩ := closes
    exact ⟨_, by simp [readPrimary, dropNewlines, isUnary, kind, value]; rfl⟩

include closes in
theorem readExpr_closing (fuel : Nat) (least : Int) :
    Failed ((readExpr fuel least).run [closing]) := by
  cases fuel with
  | zero => exact ⟨_, rfl⟩
  | succ fuel =>
    rw [readExpr]
    exact (readPrimary_closing closes fuel).bind

include closes in
theorem readTop_closing (fuel : Nat) : Failed ((readTop fuel).run [closing]) := by
  cases fuel with
  | zero => exact ⟨_, rfl⟩
  | succ fuel =>
    have expression : (readTop (fuel + 1)).run [closing] = (readExpr fuel 0).run [closing] := by
      simp [readTop, closes.1]
    rw [expression]
    exact readExpr_closing closes fuel 0

include breaks in
/-- A newline at the end stands for no statement. -/
theorem readTop_newline (fuel : Nat) :
    (readTop fuel).run [newline] = (.ok .missing, []) ∨ Starved ((readTop fuel).run [newline]) := by
  match fuel with
  | 0 => exact .inr rfl
  | 1 => exact .inr (by simp [readTop, breaks.1, readExpr, Starved])
  | 2 => exact .inr (by simp [readTop, breaks.1, readExpr, readPrimary, Starved])
  | fuel + 3 =>
    refine .inl ?_
    simp [readTop, breaks.1, readExpr, readPrimary, dropNewlines, readOperators]

include breaks in
/-- Among arguments a newline at the end is read as one, and a token is looked for after it. -/
theorem readMoreArguments_newline (fuel : Nat) :
    Overran ((readMoreArguments (fuel + 1)).run [newline]) ∨
      Starved ((readMoreArguments (fuel + 1)).run [newline]) := by
  rw [readMoreArguments, run_bind_of_ok (run_current _)]
  simp only [List.head?_cons, breaks.2]
  rw [if_neg (by decide)]
  rcases readTop_newline breaks fuel with missing | starved
  · rw [run_bind_of_ok missing]
    exact .inl ⟨"value", rfl⟩
  · exact .inr starved.bind

end Finish

/-- Parameters may end with the tokens. What is read after them fails then. -/
def LevelOrEnded (newline closing : Token) {α : Type} (o o' o'' : Outcome α) : Prop :=
  (∃ a, o = (.ok a, [])) ∨ Level (Tails newline closing) o o' o''

theorem Agrees.bind_ended {α β : Type} {L : Outcome β → Outcome β → Outcome β → Prop}
    {newline closing : Token} {r : Reading α} {k : α → Reading β} {v : Versions}
    (first : Agrees (LevelOrEnded newline closing) r v)
    (ended : ∀ a o' o'', Kin L ((k a).run []) o' o'')
    (others : ∀ a w, Tails newline closing w → Agrees L (k a) w) : Agrees L (r >>= k) v := by
  refine first.bind_or fun level => ?_
  rcases level with ⟨a, ran⟩ | ⟨a, w, tails, ran, ran', ran''⟩
  · rw [Agrees, run_bind_of_ok ran]
    exact ended a _ _
  · exact agrees_step ran ran' ran'' (others a w tails)

/-- The readers that call each other agree on the versions. -/
structure Concur (newline closing : Token) (fuel : Nat) : Prop where
  statement {v : Versions} (tails : Tails newline closing v) :
    AgreesOn newline closing (readTop fuel) v
  expression (least : Int) {v : Versions} (tails : Tails newline closing v) :
    AgreesOn newline closing (readExpr fuel least) v
  operators (least : Int) (l : Expr) {v : Versions} (tails : Tails newline closing v) :
    AgreesOn newline closing (readOperators fuel least l) v
  operand {v : Versions} (tails : Tails newline closing v) :
    AgreesOn newline closing (readPrimary fuel) v
  usage (name : String) {v : Versions} (tails : Tails newline closing v) :
    AgreesOn newline closing (readName fuel name) v
  assignment (binding : Option String) (name : String) {v : Versions}
    (tails : Tails newline closing v) :
    AgreesOn newline closing (readAssignment fuel binding name) v
  call {v : Versions} (tails : Tails newline closing v) :
    AgreesOn newline closing (readArguments fuel) v
  arguments {v : Versions} (rest : Ahead newline closing v) :
    AgreesOn newline closing (readMoreArguments fuel) v
  signature {v : Versions} (tails : Tails newline closing v) :
    Agrees (LevelOrEnded newline closing) (readParameters fuel) v
  parameters {v : Versions} (tails : v.bare = [] ∨ Tails newline closing v) :
    Agrees (LevelOrEnded newline closing) (readMoreParameters fuel) v
  function {v : Versions} (tails : Tails newline closing v) :
    AgreesOn newline closing (readFunction fuel) v
  ret {t : Token} {v : Versions} (rest : Ahead newline closing v) :
    AgreesOn newline closing (readReturn fuel) (v.cons t)
  conditional {v : Versions} (tails : Tails newline closing v) :
    AgreesOn newline closing (readConditional fuel) v
  block {v : Versions} (tails : Tails newline closing v) :
    AgreesOn newline closing (readBlock fuel) v
  statements {v : Versions} (tails : Tails newline closing v) :
    AgreesOn newline closing (readStatements fuel) v

section Readers

variable {newline closing : Token} (breaks : Breaks newline) (closes : Closes closing) {fuel : Nat}
  (known : Concur newline closing fuel) {v : Versions} (tails : Tails newline closing v)

include known tails

theorem agrees_expression (least : Int) :
    AgreesOn newline closing (readExpr (fuel + 1) least) v := by
  rw [readExpr]
  exact (known.operand tails).bind fun l w tails => known.operators least l tails

theorem agrees_usage (name : String) :
    AgreesOn newline closing (readName (fuel + 1) name) v := by
  rw [readName]
  cases tails with
  | skipped => exact .lost ⟨"value", rfl⟩
  | ahead rest =>
    cases rest with
    | last => exact .lost ⟨"value", rfl⟩
    | @cons t v rest =>
      refine agrees_step (w := v.cons t) rfl rfl rfl ?_
      split
      · refine agrees_next ((known.statement (.ahead rest)).bind fun _ w tails => agrees_pure tails)
      split
      · exact (known.call (.ahead (.cons t rest))).bind fun _ w tails => agrees_pure tails
      split
      · exact agrees_next (known.assignment none name (.ahead rest))
      · exact agrees_pure (.ahead (.cons t rest))

theorem agrees_call : AgreesOn newline closing (readArguments (fuel + 1)) v := by
  rw [readArguments]
  exact (agrees_take .lparen tails).bind fun _ w rest => known.arguments rest

theorem agrees_signature :
    Agrees (LevelOrEnded newline closing) (readParameters (fuel + 1)) v := by
  rw [readParameters]
  exact (agrees_take .lparen tails).bind fun _ w rest => known.parameters (.inr (.ahead rest))

theorem agrees_function : AgreesOn newline closing (readFunction (fuel + 1)) v := by
  rw [readFunction]
  refine (agrees_take .identifier tails).bind fun name w rest => ?_
  refine (known.signature (.ahead rest)).bind_ended (fun _ _ _ => ?_) fun params w tails => ?_
  · -- There is nothing left for the body.
    cases fuel with
    | zero => exact .starved (.inl rfl)
    | succ fuel => exact .lost ⟨"value", rfl⟩
  · exact (known.block tails).bind fun _ w tails => agrees_pure tails

include breaks closes

theorem agrees_operators (least : Int) (l : Expr) :
    AgreesOn newline closing (readOperators (fuel + 1) least l) v := by
  have stops {t : Token} (operator : t.kind ≠ some .operator) (semicolon : t.kind ≠ some .semicolon) :
      (readOperators (fuel + 1) least l).run [t] = (.ok l, [t]) := by
    simp [readOperators, operator, semicolon]
  have stops' := stops (t := closing) (by simp [closes.1]) (by simp [closes.1])
  cases tails with
  | skipped => exact .level ⟨l, ⟨[], [], [closing]⟩, .skipped, rfl, rfl, stops'⟩
  | ahead rest =>
    cases rest with
    | last =>
      have stops := stops (t := newline) (by simp [breaks.1]) (by simp [breaks.1])
      exact .level ⟨l, ⟨[], [newline], [closing]⟩, .ahead .last, rfl, stops, stops'⟩
    | cons t rest =>
      rw [readOperators]
      refine agrees_current ?_
      dsimp only
      split
      · refine agrees_next ?_
        split
        · exact agrees_pure (.ahead rest)
        · exact (known.expression _ (.ahead rest)).bind fun _ w tails => known.operators least _ tails
      · split
        · exact (agrees_take .semicolon (.ahead (.cons t rest))).bind fun _ w rest =>
            agrees_pure (.ahead rest)
        · exact agrees_pure (.ahead (.cons t rest))

theorem agrees_operand : AgreesOn newline closing (readPrimary (fuel + 1)) v := by
  have refuses := readPrimary_closing closes (fuel + 1)
  rw [readPrimary] at refuses ⊢
  -- After newlines alone there is no operand, be the last of them one of the ends or not.
  rw [run_bind_of_ok (run_skipNewlines _ _),
    dropNewlines_cons [] none (by simp [closes.1])] at refuses
  refine agrees_skipNewlines breaks closes tails (fun t w rest => ?_) (.refused rfl refuses)
  have here : Tails newline closing (w.cons t) := .ahead (.cons t rest)
  dsimp only
  split
  · refine agrees_next ?_
    split
    · exact (known.operand (.ahead rest)).bind fun _ w tails => agrees_pure tails
    · exact (known.expression _ (.ahead rest)).bind fun _ w tails => agrees_pure tails
  split
  · refine (agrees_take .lparen here).bind fun _ w rest => ?_
    refine (known.expression 0 (.ahead rest)).bind fun _ w tails => ?_
    exact (agrees_take .rparen tails).bind fun _ w rest => agrees_pure (.ahead rest)
  split
  · refine (agrees_take .lbrace here).bind fun _ w rest => ?_
    refine Agrees.bind (agrees_fuelled settled_object fun fuel =>
      agrees_entries breaks closes fuel [] (.ahead rest)) fun _ w tails => ?_
    exact (agrees_take .rbrace tails).bind fun _ w rest => agrees_pure (.ahead rest)
  split
  · exact agrees_next (agrees_numberOf _ (.ahead rest))
  · exact agrees_next (agrees_pure (.ahead rest))
  · exact agrees_next (known.usage _ (.ahead rest))
  · refine agrees_next ?_
    split
    · exact agrees_pure (.ahead rest)
    refine (agrees_currentValue (.ahead rest)).bind fun following w rest => ?_
    split
    · exact (known.call (.ahead rest)).bind fun _ w tails => agrees_pure tails
    split
    · exact agrees_throw _
    · exact agrees_throw _
  · exact agrees_throw _

theorem agrees_assignment (binding : Option String) (name : String) :
    AgreesOn newline closing (readAssignment (fuel + 1) binding name) v := by
  rw [readAssignment]
  refine (agrees_currentKind tails).bind fun kind v rest => ?_
  split
  · exact agrees_pure (.ahead rest)
  refine agrees_branch (agrees_pure (.ahead rest)) (known.expression 0 (.ahead rest))
    fun value v tails => ?_
  have refuses (t : Token) (other : t.kind = some .rparen) :
      (takeOneOf separators).run [t] = (.error (.notJoinable 0 "TokenType"), []) := by
    simp [takeOneOf, separators, other]
  cases tails with
  | skipped => exact .refused rfl ⟨_, by simp [closes.1, refuses closing closes.1]; rfl⟩
  | ahead rest =>
    cases rest with
    | last =>
      -- The newline is the separator, which may be missing at the end.
      have ends : (takeOneOf separators).run [newline] = (.ok newline, []) :=
        run_takeOneOf [] breaks.1 (by simp [separators])
      exact .refused (by simp [breaks.1, ends]) ⟨_, by simp [closes.1, refuses closing closes.1]; rfl⟩
    | cons t rest =>
      refine agrees_current ?_
      dsimp only
      split
      · exact agrees_pure (.ahead (.cons t rest))
      · exact (agrees_takeOneOf _ (.ahead (.cons t rest))).bind fun _ w rest =>
          agrees_pure (.ahead rest)

theorem agrees_conditional :
    AgreesOn newline closing (readConditional (fuel + 1)) v := by
  rw [readConditional]
  refine agrees_taken tails fun t w rest => ?_
  split
  · exact (known.block (.ahead rest)).bind fun _ w tails => agrees_pure tails
  refine (agrees_take .lparen (.ahead rest)).bind fun _ w rest => ?_
  refine (known.expression 0 (.ahead rest)).bind fun condition w tails => ?_
  refine (agrees_take .rparen tails).bind fun _ w rest => ?_
  refine (known.block (.ahead rest)).bind fun body w tails => ?_
  refine agrees_skipNewlines breaks closes tails (fun u w rest => ?_) ?_
  · dsimp only
    split
    · exact (known.conditional (.ahead (.cons u rest))).bind fun _ w tails => agrees_pure tails
    · exact agrees_pure (.ahead (.cons u rest))
  · exact .level ⟨_, ⟨[], [], [closing]⟩, .skipped, rfl, rfl, by simp [closes.1]⟩

theorem agrees_block : AgreesOn newline closing (readBlock (fuel + 1)) v := by
  rw [readBlock]
  refine agrees_front tails fun t w rest => ?_
  have here : Tails newline closing (w.cons t) := .ahead (.cons t rest)
  split
  · refine (agrees_take .lbrace here).bind fun _ w rest => ?_
    exact agrees_dropNewlines breaks closes (.ahead rest) none fun w tails => known.statements tails
  · refine agrees_dropNewlines breaks closes here (some 1) fun w tails => ?_
    refine (agrees_currentKind tails).bind fun kind w rest => ?_
    split
    · exact agrees_throw _
    · exact (known.statement (.ahead rest)).bind fun _ w tails => agrees_pure tails

theorem agrees_statements : AgreesOn newline closing (readStatements (fuel + 1)) v := by
  rw [readStatements]
  cases tails with
  | skipped => exact .lost ⟨"value", rfl⟩
  | ahead rest =>
    cases rest with
    | last => exact .lost ⟨"value", rfl⟩
    | cons t rest =>
      refine agrees_current ?_
      dsimp only
      split
      · exact agrees_next (agrees_pure (.ahead rest))
      · refine (known.statement (.ahead (.cons t rest))).bind fun _ w tails => ?_
        refine agrees_dropNewlines breaks closes tails none fun w tails => ?_
        exact (known.statements tails).bind fun _ w tails => agrees_pure tails

theorem agrees_statement : AgreesOn newline closing (readTop (fuel + 1)) v := by
  have refuses := readTop_closing closes (fuel + 1)
  cases tails with
  | skipped => exact .refused rfl refuses
  | ahead rest =>
    cases rest with
    | last =>
      rcases readTop_newline breaks (fuel + 1) with same | starved
      · exact .refused same refuses
      · exact .starved (.inr (.inl starved))
    | cons t rest =>
      have here : Tails newline closing (Versions.cons t _) := .ahead (.cons t rest)
      rw [readTop]
      refine agrees_current ?_
      dsimp only
      split
      · exact known.expression 0 here
      split
      · exact agrees_next (agrees_fuelled settled_import fun fuel =>
          agrees_path fuel none [] (.ahead rest))
      split
      · refine agrees_next ((agrees_take .identifier (.ahead rest)).bind fun name w rest => ?_)
        refine agrees_front (.ahead rest) fun following w rest => ?_
        split
        · exact agrees_next (known.assignment _ _ (.ahead rest))
        · exact agrees_pure (.ahead (.cons following rest))
      split
      · exact agrees_next (known.function (.ahead rest))
      split
      · exact known.ret rest
      split
      · exact known.conditional here
      split
      · exact agrees_next (agrees_throw _)
      · exact agrees_throw _

end Readers

section MoreReaders

variable {newline closing : Token} (breaks : Breaks newline) (closes : Closes closing) {fuel : Nat}
  (known : Concur newline closing fuel) {v : Versions}

include known

theorem agrees_ret {t : Token} (rest : Ahead newline closing v) :
    AgreesOn newline closing (readReturn (fuel + 1)) (v.cons t) := by
  rw [readReturn]
  refine agrees_next ?_
  cases rest with
  | last => exact .lost ⟨"type", rfl⟩
  | @cons u v rest =>
    refine agrees_step (w := v.cons u) rfl rfl rfl ?_
    split
    · exact agrees_next (agrees_pure (.ahead rest))
    split
    · exact agrees_pure (.ahead (.cons u rest))
    · exact (known.expression 0 (.ahead (.cons u rest))).bind fun _ w tails => agrees_pure tails

theorem agrees_parameters (tails : v.bare = [] ∨ Tails newline closing v) :
    Agrees (LevelOrEnded newline closing) (readMoreParameters (fuel + 1)) v := by
  have more (p : Parameter) {v : Versions} (tails : v.bare = [] ∨ Tails newline closing v) :
      Agrees (LevelOrEnded newline closing) (do return p :: (← readMoreParameters fuel)) v :=
    (known.parameters tails).bind_ended (fun params _ _ => .level (.inl ⟨_, rfl⟩))
      fun params w tails => .level (.inr ⟨_, w, tails, rfl, rfl, rfl⟩)
  rcases tails with ended | ⟨_ | ⟨t, rest⟩⟩ | _
  · rw [Agrees, ended]
    exact .level (.inl ⟨[], rfl⟩)
  · exact .level (.inl ⟨[], rfl⟩)
  · have here : Tails newline closing (Versions.cons t _) := .ahead (.cons t rest)
    have done {params : List Parameter} {v : Versions} (tails : Tails newline closing v) :
        Agrees (LevelOrEnded newline closing) (pure params) v :=
      .level (.inr ⟨params, v, tails, rfl, rfl, rfl⟩)
    rw [readMoreParameters]
    refine agrees_current ?_
    dsimp only
    split
    · exact (agrees_take .rparen here).bind fun _ w rest => done (.ahead rest)
    split
    · exact done here
    refine agrees_next ?_
    split
    · refine (agrees_take .identifier (.ahead rest)).bind fun name w rest => ?_
      refine agrees_front (.ahead rest) fun following w rest => ?_
      split
      · exact more _ (.inr (.ahead (.cons following rest)))
      split
      · refine agrees_next ?_
        split
        · refine (known.expression 0 (.ahead rest)).bind fun default w tails => ?_
          refine agrees_tail (more _ ?_)
          -- What comes after the default is dropped, be it one of the ends.
          rcases tails with ⟨_ | ⟨t, rest⟩⟩ | _
          · exact .inl rfl
          · exact .inr (.ahead rest)
          · exact .inl rfl
        · exact more _ (.inr (.ahead rest))
      · exact agrees_throw _
    · exact agrees_throw _
  · exact .level (.inl ⟨[], rfl⟩)

include breaks closes

theorem agrees_arguments (rest : Ahead newline closing v) :
    AgreesOn newline closing (readMoreArguments (fuel + 1)) v := by
  cases rest with
  | last =>
    have closed : (readMoreArguments (fuel + 1)).run [closing] = (.ok [], []) := by
      simp [readMoreArguments, take, closes.1, closes.2]
    rcases readMoreArguments_newline breaks fuel with past | starved
    · exact .unclosed past closed
    · exact .starved (.inr (.inl starved))
  | cons t rest =>
    have here : Tails newline closing (Versions.cons t _) := .ahead (.cons t rest)
    rw [readMoreArguments]
    refine agrees_current ?_
    dsimp only
    split
    · exact (agrees_take .rparen here).bind fun _ w rest => agrees_pure (.ahead rest)
    refine (known.statement here).bind fun argument w tails => ?_
    refine (agrees_currentValue tails).bind fun following w rest => ?_
    split
    · refine (agrees_takeIf _ rest).bind fun _ w rest => ?_
      exact (known.arguments rest).bind fun _ w tails => agrees_pure tails
    · exact (agrees_take .rparen (.ahead rest)).bind fun _ w rest => agrees_pure (.ahead rest)

end MoreReaders

section Program

variable {newline closing : Token} (breaks : Breaks newline) (closes : Closes closing)

include breaks closes

theorem concur (fuel : Nat) : Concur newline closing fuel := by
  induction fuel with
  | zero => constructor <;> intros <;> exact agrees_throw _
  | succ fuel known =>
    exact {
      statement := agrees_statement breaks closes known
      expression least _ tails := agrees_expression known tails least
      operators least l _ tails := agrees_operators breaks closes known tails least l
      operand := agrees_operand breaks closes known
      usage name _ tails := agrees_usage known tails name
      assignment binding name _ tails := agrees_assignment breaks closes known tails binding name
      call := agrees_call known
      arguments := agrees_arguments breaks closes known
      signature := agrees_signature known
      parameters := agrees_parameters known
      function := agrees_function known
      ret := agrees_ret known
      conditional := agrees_conditional breaks closes known
      block := agrees_block breaks closes known
      statements := agrees_statements breaks closes known }

omit breaks in
theorem readProgram_closing (fuel : Nat) : Failed ((readProgram fuel).run [closing]) := by
  cases fuel with
  | zero => exact ⟨_, rfl⟩
  | succ fuel =>
    rw [readProgram, run_bind_of_ok (run_current _)]
    simp only [List.head?_cons, closes.1]
    rw [if_neg (by decide)]
    have fails : Failed ((fuelled readTop).run [closing]) := by
      rw [run_fuelled]
      exact readTop_closing closes (fuelFor [closing])
    exact fails.bind

/-- A program ends where the tokens end, so the readings of a program are never level. -/
theorem agrees_program (fuel : Nat) {v : Versions} (tails : Tails newline closing v) :
    Agrees (Level fun _ => False) (readProgram fuel) v := by
  induction fuel generalizing v with
  | zero => exact agrees_throw _
  | succ fuel ih =>
    have refuses := readProgram_closing closes (fuel + 1)
    rcases tails with ⟨_ | ⟨t, rest⟩⟩ | _
    · have rest : (readProgram (fuel + 1)).run [newline] = (readProgram fuel).run [] := by
        simp [readProgram, breaks.1]
      cases fuel with
      | zero => exact .starved (.inr (.inl (by rw [rest]; rfl)))
      | succ fuel => exact .refused rest refuses
    · rw [readProgram]
      refine agrees_current ?_
      dsimp only
      split
      · exact agrees_next (ih (.ahead rest))
      · refine (agrees_fuelled settled_top fun fuel =>
          (concur breaks closes fuel).statement (.ahead (.cons t rest))).bind fun _ w tails => ?_
        exact (ih tails).bind fun _ _ level => level.elim
    · exact .refused rfl refuses

end Program

theorem ahead_append (newline closing : Token) (tokens : List Token) :
    Ahead newline closing ⟨tokens, tokens ++ [newline], tokens ++ [closing]⟩ := by
  induction tokens with
  | nil => exact .last
  | cons t tokens ih => exact .cons t ih

/-- What a newline and a closing parenthesis at the end change. Without an end the last token was not
enough, or the newline makes no difference, or a call was open. -/
theorem ofTokens_cases {newline closing : Token} (breaks : Breaks newline) (closes : Closes closing)
    (tokens : List Token) :
    Overruns (Expr.ofTokens tokens) ∨
    ((∀ program, Expr.ofTokens tokens ≠ .ok program) ∧
      ∀ program, Expr.ofTokens (tokens ++ [newline]) ≠ .ok program) ∨
    (Expr.ofTokens (tokens ++ [newline]) = Expr.ofTokens tokens ∧
      ∀ program, Expr.ofTokens (tokens ++ [closing]) ≠ .ok program) ∨
    (Overruns (Expr.ofTokens (tokens ++ [newline])) ∧
      Expr.ofTokens (tokens ++ [closing]) = Expr.ofTokens tokens) := by
  -- The three versions are read with one fuel, of which there is enough for each.
  have agrees := agrees_program breaks closes (tokens.length + 2)
    (.ahead (ahead_append newline closing tokens))
  have run (tokens' : List Token) (fits : tokens'.length < tokens.length + 2) :=
    ofTokens_eq_run tokens' fits
  have ends := ofTokens_ends tokens
  have ends' := ofTokens_ends (tokens ++ [newline])
  have ends'' := ofTokens_ends (tokens ++ [closing])
  rw [run tokens (by omega)] at ends ⊢
  rw [run (tokens ++ [newline]) (by simp)] at ends' ⊢
  rw [run (tokens ++ [closing]) (by simp)] at ends'' ⊢
  cases agrees with
  | level same =>
    obtain ⟨_, _, never, _⟩ := same
    exact never.elim
  | starved none =>
    rcases none with starved | starved | starved
    · exact absurd starved ends
    · exact absurd starved ends'
    · exact absurd starved ends''
  | lost past => exact .inl past
  | failed fails fails' _ => exact .inr (.inl ⟨fun _ => fails.not_ok, fun _ => fails'.not_ok⟩)
  | refused same fails => exact .inr (.inr (.inl ⟨congrArg Prod.fst same, fun _ => fails.not_ok⟩))
  | unclosed past same => exact .inr (.inr (.inr ⟨past, congrArg Prod.fst same⟩))

/-- What is read both with and without a newline at the end is the same. -/
theorem eq_of_newline {newline : Token} {tokens : List Token} {p q : List Expr} (breaks : Breaks newline)
    (read : Expr.ofTokens tokens = .ok p) (read' : Expr.ofTokens (tokens ++ [newline]) = .ok q) :
    p = q := by
  have closes : Closes ⟨some .rparen, ")", 1, 1⟩ := ⟨rfl, rfl⟩
  rcases ofTokens_cases breaks closes tokens with past | ⟨fails, -⟩ | ⟨same, -⟩ | ⟨past, -⟩
  · exact absurd read past.not_ok
  · exact absurd read (fails p)
  · exact Except.ok.inj (read.symm.trans (same.symm.trans read'))
  · exact absurd read' past.not_ok

/-- If a program is read without a newline at its end, then it is read with one, unless a call is left
open, which a closing parenthesis would close. If it is read with a newline at its end, then it is
read without, unless a token is looked at that is not there. -/
theorem ofTokens_newline {newline closing : Token} (breaks : Breaks newline) (closes : Closes closing)
    (tokens : List Token) :
    (∀ program, Expr.ofTokens tokens = .ok program →
      Expr.ofTokens (tokens ++ [newline]) = .ok program ∧
        (∀ other, Expr.ofTokens (tokens ++ [closing]) ≠ .ok other) ∨
      Overruns (Expr.ofTokens (tokens ++ [newline])) ∧
        Expr.ofTokens (tokens ++ [closing]) = .ok program) ∧
    (∀ program, Expr.ofTokens (tokens ++ [newline]) = .ok program →
      Expr.ofTokens tokens = .ok program ∨ Overruns (Expr.ofTokens tokens)) := by
  rcases ofTokens_cases breaks closes tokens with
    past | ⟨fails, fails'⟩ | ⟨same, fails⟩ | ⟨past, same⟩
  · exact ⟨fun _ read => absurd read past.not_ok, fun _ _ => .inr past⟩
  · exact ⟨fun _ read => absurd read (fails _), fun _ read => absurd read (fails' _)⟩
  · rw [same]
    exact ⟨fun _ read => .inl ⟨read, fails⟩, fun _ read => .inl read⟩
  · rw [same]
    exact ⟨fun _ read => .inr ⟨past, read⟩, fun _ read => absurd read past.not_ok⟩

/-- The tokens of a call without its closing parenthesis. -/
def openCall : List Token := [⟨some .identifier, "f", 1, 1⟩, ⟨some .lparen, "(", 1, 2⟩]

/-- A call that is left open is read, and with a newline at its end it is not. -/
theorem ofTokens_newline_openCall :
    Breaks ⟨some .newline, "newline", 2, 3⟩ ∧ Closes ⟨some .rparen, ")", 1, 3⟩ ∧
    Expr.ofTokens openCall = .ok [.call "f" []] ∧
    Overruns (Expr.ofTokens (openCall ++ [⟨some .newline, "newline", 2, 3⟩])) ∧
    Expr.ofTokens (openCall ++ [⟨some .rparen, ")", 1, 3⟩]) = .ok [.call "f" []] := by
  have breaks : Breaks ⟨some .newline, "newline", 2, 3⟩ := ⟨rfl, rfl⟩
  have closes : Closes ⟨some .rparen, ")", 1, 3⟩ := ⟨rfl, rfl⟩
  have read : Expr.ofTokens openCall = .ok [.call "f" []] := rfl
  refine ⟨breaks, closes, read, ?_⟩
  rcases (ofTokens_newline breaks closes openCall).1 _ read with ⟨same, -⟩ | unclosed
  · cases same
  · exact unclosed

/-- The tokens of `x + y`. -/
def nameSumTokens : List Token :=
  [⟨some .identifier, "x", 1, 1⟩, ⟨some .operator, "+", 1, 3⟩, ⟨some .identifier, "y", 1, 5⟩]

/-- A newline at the end of a text may decide whether it is read. -/
theorem newline_matters :
    ¬ ∀ (text : String) (tokens : List Token) (newline : Token), Token.ofText text = .ok tokens →
      Token.ofText (text ++ "\n") = .ok (tokens ++ [newline]) → newline.kind = some .newline →
      (Expr.ofTokens tokens).toOption = (Expr.ofTokens (tokens ++ [newline])).toOption := by
  intro same
  have scanned : Token.ofText "x + y" = .ok nameSumTokens := by decide +kernel
  have scanned' : Token.ofText ("x + y" ++ "\n") =
      .ok (nameSumTokens ++ [⟨some .newline, "newline", 2, 6⟩]) := by decide +kernel
  have equal := same "x + y" nameSumTokens ⟨some .newline, "newline", 2, 6⟩ scanned scanned' rfl
  have fails : (Expr.ofTokens nameSumTokens).toOption.isSome = false := rfl
  have reads : (Expr.ofTokens (nameSumTokens ++ [⟨some .newline, "newline", 2, 6⟩])).toOption.isSome =
      true := rfl
  rw [equal, reads] at fails
  cases fails

end Scriptlet.Reading
