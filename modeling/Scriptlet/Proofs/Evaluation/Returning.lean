import Scriptlet.Proofs.Evaluation.Course

set_option autoImplicit false

/-!
What a call returns. A return statement does not stop anything by itself: it leaves a mark among the
results of the statements around it, and a call looks at the first mark of each statement of the body.
`marks` says which marks statements leave, and `execute` what it would be to stop at the first return;
where returns stand in good order the two come to the same.
-/

namespace Scriptlet

theorem Bound.typed {frame : Nat} {params : List Parameter} {m m' : Machine} {t : List Event}
    (bound : Bound frame params m t m') (typed : m.store.Typed) : m'.store.Typed := by
  induction bound with
  | nil => exact typed
  | bind _ hasType store _ _ _ ih =>
      apply ih
      rw [store]
      exact typed.put hasType

theorem Course.typed {home : Scope} {m m' : Machine} {t : List Event} {stage : Stage}
    (course : Course home m t stage m') (typed : m.store.Typed) : m'.store.Typed := by
  induction course with
  | rest => exact typed
  | step change _ _ => exact change.typed typed
  | home store _ _ => rwa [store]
  | block store _ _ => rwa [store]
  | seq _ _ ih ih' => exact ih' (ih typed)
  | fault _ ih => exact ih typed
  | linger _ store _ _ ih =>
      rw [store]
      exact ih typed
  | opens made _ _ _ binds _ ih =>
      refine binds.typed (ih ?_)
      rw [made]
      exact (Store.Change.frame _ _).typed typed
  | hollow _ store _ _ ih =>
      rw [store]
      exact ih typed
  | call _ enteredStore _ _ _ store _ _ ih ih' =>
      rw [store]
      apply ih'
      rw [enteredStore]
      exact ih typed
  | broken _ enteredStore _ _ _ ih ih' =>
      apply ih'
      rw [enteredStore]
      exact ih typed

/-- What a statement leaves for the function around it. -/
inductive Mark
  /-- Nothing in particular. -/
  | passed
  | returns (v : Value)
  /-- A result that is no return statement's and yet not passed over: what the function makes of it. -/
  | strayed (outcome : Except Fault (Option Value))

/-- The mark of a value that is no return statement's, from what it would return if it was. -/
def Mark.ofReturned : Except Fault (Option Value) → Mark
  | .ok none => .passed
  | outcome => .strayed outcome

/-- The first item of a list that has one; any other value is itself. -/
def Value.first : Value → Value
  | list (v :: _) => v
  | v => v

/-- The mark of a result. An object without a type and one of the type of returns stray, and of a list
the first item counts. -/
def Result.mark : Result → Mark
  | .value v => .ofReturned (Run.returnedBy v.first)
  | .block (.value v :: _) => .ofReturned (Run.returnedBy v)
  | .cell .. | .block _ => .passed

namespace Expr

/-- A statement that is neither a return nor a conditional. -/
def isPlain : Expr → Bool
  | ret _ | conditional .. => false
  | _ => true

/-- Returns in good order, if there can be any. A branch of an `if` or `elseif` holds no return unless it
has only one statement; a branch of an `else` holds none. -/
inductive Orderly : Bool → Expr → Prop
  | plain {returning : Bool} {e : Expr} (statement : e.isPlain = true) : Orderly returning e
  | ret (value : Expr) : Orderly true (.ret value)
  | branch {returning : Bool} {keyword : String} {condition : Expr} {body : List Expr}
      {otherwise : Option (List Expr)} (asked : condition ≠ .datum .null)
      (silent : ∀ e ∈ body, Orderly false e)
      (others : ∀ e rest, otherwise = .some (e :: rest) → Orderly returning e) :
      Orderly returning (.conditional keyword condition body otherwise)
  | single {keyword : String} {condition e : Expr} {otherwise : Option (List Expr)}
      (asked : condition ≠ .datum .null) (only : Orderly true e)
      (others : ∀ e rest, otherwise = .some (e :: rest) → Orderly true e) :
      Orderly true (.conditional keyword condition [e] otherwise)
  | final {returning : Bool} {keyword : String} {body : List Expr}
      {otherwise : Option (List Expr)} (silent : ∀ e ∈ body, Orderly false e) :
      Orderly returning (.conditional keyword (.datum .null) body otherwise)

end Expr

/-- How the body of a function ends. -/
inductive Completion
  | ended (returned : Option Value)
  /-- A statement has strayed, or has left no result. -/
  | strayed (outcome : Except Fault (Option Value))

/-- What the function makes of the end of its body. -/
def Completion.returned : Completion → Except Fault (Option Value)
  | ended returned => .ok returned
  | strayed outcome => outcome

namespace Run

variable {α β γ δ : Type}

/-- Decides a condition. -/
def decides (ev : Expr → Run Result) (condition : Expr) : Run Bool := do
  let outcome ← liftM (← snapshot (← ev condition)).condition
  if !outcome.isTruthWord then throw .badCondition
  else return outcome.equal (.str "true")

/-- Enters a block in the scope at hand. Inside blocks no module is found. -/
def enterBlock : Run Unit := modify fun m => m.enter m.scope

/-- Goes on with the next condition of a conditional, if there is one. -/
def chained (otherwise : Option (List Expr)) (next : Expr → Run α) (nothing : α) : Run α :=
  match otherwise with
  | some (e :: _) => next e
  | _ => return nothing

def markAll (mark : Expr → Run (List Mark)) : List Expr → Run (List Mark)
  | [] => return []
  | e :: rest => do return (← mark e) ++ (← markAll mark rest)

/-- Evaluates a statement and gives the marks that it leaves. A conditional evaluates all statements of
the branch that it takes, and leaves their marks, unless the branch is that of an `else`. -/
def marks : Nat → Expr → Run (List Mark)
  | 0, _ => throw .outOfFuel
  | fuel + 1, .ret value => do return [.returns (← unwrap (← eval fuel value))]
  | fuel + 1, .conditional _ (.datum .null) body _ => do
    enterBlock
    let _ ← markAll (marks fuel) body
    return [.passed]
  | fuel + 1, .conditional _ condition body otherwise => do
    if ← decides (eval fuel) condition then
      enterBlock
      markAll (marks fuel) body
    else chained otherwise (marks fuel) [.passed]
  | fuel + 1, e => do return (← eval (fuel + 1) e).spread.map Result.mark

/-- Runs the body of a function up to the first statement whose first mark is that of a return, or that
strays. -/
def completeBody (fuel : Nat) (scope : Scope) : List Expr → Run Completion
  | [] => return .ended none
  | e :: rest => do
    modify fun m => m.enter scope
    match ← marks fuel e with
    | [] => return .strayed (.error .outOfRange)
    | .passed :: _ => completeBody fuel scope rest
    | .returns v :: _ => return .ended (some v)
    | .strayed outcome :: _ => return .strayed outcome

/-- Executes statements in their order, and stops when a return is reached in one of them. -/
def executeAll (execute : Expr → Run (Option Value)) : List Expr → Run (Option Value)
  | [] => return none
  | e :: rest => do
    match ← execute e with
    | some v => return some v
    | none => executeAll execute rest

/-- Executes a statement up to the first return that is reached, and gives the value of the return. -/
def execute : Nat → Expr → Run (Option Value)
  | 0, _ => throw .outOfFuel
  | fuel + 1, .ret value => do return some (← unwrap (← eval fuel value))
  | fuel + 1, .conditional _ (.datum .null) body _ => do
    enterBlock
    executeAll (execute fuel) body
  | fuel + 1, .conditional _ condition body otherwise => do
    if ← decides (eval fuel) condition then
      enterBlock
      executeAll (execute fuel) body
    else chained otherwise (execute fuel) none
  | fuel + 1, e => do
    let _ ← eval (fuel + 1) e
    return none

/-- Executes the body of a function in the scope of its call. -/
def executeBody (fuel : Nat) (scope : Scope) (body : List Expr) : Run (Option Value) :=
  executeAll (fun e => do modify fun m => m.enter scope; execute fuel e) body

/-- Two runs go the same way: they leave the same machine, with related results or the same fault. -/
def Tracks (R : α → β → Prop) (r : Run α) (s : Run β) : Prop :=
  ∀ m, (∃ fault left, r.exec m = (.error fault, left) ∧ s.exec m = (.error fault, left)) ∨
    ∃ a b left, r.exec m = (.ok a, left) ∧ s.exec m = (.ok b, left) ∧ R a b

theorem tracks_self (r : Run α) : Tracks Eq r r := by
  intro m
  rcases ran : r.exec m with ⟨fault | a, left⟩
  · exact Or.inl ⟨fault, left, rfl, rfl⟩
  · exact Or.inr ⟨a, a, left, rfl, rfl, rfl⟩

theorem Tracks.imp {R S : α → β → Prop} {r : Run α} {s : Run β} (tracks : Tracks R r s)
    (implies : ∀ a b, R a b → S a b) : Tracks S r s := by
  intro m
  rcases tracks m with failed | ⟨a, b, left, ran, ran', related⟩
  · exact Or.inl failed
  · exact Or.inr ⟨a, b, left, ran, ran', implies a b related⟩

theorem tracks_pure {R : α → β → Prop} {a : α} {b : β} (related : R a b) :
    Tracks R (pure a) (pure b) :=
  fun m => Or.inr ⟨a, b, m, rfl, rfl, related⟩

theorem tracks_throw {R : α → β → Prop} (fault : Fault) : Tracks R (throw fault) (throw fault) :=
  fun m => Or.inl ⟨fault, m, rfl, rfl⟩

theorem tracks_bind {R : α → β → Prop} {S : γ → δ → Prop} {r : Run α} {s : Run β} {k : α → Run γ}
    {l : β → Run δ} (first : Tracks R r s) (others : ∀ a b, R a b → Tracks S (k a) (l b)) :
    Tracks S (r >>= k) (s >>= l) := by
  intro m
  rcases first m with ⟨fault, left, failed, failed'⟩ | ⟨a, b, left, ran, ran', related⟩
  · exact Or.inl ⟨fault, left, by rw [exec_bind, failed], by rw [exec_bind, failed']⟩
  · rw [exec_bind, exec_bind, ran, ran']
    exact others a b related left

/-- Runs that begin alike. -/
theorem tracks_bind_self {S : γ → δ → Prop} {r : Run α} {k : α → Run γ} {l : α → Run δ}
    (others : ∀ a, Tracks S (k a) (l a)) : Tracks S (r >>= k) (r >>= l) :=
  tracks_bind (tracks_self r) fun a _ same => same ▸ others a

theorem chained_tracks {R : α → β → Prop} {otherwise : Option (List Expr)} {next : Expr → Run α}
    {next' : Expr → Run β} {nothing : α} {nothing' : β} (related : R nothing nothing')
    (others : ∀ e rest, otherwise = some (e :: rest) → Tracks R (next e) (next' e)) :
    Tracks R (chained otherwise next nothing) (chained otherwise next' nothing') := by
  rcases otherwise with _ | (_ | ⟨e, rest⟩)
  · exact tracks_pure related
  · exact tracks_pure related
  · exact others e rest rfl

/-- The results of statements begin with one that the first of the marks is about. -/
inductive Leads : List Result → List Mark → Prop
  | nothing : Leads [] []
  | passed {r : Result} {results : List Result} {marks : List Mark} (mark : r.mark = .passed) :
      Leads (r :: results) (.passed :: marks)
  | returns {v : Value} {results : List Result} {marks : List Mark} :
      Leads (.value v.returned :: results) (.returns v :: marks)
  | strayed {r : Result} {results : List Result} {marks : List Mark}
      {outcome : Except Fault (Option Value)} (mark : r.mark = .strayed outcome) :
      Leads (r :: results) (.strayed outcome :: marks)

theorem Leads.append {results results' : List Result} {marks marks' : List Mark}
    (first : Leads results marks) (second : Leads results' marks') :
    Leads (results ++ results') (marks ++ marks') := by
  cases first with
  | nothing => exact second
  | passed mark => exact .passed mark
  | returns => exact .returns
  | strayed mark => exact .strayed mark

theorem Mark.ofReturned_cases (returned : Except Fault (Option Value)) :
    (Mark.ofReturned returned = .passed ∧ returned = .ok none) ∨
      Mark.ofReturned returned = .strayed returned := by
  rcases returned with fault | (_ | v)
  · exact Or.inr rfl
  · exact Or.inl ⟨rfl, rfl⟩
  · exact Or.inr rfl

/-- A result that is no return statement's passes or strays. -/
theorem mark_cases (r : Result) : r.mark = .passed ∨ ∃ outcome, r.mark = .strayed outcome := by
  have either (returned : Except Fault (Option Value)) : Mark.ofReturned returned = .passed ∨
      ∃ outcome, Mark.ofReturned returned = .strayed outcome :=
    (Mark.ofReturned_cases returned).imp And.left fun strayed => ⟨returned, strayed⟩
  cases r with
  | value v => exact either _
  | cell frame name => exact Or.inl rfl
  | block results =>
      rcases results with _ | ⟨v | ⟨_, _⟩ | _, _⟩
      · exact Or.inl rfl
      · exact either _
      · exact Or.inl rfl
      · exact Or.inl rfl

theorem leads_marks (results : List Result) : Leads results (results.map Result.mark) := by
  cases results with
  | nil => exact .nothing
  | cons r rest =>
      rcases mark_cases r with passed | ⟨outcome, strayed⟩
      · rw [List.map_cons, passed]
        exact .passed passed
      · rw [List.map_cons, strayed]
        exact .strayed strayed

/-- The result of a statement leads its marks. -/
def Shows (r : Result) (marks : List Mark) : Prop := Leads r.spread marks

theorem tracks_mark (r : Run Result) :
    Tracks Shows r (r >>= fun result => pure (result.spread.map Result.mark)) := by
  intro m
  rw [exec_bind]
  rcases ran : r.exec m with ⟨fault | result, left⟩
  · exact Or.inl ⟨fault, left, rfl, rfl⟩
  · exact Or.inr ⟨result, result.spread.map Result.mark, left, rfl, rfl, leads_marks _⟩

theorem evalAll_tracks {ev : Expr → Run Result} {mark : Expr → Run (List Mark)}
    (tracks : ∀ e, Tracks Shows (ev e) (mark e)) (body : List Expr) :
    Tracks Leads (evalAll ev body) (markAll mark body) := by
  induction body with
  | nil => exact tracks_pure .nothing
  | cons e rest ih =>
      refine tracks_bind (tracks e) fun result marks leads => ?_
      exact tracks_bind ih fun results marks' leads' => tracks_pure (leads.append leads')

theorem evalBlock_eq (ev : Expr → Run Result) (body : List Expr) :
    evalBlock ev body = enterBlock >>= fun _ => evalAll ev body := rfl

theorem eval_conditional {fuel : Nat} {keyword : String} {condition : Expr} {body : List Expr}
    {otherwise : Option (List Expr)} (present : condition ≠ .datum .null) :
    eval (fuel + 1) (.conditional keyword condition body otherwise) = (do
      if ← decides (eval fuel) condition then return .block (← evalBlock (eval fuel) body)
      else chained otherwise (eval fuel) (.value .null)) := by
  change evalWith (eval fuel) _ = _
  rw [evalWith_conditional present]
  simp only [decides, bind_assoc]
  congr 1
  funext result
  congr 1
  funext value
  congr 1
  funext outcome
  split
  · rfl
  · rw [pure_bind]
    rcases otherwise with _ | (_ | ⟨e, rest⟩) <;> rfl

theorem marks_conditional {fuel : Nat} {keyword : String} {condition : Expr} {body : List Expr}
    {otherwise : Option (List Expr)} (present : condition ≠ .datum .null) :
    marks (fuel + 1) (.conditional keyword condition body otherwise) = (do
      if ← decides (eval fuel) condition then
        enterBlock
        markAll (marks fuel) body
      else chained otherwise (marks fuel) [.passed]) := by
  cases condition with
  | datum v =>
      cases v with
      | null => exact absurd rfl present
      | _ => rfl
  | _ => rfl

/-- Evaluation leaves the marks of a statement and does nothing else than the statement does. -/
theorem eval_tracks (fuel : Nat) (e : Expr) : Tracks Shows (eval fuel e) (marks fuel e) := by
  induction fuel generalizing e with
  | zero => exact tracks_throw .outOfFuel
  | succ fuel ih =>
      cases e with
      | ret value =>
          refine tracks_bind_self fun result => tracks_bind_self fun v => ?_
          exact tracks_pure .returns
      | conditional keyword condition body otherwise =>
          by_cases missing : condition = .datum .null
          · subst missing
            change Tracks Shows (evalBlock (eval fuel) body >>= fun _ => pure (.value .null)) _
            rw [evalBlock_eq, bind_assoc]
            refine tracks_bind_self fun _ => tracks_bind (evalAll_tracks ih body) fun _ _ _ => ?_
            exact tracks_pure (.passed rfl)
          · rw [eval_conditional missing, marks_conditional missing]
            refine tracks_bind_self fun holds => ?_
            split
            · simp only [evalBlock_eq, bind_assoc]
              refine tracks_bind_self fun _ => ?_
              rw [← bind_pure (markAll (marks fuel) body)]
              exact tracks_bind (evalAll_tracks ih body) fun _ _ leads => tracks_pure leads
            · exact chained_tracks (.passed rfl) fun e _ _ => ih e
      | _ => exact tracks_mark _

/-- Evaluation keeps bindings typed. -/
theorem eval_typed {fuel : Nat} {e : Expr} {m left : Machine} {outcome : Except Fault Result}
    (ran : (eval fuel e).exec m = (outcome, left)) (typed : m.store.Typed) : left.store.Typed := by
  have course := Recorded.eval_follows fuel e m.scope m
  unfold Recorded.Follows at course
  rw [Recorded.eval_records fuel e m, ran] at course
  exact course.typed typed

/-- What is bound in a store passes: the type of a record is never that of returns. -/
theorem returnedBy_binding {binding : Binding} (typed : binding.Typed) :
    returnedBy binding.toValue = .ok none ∧ ∀ items, binding.toValue ≠ .list items := by
  cases binding with
  | record r =>
      obtain ⟨value, type, how⟩ := r
      refine ⟨?_, fun items => Value.noConfusion⟩
      simp only [Binding.Typed, Value.typeNames, List.mem_cons, List.not_mem_nil, or_false] at typed
      rcases typed with rfl | rfl | rfl | rfl <;> rfl
  | function f =>
      cases f with
      | builtin f => exact ⟨rfl, fun items => Value.noConfusion⟩
      | function serial address name params body => exact ⟨rfl, fun items => Value.noConfusion⟩
      | _ => cases typed

/-- What a variable holds passes, whether it is bound or not. -/
theorem returnedBy_cell {store : Store} (typed : store.Typed) (frame : Nat) (name : String) :
    returnedBy ((Result.cell frame name).snapshot store) = .ok none ∧
      ∀ items, (Result.cell frame name).snapshot store ≠ .list items := by
  cases found : store.binding? frame name with
  | none =>
      simp only [Result.snapshot, found]
      exact ⟨rfl, fun items => Value.noConfusion⟩
  | some binding =>
      simp only [Result.snapshot, found]
      exact returnedBy_binding (typed frame name binding found)

theorem exec_firstResult (r : Result) (rest : List Result) (m : Machine) :
    (firstResult (r :: rest)).exec m = (.ok (r.snapshot m.store).first, m) := by
  simp only [firstResult, exec_bind, exec_snapshot]
  cases r.snapshot m.store with
  | list items => cases items <;> rfl
  | _ => rfl

/-- The mark of a result says what a function makes of it. -/
theorem ofReturned_first {r : Result} {store : Store} (typed : store.Typed) :
    Mark.ofReturned (returnedBy (r.snapshot store).first) = r.mark := by
  have single {v : Value} (unlisted : ∀ items, v ≠ .list items) : v.first = v := by
    cases v with
    | list items => exact absurd rfl (unlisted items)
    | _ => rfl
  cases r with
  | value v => rw [Result.snapshot, Result.mark]
  | cell frame name =>
      obtain ⟨passes, unlisted⟩ := returnedBy_cell typed frame name
      rw [single unlisted, passes]
      rfl
  | block results =>
      rcases results with _ | ⟨v | ⟨frame, name⟩ | inner, rest⟩
      · rfl
      · simp only [Result.snapshot, Result.snapshotAll]
        rfl
      · have passes := (returnedBy_cell typed frame name).1
        rw [Result.snapshot, Result.snapshotAll, Value.first, passes]
        rfl
      · rw [Result.snapshot, Result.snapshotAll, Value.first, Result.snapshot]
        rfl

theorem firstResult_returned (v : Value) (rest : List Result) (m : Machine) :
    (firstResult (.value v.returned :: rest)).exec m = (.ok v.returned, m) := rfl

theorem returnedBy_returned (v : Value) : returnedBy v.returned = .ok (some v.returnedWord) := rfl

theorem evalBody_cons (ev : Expr → Run Result) (scope : Scope) (e : Expr) (rest : List Expr) :
    evalBody ev scope (e :: rest) = (do
      modify fun m => m.enter scope
      let result ← firstResult (← ev e).spread
      match ← liftM (returnedBy result) with
      | some v => return some v
      | none => evalBody ev scope rest) := by
  simp only [evalBody, evalIn, evalAll, bind_assoc, pure_bind, List.append_nil]
  rfl

/-- A body ends with a statement that returns. -/
theorem evalBody_returns {ev : Expr → Run Result} {scope : Scope} {e : Expr} {rest : List Expr}
    {machine after : Machine} {result : Result} {v : Value} {others : List Result}
    (ran : (ev e).exec (machine.enter scope) = (.ok result, after))
    (returns : result.spread = .value v.returned :: others) :
    (evalBody ev scope (e :: rest)).exec machine = (.ok (some v.returnedWord), after) := by
  rw [evalBody_cons]
  simp only [exec_bind, exec_modify, ran, returns, firstResult_returned, returnedBy_returned,
    exec_lift, exec_pure]

/-- A body goes on after a statement that gives nothing. -/
theorem evalBody_continues {ev : Expr → Run Result} {scope : Scope} {e : Expr}
    {rest : List Expr} {machine after : Machine}
    (ran : (ev e).exec (machine.enter scope) = (.ok (.value .null), after)) :
    (evalBody ev scope (e :: rest)).exec machine = (evalBody ev scope rest).exec after := by
  rw [evalBody_cons]
  simp only [exec_bind, exec_modify, ran]
  rfl

/-- What comes of a body that ends in a way, where truth values are returned as words. -/
inductive Gives : Except Fault Completion × Machine → Except Fault (Option Value) × Machine → Prop
  | failed {fault : Fault} {left : Machine} : Gives (.error fault, left) (.error fault, left)
  | completed {completion : Completion} {left : Machine} :
      Gives (.ok completion, left) (completion.returned.map (Option.map Value.returnedWord), left)

/-- What is taken for the value of a return is a word, if it is a truth value. -/
theorem returnedBy_word (v : Value) :
    (returnedBy v).map (Option.map Value.returnedWord) = returnedBy v := by
  have word (v : Value) : v.returnedWord.returnedWord = v.returnedWord := by
    cases v with
    | bool b => cases b <;> rfl
    | _ => rfl
  cases v with
  | obj entries =>
      simp only [returnedBy]
      split
      · rfl
      · rcases Value.subscript "type" (.obj entries) with fault | type
        · rfl
        · dsimp only [bind, Except.bind]
          split
          · rcases Value.subscript "value" (.obj entries) with fault | value
            · rfl
            · simp only [pure, Except.pure, Except.map, Option.map_some, word]
          · rfl
  | _ => rfl

/-- A body is evaluated as the marks of its statements say. -/
theorem evalBody_gives {fuel : Nat} {scope : Scope} (body : List Expr) {m : Machine}
    (typed : m.store.Typed) :
    Gives ((completeBody fuel scope body).exec m) ((evalBody (eval fuel) scope body).exec m) := by
  induction body generalizing m with
  | nil => exact .completed
  | cons e rest ih =>
      rw [evalBody_cons, completeBody]
      simp only [exec_bind, exec_modify]
      rcases eval_tracks fuel e (m.enter scope) with
        ⟨fault, left, failed, failed'⟩ | ⟨r, ms, left, ran, ran', leads⟩
      · simp only [failed, failed']
        exact .failed
      · have hasTypes : left.store.Typed := eval_typed ran typed
        simp only [ran, ran']
        unfold Shows at leads
        -- of the results only the first counts, which is what the first mark is about
        generalize r.spread = results at leads
        cases leads with
        | nothing => exact .completed
        | @passed first results _ mark =>
            have marked := (ofReturned_first hasTypes).trans mark
            simp only [exec_firstResult, exec_lift]
            rcases Mark.ofReturned_cases (returnedBy (first.snapshot left.store).first) with
              ⟨-, none⟩ | strayed
            · rw [none]
              exact ih hasTypes
            · rw [strayed] at marked
              cases marked
        | @returns v results _ =>
            simp only [firstResult_returned, returnedBy_returned, exec_lift]
            exact .completed
        | @strayed first results _ outcome mark =>
            have marked := (ofReturned_first hasTypes).trans mark
            have word := returnedBy_word (first.snapshot left.store).first
            have given : Gives (.ok (.strayed outcome), left)
                (outcome.map (Option.map Value.returnedWord), left) := .completed
            simp only [exec_firstResult, exec_lift]
            generalize returnedBy (first.snapshot left.store).first = returned at marked word ⊢
            rcases returned with fault | (_ | v)
            · cases marked
              rwa [word] at given
            · cases marked
            · cases marked
              rwa [word] at given

theorem execute_conditional {fuel : Nat} {keyword : String} {condition : Expr} {body : List Expr}
    {otherwise : Option (List Expr)} (present : condition ≠ .datum .null) :
    execute (fuel + 1) (.conditional keyword condition body otherwise) = (do
      if ← decides (eval fuel) condition then
        enterBlock
        executeAll (execute fuel) body
      else chained otherwise (execute fuel) none) := by
  cases condition with
  | datum v =>
      cases v with
      | null => exact absurd rfl present
      | _ => rfl
  | _ => rfl

/-- A return that is reached is the first of the marks. -/
inductive Agrees : Option Value → List Mark → Prop
  | nothing : Agrees none []
  | passed {marks : List Mark} : Agrees none (.passed :: marks)
  | strayed {outcome : Except Fault (Option Value)} {marks : List Mark} :
      Agrees none (.strayed outcome :: marks)
  | returns {v : Value} {marks : List Mark} : Agrees (some v) (.returns v :: marks)

theorem Agrees.append {marks marks' : List Mark} (first : Agrees none marks)
    (second : Agrees none marks') : Agrees none (marks ++ marks') := by
  cases first with
  | nothing => exact second
  | passed => exact .passed
  | strayed => exact .strayed

theorem agrees_marks (results : List Result) : Agrees none (results.map Result.mark) := by
  cases results with
  | nil => exact .nothing
  | cons r rest =>
      rcases mark_cases r with passed | ⟨outcome, strayed⟩
      · rw [List.map_cons, passed]
        exact .passed
      · rw [List.map_cons, strayed]
        exact .strayed

/-- The first mark of a statement tells the return that is reached in it, if there can be one. -/
def Tells (returning : Bool) (returned : Option Value) (marks : List Mark) : Prop :=
  Agrees returned marks ∧ (returning = false → returned = none)

/-- Without returns all statements of a block are executed. -/
theorem executeAll_tracks {execute : Expr → Run (Option Value)} {mark : Expr → Run (List Mark)}
    {body : List Expr} (tracks : ∀ e ∈ body, Tracks (Tells false) (execute e) (mark e)) :
    Tracks (fun returned marks => returned = none ∧ Agrees none marks)
      (executeAll execute body) (markAll mark body) := by
  induction body with
  | nil => exact tracks_pure ⟨rfl, .nothing⟩
  | cons e rest ih =>
      refine tracks_bind (tracks e List.mem_cons_self) fun returned marks tells => ?_
      obtain ⟨agrees, silent⟩ := tells
      obtain rfl := silent rfl
      change Tracks _ (executeAll execute rest) _
      rw [← bind_pure (executeAll execute rest)]
      refine tracks_bind (ih fun e later => tracks e (List.mem_cons_of_mem _ later)) ?_
      rintro returned marks' ⟨rfl, agrees'⟩
      exact tracks_pure ⟨rfl, agrees.append agrees'⟩

/-- A conditional goes on with the branch that is taken. -/
theorem conditional_tracks {fuel : Nat} {returning : Bool} {keyword : String} {condition : Expr}
    {body : List Expr} {otherwise : Option (List Expr)} (asked : condition ≠ .datum .null)
    (block : Tracks (Tells returning) (executeAll (execute fuel) body) (markAll (marks fuel) body))
    (others : ∀ e rest, otherwise = some (e :: rest) →
      Tracks (Tells returning) (execute fuel e) (marks fuel e)) :
    Tracks (Tells returning) (execute (fuel + 1) (.conditional keyword condition body otherwise))
      (marks (fuel + 1) (.conditional keyword condition body otherwise)) := by
  rw [execute_conditional asked, marks_conditional asked]
  refine tracks_bind_self fun holds => ?_
  split
  · exact tracks_bind_self fun _ => block
  · exact chained_tracks ⟨.passed, fun _ => rfl⟩ others

/-- Where returns are in good order, the marks of a statement tell what its execution returns. -/
theorem execute_tracks (fuel : Nat) {returning : Bool} {e : Expr}
    (orderly : Expr.Orderly returning e) :
    Tracks (Tells returning) (execute fuel e) (marks fuel e) := by
  induction fuel generalizing returning e with
  | zero => exact tracks_throw .outOfFuel
  | succ fuel ih =>
      cases orderly with
      | plain statement =>
          have evaluated : Tracks (Tells returning) (eval (fuel + 1) e >>= fun _ => pure none)
              (eval (fuel + 1) e >>= fun r => pure (r.spread.map Result.mark)) :=
            tracks_bind_self fun r => tracks_pure ⟨agrees_marks _, fun _ => rfl⟩
          cases e with
          | ret value => cases statement
          | conditional keyword condition body otherwise => cases statement
          | _ => exact evaluated
      | ret value =>
          refine tracks_bind_self fun result => tracks_bind_self fun v => ?_
          exact tracks_pure ⟨.returns, fun silent => Bool.noConfusion silent⟩
      | @branch _ keyword condition body otherwise asked silent others =>
          refine conditional_tracks asked ?_ fun e rest chained => ih (others e rest chained)
          refine (executeAll_tracks fun e inside => ih (silent e inside)).imp ?_
          rintro returned marks ⟨rfl, agrees⟩
          exact ⟨agrees, fun _ => rfl⟩
      | @single keyword condition e otherwise asked only others =>
          refine conditional_tracks asked ?_ fun e rest chained => ih (others e rest chained)
          refine tracks_bind (ih only) fun returned marks tells => ?_
          rw [markAll, pure_bind, List.append_nil]
          cases returned with
          | none => exact tracks_pure tells
          | some v => exact tracks_pure tells
      | @final _ keyword body otherwise silent =>
          refine tracks_bind_self fun _ => ?_
          have block := executeAll_tracks fun e inside => ih (silent e inside)
          rw [← bind_pure (executeAll (execute fuel) body)]
          refine tracks_bind block ?_
          rintro returned marks ⟨rfl, _⟩
          exact tracks_pure ⟨.passed, fun _ => rfl⟩

theorem executeBody_cons (fuel : Nat) (scope : Scope) (e : Expr) (rest : List Expr) :
    executeBody fuel scope (e :: rest) = (do
      modify fun m => m.enter scope
      match ← execute fuel e with
      | some v => return some v
      | none => executeBody fuel scope rest) := by
  rw [executeBody, executeAll, bind_assoc]
  rfl

/-- Where returns are in good order, a body that does not stray ends as if it stopped at the first
return. -/
theorem completeBody_orderly {fuel : Nat} {scope : Scope} {body : List Expr}
    (orderly : ∀ e ∈ body, Expr.Orderly true e) {m : Machine}
    (straight : ∀ outcome left, (completeBody fuel scope body).exec m ≠ (.ok (.strayed outcome), left)) :
    (completeBody fuel scope body).exec m =
      ((do return .ended (← executeBody fuel scope body)) : Run Completion).exec m := by
  induction body generalizing m with
  | nil => rfl
  | cons e rest ih =>
      rw [executeBody_cons]
      rw [completeBody] at straight ⊢
      simp only [exec_bind, exec_modify] at straight ⊢
      rcases execute_tracks fuel (orderly e List.mem_cons_self) (m.enter scope) with
        ⟨fault, left, failed, failed'⟩ | ⟨returned, ms, left, ran, ran', agrees, _⟩
      · simp only [failed, failed']
      · simp only [ran, ran'] at straight ⊢
        cases agrees with
        | nothing => exact absurd rfl (straight _ left)
        | passed =>
            have next := ih (fun e later => orderly e (List.mem_cons_of_mem _ later)) straight
            rw [exec_bind] at next
            exact next
        | strayed => exact absurd rfl (straight _ left)
        | returns => rfl

/-- Checks the number of the arguments, binds the parameters, and goes on with the body. -/
def withParameters (name : String) (params : List Parameter) (scope : Scope) (args : List Value)
    (body : Run α) : Run α := do
  if params.length < args.length then throw (.tooManyArguments name params.length args.length)
  bindParameters name scope params args
  body

theorem call_eq (ev : Expr → Run Result) (serial : Nat) (address name : String)
    (params : List Parameter) (body : List Expr) (scope : Scope) (args : List Value) :
    call ev (.function serial address name params body) scope args = (do
      let returned ← withParameters name params scope args (evalBody ev scope body)
      leaveScope
      return .value (← liftM (Value.functionResult returned))) := by
  by_cases many : params.length < args.length
  · simp only [call, withParameters, many, ↓reduceIte, bind_assoc]
  · simp only [call, withParameters, many, ↓reduceIte, bind_assoc]

theorem bindParameters_typed {name : String} {frame : Nat} {around : Scope}
    {params : List Parameter} {args : List Value} {m left : Machine}
    (ran : (bindParameters name (frame :: around) params args).exec m = (.ok (), left))
    (typed : m.store.Typed) : left.store.Typed := by
  have recorded := Recorded.bindParameters_records name (frame :: around) params args m
  obtain ⟨bound, t, m', _, binds, ended | ⟨fault, stopped, _, _, _, ended⟩⟩ :=
    Recorded.bindParameters_bound name frame around params args m
  · rw [ended, ran] at recorded
    cases recorded
    exact binds.typed typed
  · rw [ended, ran] at recorded
    cases recorded

theorem withParameters_gives {r : Run Completion} {s : Run (Option Value)} {name : String}
    {frame : Nat} {around : Scope} {params : List Parameter} {args : List Value} {m : Machine}
    (typed : m.store.Typed)
    (gives : ∀ entered : Machine, entered.store.Typed → Gives (r.exec entered) (s.exec entered)) :
    Gives ((withParameters name params (frame :: around) args r).exec m)
      ((withParameters name params (frame :: around) args s).exec m) := by
  unfold withParameters
  by_cases many : params.length < args.length
  · simp only [many, ↓reduceIte]
    exact .failed
  · simp only [many, ↓reduceIte, exec_bind]
    rcases ran : (bindParameters name (frame :: around) params args).exec m with
      ⟨fault | bound, entered⟩
    · exact .failed
    · exact gives entered (bindParameters_typed ran typed)

/-- Where returns are in good order, a call that does not stray ends its body as if it stopped at the
first return. -/
theorem withParameters_orderly {fuel : Nat} {name : String} {scope : Scope} {params : List Parameter}
    {body : List Expr} {args : List Value} {m : Machine}
    (orderly : ∀ e ∈ body, Expr.Orderly true e)
    (straight : ∀ outcome left,
      (withParameters name params scope args (completeBody fuel scope body)).exec m ≠
        (.ok (.strayed outcome), left)) :
    (withParameters name params scope args (completeBody fuel scope body)).exec m =
      let executed := (withParameters name params scope args (executeBody fuel scope body)).exec m
      (Completion.ended <$> executed.1, executed.2) := by
  unfold withParameters at straight ⊢
  by_cases many : params.length < args.length
  · simp only [many, ↓reduceIte]
    rfl
  · simp only [many, ↓reduceIte, exec_bind] at straight ⊢
    rcases ran : (bindParameters name scope params args).exec m with ⟨fault | bound, entered⟩
    · rfl
    · simp only [ran] at straight ⊢
      rw [completeBody_orderly orderly straight, exec_bind]
      rcases (executeBody fuel scope body).exec entered with ⟨fault | returned, left⟩ <;> rfl

end Run

namespace Value

/-- The value of a call, from the value of the return that was reached, if one was. A list that is
returned has to have an item, and the item a value. -/
def yielded : Option Value → Except Fault Value
  | none | some null => .ok (str "null")
  | some (list []) => .error .outOfRange
  | some (list (first :: rest)) => do
    if first.isOpen then return str "null"
    else if (← first.subscript "value").equal null then return str "null"
    else return list (first :: rest)
  | some (bool b) => .ok (truth b)
  | some v => .ok v

theorem functionResult_eq (returned : Option Value) :
    functionResult (returned.map returnedWord) = yielded returned := by
  rcases returned with _ | v
  · rfl
  · cases v with
    | list items =>
        rcases items with _ | ⟨first, rest⟩
        · rfl
        · simp only [Option.map_some, returnedWord, functionResult, yielded]
          split
          · rfl
          · rcases first.subscript "value" with fault | v
            · rfl
            · cases v <;> rfl
    | bool b => cases b <;> rfl
    | _ => rfl

end Value

namespace Run

/-- What a call comes to, from what the end of its body returns: a fault, or else the value of the
return that was reached, in the scope around that of the body. Outside of every scope it fails. -/
def Yields (outcome : Except Fault (Option Value)) (left : Machine)
    (called : Except Fault Result × Machine) : Prop :=
  match outcome with
  | .error fault => called = (.error fault, left)
  | .ok returned =>
    called = if left.scope = [] then (.error (.noAttribute "NoneType" "parent"), left)
      else ((Value.yielded returned).map .value, { left with scope := left.scope.tail })

theorem call_of_gives {fuel serial : Nat} {address name : String} {params : List Parameter}
    {body : List Expr} {scope : Scope} {args : List Value} {machine left : Machine}
    {outcome : Except Fault Completion}
    (given : Gives (outcome, left)
      ((withParameters name params scope args (evalBody (eval fuel) scope body)).exec machine)) :
    Yields (outcome.bind Completion.returned) left
      ((call (eval fuel) (.function serial address name params body) scope args).exec machine) := by
  rw [call_eq, exec_bind]
  generalize (withParameters name params scope args (evalBody (eval fuel) scope body)).exec machine =
    evaluated at given
  cases given with
  | failed => rfl
  | @completed completion _ =>
      change Yields completion.returned left _
      rcases completion.returned with fault | returned
      · rfl
      · simp only [Except.map, exec_bind, exec_leaveScope, Yields, Value.functionResult_eq]
        by_cases outside : left.scope = []
        · simp only [outside, ↓reduceIte]
        · simp only [outside, ↓reduceIte, exec_lift]
          cases Value.yielded returned <;> rfl

/-- A call goes through the statements of its body as their marks say: a conditional runs all of the
branch that it takes, and the call stops after the first statement whose first mark is that of a return,
or that strays. Where returns are in good order, and no statement strays, that is to stop at the first
return that is reached, wherever it is nested. -/
theorem call_yields (fuel serial frame : Nat) (address name : String) (params : List Parameter)
    (body : List Expr) (around : Scope) (args : List Value) (machine : Machine)
    (typed : machine.store.Typed) :
    let scope := frame :: around
    let completed :=
      (withParameters name params scope args (completeBody fuel scope body)).exec machine
    let executed := (withParameters name params scope args (executeBody fuel scope body)).exec machine
    let called :=
      (call (eval fuel) (.function serial address name params body) scope args).exec machine
    Yields (completed.1.bind Completion.returned) completed.2 called ∧
      ((∀ e ∈ body, Expr.Orderly true e) →
        (∀ outcome left, completed ≠ (.ok (.strayed outcome), left)) →
          Yields executed.1 executed.2 called) := by
  intro scope completed executed called
  have given : Gives completed
      ((withParameters name params scope args (evalBody (eval fuel) scope body)).exec machine) :=
    withParameters_gives typed fun entered typed => evalBody_gives body typed
  have yields : Yields (completed.1.bind Completion.returned) completed.2 called :=
    call_of_gives given
  refine ⟨yields, fun orderly straight => ?_⟩
  have same : completed = (Completion.ended <$> executed.1, executed.2) :=
    withParameters_orderly orderly straight
  rw [same] at yields
  rcases executed with ⟨fault | returned, left⟩
  · exact yields
  · exact yields

/-- A machine with a frame for a call. -/
def beforeCall : Machine :=
  { Machine.fresh (.ofInput "" false) .none false with
    store := ⟨#[.empty none false, .empty (some "call_f") false]⟩ }

theorem beforeCall_typed : beforeCall.store.Typed := by
  intro id name binding bound
  rcases id with _ | _ | id
  · cases bound
  · cases bound
  · rw [Store.binding?_of_size_le (by simp [beforeCall])] at bound
    cases bound

/-- The body of a function that returns a great number from inside of an `if`, and else a comparison. -/
def earlyReturn : List Expr :=
  [.conditional "if" (.binary ">" (.ident "n") (.int 2)) [.ret (.ident "n")]
    (some [.conditional "else" (.datum .null) [.assign (some "let") "a" (.int 1)] none]),
  .ret (.binary "==" (.ident "n") (.int 3))]

theorem earlyReturn_orderly : ∀ e ∈ earlyReturn, Expr.Orderly true e := by
  intro e inside
  rcases List.mem_cons.mp inside with rfl | inside
  · refine .single nofun (.ret _) fun e rest chained => ?_
    cases chained
    refine .final fun e inside => ?_
    rw [List.mem_singleton.mp inside]
    exact .plain rfl
  · rw [List.mem_singleton.mp inside]
    exact .ret _

/-- A function of one parameter. -/
def unaryFunction (body : List Expr) : Value :=
  .function 0 Value.noAddress "f" [.mk "n" (some "let") (.datum .null)] body

/-- The body of a function whose first statement gives an object without a type. -/
def untypedFirst : List Expr := [.datum (.obj [("a", .str "b")]), .ret (.int 1)]

/-- Returns from inside of a branch and from after it, and a call that a stray object ends. -/
theorem call_yields_early :
    beforeCall.store.Typed ∧ (∀ e ∈ earlyReturn, Expr.Orderly true e) ∧
    (∃ left, (call (eval 6) (unaryFunction earlyReturn) [1, 0] [.int 5]).exec beforeCall =
      (.ok (.value (.int 5)), left)) ∧
    (∃ left, (call (eval 6) (unaryFunction earlyReturn) [1, 0] [.int 1]).exec beforeCall =
      (.ok (.value (.str "false")), left)) ∧
    ∃ left, (call (eval 6) (unaryFunction untypedFirst) [1, 0] [.int 5]).exec beforeCall =
      (.error (.noEntry "type"), left) := by
  have great := (call_yields 6 0 1 Value.noAddress "f" [.mk "n" (some "let") (.datum .null)]
    earlyReturn [0] [.int 5] beforeCall beforeCall_typed).2 earlyReturn_orderly
    (by intro outcome left strayed; cases strayed)
  have small := (call_yields 6 0 1 Value.noAddress "f" [.mk "n" (some "let") (.datum .null)]
    earlyReturn [0] [.int 1] beforeCall beforeCall_typed).2 earlyReturn_orderly
    (by intro outcome left strayed; cases strayed)
  have stray := (call_yields 6 0 1 Value.noAddress "f" [.mk "n" (some "let") (.datum .null)]
    untypedFirst [0] [.int 5] beforeCall beforeCall_typed).1
  exact ⟨beforeCall_typed, earlyReturn_orderly, ⟨_, great⟩, ⟨_, small⟩, ⟨_, stray⟩⟩

/-- A return that is not alone in its branch is passed over: this function should return 2. -/
theorem call_passes_over_return :
    let body : List Expr :=
      [.conditional "if" (.binary "==" (.int 1) (.int 1))
        [.assign (some "let") "a" (.int 1), .ret (.int 2)] none, .ret (.int 3)]
    ((executeBody 6 [1, 0] body).exec beforeCall).1 = .ok (some (.int 2)) ∧
      ((call (eval 6) (.function 0 Value.noAddress "f" [] body) [1, 0] []).exec beforeCall).1 =
        .ok (.value (.int 3)) :=
  ⟨rfl, rfl⟩

end Run

end Scriptlet
