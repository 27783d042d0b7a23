import Mathlib.Data.List.Chain
import Scriptlet.Proofs.Evaluation.History

set_option autoImplicit false

/-!
The courses that evaluation can take, without the values in them: what each operation does to the
store, the scope at hand and the place of modules, and how calls nest. `eval_follows` says that every
evaluation takes such a course, whether it ends well or fails, so that what holds of all courses holds of
all evaluations.
-/

namespace Scriptlet

/-- How far a part of an evaluation has come. -/
inductive Stage
  | done
  | failed
  /-- A call has bound its parameters in a frame of its own, and the body is about to run. -/
  | opened (frame : Nat) (around : Scope) (params : List Parameter) (body : List Expr)

/-- The stage that a result stands for. -/
def Stage.of {α : Type} : Except Fault α → Stage
  | .ok _ => .done
  | .error _ => .failed

/-- Parameters are bound in a frame, one after another. -/
inductive Bound (frame : Nat) : List Parameter → Machine → List Event → Machine → Prop
  | nil {m : Machine} : Bound frame [] m [] m
  | bind {p : Parameter} {params : List Parameter} {m m₁ m₂ : Machine} {t : List Event} {r : Record}
      (kept : r.binding = p.binding) (typed : r.type ∈ Value.typeNames)
      (store : m₁.store = m.store.put frame p.name (.record r)) (scope : m₁.scope = m.scope)
      (place : m₁.place = m.place) (rest : Bound frame params m₁ t m₂) :
      Bound frame (p :: params) m (.state m₁ :: t) m₂

/-- The place inside of blocks and bodies: no module is found there. -/
def Machine.inside (machine : Machine) : Files × Option Path × Bool × Host :=
  (machine.files, none, false, machine.host)

/-- What an evaluation can go through. Evaluation is at home in a scope, to which the statements of a
body return one by one; the body of a call is at home in the scope made for the call. -/
inductive Course : Scope → Machine → List Event → Stage → Machine → Prop
  | rest {home : Scope} {m : Machine} : Course home m [] .done m
  | step {home : Scope} {m m' : Machine} (change : Store.Change m.scope m.store m'.store)
      (scope : m'.scope = m.scope) (place : m'.place = m.place) : Course home m [.state m'] .done m'
  /-- A statement of a body is entered. -/
  | home {home : Scope} {m m' : Machine} (store : m'.store = m.store) (scope : m'.scope = home)
      (place : m'.place = m.inside) : Course home m [.enter, .state m'] .done m'
  /-- The statements of a block are entered, in the scope at hand. -/
  | block {home : Scope} {m m' : Machine} (store : m'.store = m.store) (scope : m'.scope = m.scope)
      (place : m'.place = m.inside) : Course home m [.enter, .state m'] .done m'
  | seq {home : Scope} {m m' m'' : Machine} {t t' : List Event} {stage : Stage}
      (first : Course home m t .done m') (second : Course home m' t' stage m'') :
      Course home m (t ++ t') stage m''
  | fault {home : Scope} {m m' : Machine} {t : List Event} {stage : Stage}
      (course : Course home m t stage m') : Course home m t .failed m'
  /-- Nothing changes for a while. -/
  | linger {home : Scope} {m m' m'' : Machine} {t : List Event} {stage : Stage}
      (course : Course home m t stage m') (store : m''.store = m'.store)
      (scope : m''.scope = m'.scope) (place : m''.place = m'.place) :
      Course home m (t ++ [.state m'']) stage m''
  /-- A call makes a frame, evaluates the arguments and binds parameters in the frame. -/
  | opens {home : Scope} {m m₁ m₂ m₃ : Machine} {t t' : List Event} {label : Option String}
      {traced : Bool} {bound params : List Parameter} {body : List Expr}
      (made : m₁.store = (m.store.extend m.scope label traced).2) (scope : m₁.scope = m.scope)
      (place : m₁.place = m.place)
      (arguments : Course home m₁ t .done m₂)
      (binds : Bound m.store.frames.size bound m₂ t' m₃) (some : bound <+: params) :
      Course home m
        (.state m₁ :: t ++ .call (m.store.frames.size :: m.scope) params body :: t')
        (.opened m.store.frames.size m.scope params body) m₃
  /-- A function without a body leaves the scope of the caller. -/
  | hollow {home around : Scope} {m m₁ m₂ : Machine} {t : List Event} {frame : Nat}
      {params : List Parameter} (opened : Course home m t (.opened frame around params []) m₁)
      (store : m₂.store = m₁.store) (scope : m₂.scope = m₁.scope.tail)
      (place : m₂.place = m₁.place) :
      Course home m (t ++ [.state m₂]) .done m₂
  /-- The body of a call runs to its end, and its scope is left. -/
  | call {home around : Scope} {m m₁ m₂ m₃ m₄ : Machine} {t t' : List Event} {frame : Nat}
      {params : List Parameter} {body : List Expr}
      (opened : Course home m t (.opened frame around params body) m₁)
      (enteredStore : m₂.store = m₁.store) (enteredScope : m₂.scope = frame :: around)
      (enteredPlace : m₂.place = m₁.inside) (runs : Course (frame :: around) m₂ t' .done m₃)
      (store : m₄.store = m₃.store) (scope : m₄.scope = m₃.scope.tail)
      (place : m₄.place = m₃.place) :
      Course home m (t ++ .enter :: .state m₂ :: t' ++ [.state m₄]) .done m₄
  /-- The body of a call stops before its end. -/
  | broken {home around : Scope} {m m₁ m₂ m₃ : Machine} {t t' : List Event} {frame : Nat}
      {params : List Parameter} {body : List Expr} {stage : Stage}
      (opened : Course home m t (.opened frame around params body) m₁)
      (enteredStore : m₂.store = m₁.store) (enteredScope : m₂.scope = frame :: around)
      (enteredPlace : m₂.place = m₁.inside) (runs : Course (frame :: around) m₂ t' stage m₃) :
      Course home m (t ++ .enter :: .state m₂ :: t') .failed m₃

namespace Recorded

variable {α β : Type} {home : Scope} {m : Machine}

/-- A computation takes a course that is at home in a scope. -/
def Follows (home : Scope) (r : Recorded α) (m : Machine) : Prop :=
  Course home m (r m).2 (Stage.of (r m).1.1) (r m).1.2

theorem follows_pure (a : α) : Follows home (pure a) m := .rest

theorem follows_bind {r : Recorded α} {k : α → Recorded β} (first : Follows home r m)
    (others : ∀ a between, (r m).1 = (.ok a, between) → Follows home (k a) between) :
    Follows home (r >>= k) m := by
  unfold Follows at first ⊢
  rcases ran : r m with ⟨⟨outcome, between⟩, events⟩
  rw [ran] at first others
  cases outcome with
  | ok a =>
      rw [bind_ok ran]
      exact .seq first (others a between rfl)
  | error fault =>
      rw [bind_error ran]
      exact first

theorem follows_step {r : Run α} (changes : Run.Changes r m) : Follows home (step r) m := by
  have stepped : Course home m [.state (r.exec m).2] .done (r.exec m).2 :=
    .step changes.store changes.scope changes.place
  change Course home m [.state (r.exec m).2] (Stage.of (r.exec m).1) (r.exec m).2
  cases (r.exec m).1 with
  | ok a => exact stepped
  | error fault => exact .fault stepped

theorem follows_quiet {r : Run α} (quiet : Run.Quiet r) : Follows home (step r) m :=
  follows_step (Run.changes_of_quiet quiet m)

/-- The events of binding parameters, of which the last may be that of a failure. -/
theorem bindParameters_bound (function : String) (frame : Nat) (around : Scope)
    (params : List Parameter) (args : List Value) (m : Machine) :
    ∃ bound t m', bound <+: params ∧ Bound frame bound m t m' ∧
      (bindParameters function (frame :: around) params args m = ((.ok (), m'), t) ∨
        ∃ fault left, left.store = m'.store ∧ left.scope = m'.scope ∧ left.place = m'.place ∧
          bindParameters function (frame :: around) params args m =
            ((.error fault, left), t ++ [.state left])) := by
  induction params generalizing args m with
  | nil => exact ⟨[], [], m, List.prefix_refl _, .nil, Or.inl rfl⟩
  | cons p params ih =>
      have puts := Run.bindParameters_puts m function frame around p args
      have stepped : step (Run.bindParameters function (frame :: around) [p] args) m =
          ((Run.bindParameters function (frame :: around) [p] args).exec m,
            [.state ((Run.bindParameters function (frame :: around) [p] args).exec m).2]) :=
        rfl
      generalize (Run.bindParameters function (frame :: around) [p] args).exec m = ran at puts stepped
      cases puts with
      | @bound _ after r kept typed store scope place =>
          obtain ⟨bound, t, m', prefixed, binds, outcome⟩ := ih args.tail after
          refine ⟨p :: bound, .state after :: t, m', ?_, .bind kept typed store scope place binds, ?_⟩
          · exact (List.prefix_cons_inj p).mpr prefixed
          · rw [bindParameters, bind_ok stepped]
            rcases outcome with ended | ⟨fault, left, sameStore, sameScope, samePlace, ended⟩
            · rw [ended]
              exact Or.inl rfl
            · rw [ended]
              exact Or.inr ⟨fault, left, sameStore, sameScope, samePlace, rfl⟩
      | @failed fault after store scope place =>
          refine ⟨[], [], m, List.nil_prefix, .nil, Or.inr ⟨fault, after, store, scope, place, ?_⟩⟩
          rw [bindParameters, bind_error stepped]
          rfl

section Evaluators

variable {ev : Expr → Recorded Result}

theorem evalAll_follows (follows : ∀ e home m, Follows home (ev e) m) (program : List Expr) :
    Follows home (evalAll ev program) m := by
  induction program generalizing m with
  | nil => exact follows_pure []
  | cons e rest ih =>
      refine follows_bind (follows e home m) fun result between _ => ?_
      exact follows_bind ih fun _ _ _ => follows_pure _

/-- The machine is looked at. -/
theorem follows_get : Follows home (step get) m := .step .nothing rfl rfl

/-- Statements are evaluated where the machine is. -/
theorem evalIn_follows (follows : ∀ e home m, Follows home (ev e) m) (program : List Expr)
    {scope : Scope} {verbose : Bool} {folder : Option Path} (here : m.scope = scope)
    (placed : m.place = (m.files, folder, verbose, m.host)) :
    Follows home (evalIn ev program scope verbose folder) m := by
  refine follows_bind (follows_step ⟨.nothing, here.symm, placed.symm⟩) fun _ between _ => ?_
  exact evalAll_follows follows program

/-- The entry into statements that are evaluated in a scope. -/
def entering (scope : Scope) : Recorded Unit := do
  note .enter
  step (modify fun m => { m with scope, verbose := false, folder := none })

theorem entering_eq (scope : Scope) (m : Machine) :
    entering scope m = ((.ok (), m.enter scope), [.enter, .state (m.enter scope)]) :=
  rfl

theorem evalInside_eq (ev : Expr → Recorded Result) (statements : List Expr) (scope : Scope) :
    evalInside ev statements scope = entering scope >>= fun _ => evalAll ev statements := by
  simp only [evalInside, evalIn, entering, bind_assoc]

theorem evalBlock_follows (follows : ∀ e home m, Follows home (ev e) m) (body : List Expr) :
    Follows home (evalBlock ev body) m := by
  refine follows_bind follows_get fun machine between ran => ?_
  cases ran
  rw [evalInside_eq]
  have entered : Follows home (entering m.scope) m := .block rfl rfl rfl
  exact follows_bind entered fun _ _ _ => evalAll_follows follows body

/-- What is left of the body of a function once its scope has been entered for a statement. -/
def restOfBody (ev : Expr → Recorded Result) (scope : Scope) (e : Expr) (rest : List Expr) :
    Recorded (Option Value) := do
  let result ← step (Run.firstResult (← evalAll ev [e]))
  match ← step (liftM (Run.returnedBy result)) with
  | some v => return some v
  | none => evalBody ev scope rest

theorem evalBody_cons (ev : Expr → Recorded Result) (scope : Scope) (e : Expr) (rest : List Expr)
    (m : Machine) :
    evalBody ev scope (e :: rest) m =
      ((restOfBody ev scope e rest (m.enter scope)).1,
        .enter :: .state (m.enter scope) :: (restOfBody ev scope e rest (m.enter scope)).2) := by
  have split : evalBody ev scope (e :: rest) =
      entering scope >>= fun _ => restOfBody ev scope e rest := by
    rw [evalBody, evalInside_eq]
    exact bind_assoc _ _ _
  rw [split]
  exact bind_ok (entering_eq scope m)

/-- The statements of a body are at home in its scope. -/
theorem restOfBody_follows (follows : ∀ e home m, Follows home (ev e) m) (scope : Scope) (e : Expr)
    {rest : List Expr} (others : ∀ m, Follows scope (evalBody ev scope rest) m) :
    Follows scope (restOfBody ev scope e rest) m := by
  refine follows_bind (evalAll_follows follows [e]) fun results _ _ => ?_
  refine follows_bind (follows_quiet (Run.quiet_firstResult results)) fun result _ _ => ?_
  refine follows_bind (follows_quiet (Run.quiet_lift _)) fun returned between _ => ?_
  cases returned with
  | none => exact others between
  | some v => exact follows_pure (some v)

theorem evalBody_follows (follows : ∀ e home m, Follows home (ev e) m) (scope : Scope)
    (body : List Expr) : Follows scope (evalBody ev scope body) m := by
  induction body generalizing m with
  | nil => exact follows_pure none
  | cons e rest ih =>
      unfold Follows
      rw [evalBody_cons]
      have entered : Course scope m [.enter, .state (m.enter scope)] .done (m.enter scope) :=
        .home rfl rfl rfl
      exact .seq entered (restOfBody_follows follows scope e fun _ => ih)

/-- The end of a call: its scope is left, and its result is made from what the body returned. -/
def leave (returned : Option Value) : Recorded Result := do
  step Run.leaveScope
  return .value (← step (liftM (Value.functionResult returned)))

theorem leave_follows {m m' : Machine} {t : List Event} (returned : Option Value)
    (left : ∀ after : Machine, after.store = m'.store → after.scope = m'.scope.tail →
      after.place = m'.place → Course home m (t ++ [.state after]) .done after)
    (stuck : Course home m (t ++ [.state m']) .failed m') :
    Course home m (t ++ (leave returned m').2) (Stage.of (leave returned m').1.1)
      (leave returned m').1.2 := by
  have stepped : step Run.leaveScope m' =
      (Run.leaveScope.exec m', [.state (Run.leaveScope.exec m').2]) :=
    rfl
  rw [Run.exec_leaveScope] at stepped
  by_cases outermost : m'.scope = []
  · rw [if_pos outermost] at stepped
    rw [leave, bind_error stepped]
    exact stuck
  · rw [if_neg outermost] at stepped
    rw [leave, bind_ok stepped]
    rw [← List.append_assoc]
    have course : Course home m (t ++ [.state { m' with scope := m'.scope.tail }] ++
        [.state { m' with scope := m'.scope.tail }]) .done { m' with scope := m'.scope.tail } :=
      .linger (left _ rfl rfl rfl) rfl rfl rfl
    cases Value.functionResult returned with
    | ok v => exact course
    | error fault => exact .fault course

/-- The rest of a call that has bound its parameters. -/
theorem body_follows (follows : ∀ e home m, Follows home (ev e) m) {m m' : Machine}
    {t : List Event} {frame : Nat} {around : Scope} {params : List Parameter} {body : List Expr}
    (opened : Course home m t (.opened frame around params body) m') :
    Course home m (t ++ ((evalBody ev (frame :: around) body >>= leave) m').2)
      (Stage.of ((evalBody ev (frame :: around) body >>= leave) m').1.1)
      ((evalBody ev (frame :: around) body >>= leave) m').1.2 := by
  cases body with
  | nil =>
      refine leave_follows none (fun after store scope place => ?_)
        (.fault (.linger opened rfl rfl rfl))
      exact .hollow opened store scope place
  | cons e rest =>
      have runs : Follows (frame :: around) (restOfBody ev (frame :: around) e rest)
          (m'.enter (frame :: around)) :=
        restOfBody_follows follows _ e fun _ => evalBody_follows follows _ rest
      have ran := evalBody_cons ev (frame :: around) e rest m'
      unfold Follows at runs
      rcases result : restOfBody ev (frame :: around) e rest (m'.enter (frame :: around)) with
        ⟨⟨fault | returned, after⟩, events⟩
      · rw [result] at ran runs
        rw [bind_error ran]
        exact .broken opened rfl rfl rfl runs
      · rw [result] at ran runs
        rw [bind_ok ran, ← List.append_assoc]
        refine leave_follows returned (fun left store scope place => ?_) ?_
        · exact .call opened rfl rfl rfl runs store scope place
        · rw [List.append_assoc, List.cons_append, List.cons_append]
          exact .broken opened rfl rfl rfl (.linger runs rfl rfl rfl)

/-- A call of a function of the program, once its scope is made and its arguments are known. -/
theorem call_follows (follows : ∀ e home m, Follows home (ev e) m) {m m' : Machine}
    {t : List Event} {frame serial : Nat} {address name : String} {around : Scope}
    {params : List Parameter} {body : List Expr} (args : List Value)
    (opens : ∀ {bound : List Parameter} {t' : List Event} {m'' : Machine}, bound <+: params →
      Bound frame bound m' t' m'' →
      Course home m (t ++ .call (frame :: around) params body :: t')
        (.opened frame around params body) m'') :
    let called := call ev (.function serial address name params body) (frame :: around) args m'
    Course home m (t ++ called.2) (Stage.of called.1.1) called.1.2 := by
  have noted : note (.call (frame :: around) params body) m' =
      ((.ok (), m'), [.call (frame :: around) params body]) :=
    rfl
  simp only [call, bind_ok noted]
  by_cases many : params.length < args.length
  · have refused : step (throw (.tooManyArguments name params.length args.length) : Run Unit) m' =
        ((.error (.tooManyArguments name params.length args.length), m'), [.state m']) :=
      rfl
    simp only [many, ↓reduceIte]
    rw [bind_error refused, ← List.append_assoc]
    exact .fault (.linger (opens List.nil_prefix .nil) rfl rfl rfl)
  · simp only [many, ↓reduceIte]
    obtain ⟨bound, t', m'', some, binds, ended | ⟨fault, left, store, scope, place, ended⟩⟩ :=
      bindParameters_bound name frame around params args m'
    · have opened := opens some binds
      have runs := body_follows follows opened
      rw [List.append_assoc, List.cons_append] at runs
      rw [bind_ok ended]
      exact runs
    · have stopped := Course.fault (.linger (opens some binds) store scope place)
      rw [List.append_assoc, List.cons_append] at stopped
      rw [bind_error ended]
      exact stopped

theorem evalEach_follows (follows : ∀ e home m, Follows home (ev e) m) (args : List Expr) :
    Follows home (evalEach ev args) m := by
  induction args generalizing m with
  | nil => exact follows_pure []
  | cons e rest ih =>
      refine follows_bind (follows e home m) fun result _ _ => ?_
      refine follows_bind (follows_quiet (Run.quiet_argument result)) fun _ _ _ => ?_
      exact follows_bind ih fun _ _ _ => follows_pure _

theorem evalArguments_follows (follows : ∀ e home m, Follows home (ev e) m) (args : List Expr) :
    Follows home (evalArguments ev args) m :=
  follows_bind (evalEach_follows follows args) fun results _ _ =>
    follows_quiet (Run.quiet_snapshots results)

/-- What a call looks up and evaluates before it begins: the function and the arguments. -/
def prepare (ev : Expr → Recorded Result) (name : String) (args : List Expr) :
    Recorded (Value × List Value) := do
  let callee ← step (Run.evalName name)
  let args ← evalArguments ev args
  return (← step (Run.snapshot callee), args)

theorem prepare_follows (follows : ∀ e home m, Follows home (ev e) m) (name : String)
    (args : List Expr) : Follows home (prepare ev name args) m := by
  refine follows_bind (follows_quiet (Run.quiet_evalName name)) fun callee _ _ => ?_
  refine follows_bind (evalArguments_follows follows args) fun _ _ _ => ?_
  exact follows_bind (follows_quiet (Run.quiet_snapshot callee)) fun _ _ _ => follows_pure _

theorem evalCall_eq (ev : Expr → Recorded Result) (name : String) (args : List Expr) :
    evalCall ev name args = (do
      let around ← step (Run.demandScope "extend")
      let scope ← step (Run.extend around (some ("call_" ++ name)) false)
      let prepared ← prepare ev name args
      call ev prepared.1 scope prepared.2) := by
  simp only [evalCall, prepare, bind_assoc, pure_bind]

theorem call_other {callee : Value} {scope : Scope} {args : List Value}
    (noFunction : ∀ serial address name params body,
      callee ≠ .function serial address name params body) :
    Follows home (call ev callee scope args) m := by
  have quiet : Run.Quiet (Run.call (fun _ => throw .outOfFuel) callee scope args) :=
    Run.quiet_call noFunction
  cases callee with
  | function serial address name params body =>
      exact absurd rfl (noFunction serial address name params body)
  | _ => exact follows_quiet quiet

theorem evalCall_follows (follows : ∀ e home m, Follows home (ev e) m) (name : String)
    (args : List Expr) : Follows home (evalCall ev name args) m := by
  rw [evalCall_eq]
  refine follows_bind (follows_quiet (Run.quiet_demandScope _)) fun around between ran => ?_
  obtain ⟨rfl, rfl⟩ := Run.exec_demandScope_ok ran
  obtain ⟨m₁, store, scope, place, made⟩ : ∃ m₁ : Machine,
      m₁.store = (m.store.extend m.scope (some ("call_" ++ name)) false).2 ∧ m₁.scope = m.scope ∧
      m₁.place = m.place ∧
      step (Run.extend m.scope (some ("call_" ++ name)) false) m =
        ((.ok (m.store.frames.size :: m.scope), m₁), [.state m₁]) :=
    ⟨{ m with store := (m.store.extend m.scope (some ("call_" ++ name)) false).2 }, rfl, rfl, rfl,
      rfl⟩
  have extended : Course home m [.state m₁] .done m₁ := .step (store ▸ .frame _ _) scope place
  have prepared : Follows home (prepare ev name args) m₁ := prepare_follows follows name args
  unfold Follows at prepared ⊢
  rw [bind_ok made]
  rcases ready : prepare ev name args m₁ with ⟨⟨fault | ⟨callee, values⟩, m₂⟩, t⟩
  · rw [ready] at prepared
    rw [bind_error ready]
    exact .seq extended prepared
  · rw [ready] at prepared
    rw [bind_ok ready]
    by_cases function : ∃ serial address name params body,
        callee = .function serial address name params body
    · obtain ⟨serial, address, called, params, body, rfl⟩ := function
      -- the frame was made before the arguments were evaluated, so the call spans all of it
      exact call_follows follows values fun some binds =>
        .opens store scope place prepared binds some
    · push Not at function
      exact .seq extended (.seq prepared (call_other function))

theorem evalProperty_follows (follows : ∀ e home m, Follows home (ev e) m) (name : String)
    (index : Expr) : Follows home (evalProperty ev name index) m := by
  have quiet (index : Expr) (noCall : ∀ callee args, index ≠ .call callee args) :
      Follows home (step (Run.evalProperty (fun _ => throw .outOfFuel) name index)) m :=
    follows_quiet (Run.quiet_evalProperty noCall)
  cases index with
  | call callee args =>
      refine follows_bind (follows_quiet (Run.quiet_evalName name)) fun result _ _ => ?_
      refine follows_bind (follows_quiet (Run.quiet_snapshot result)) fun object _ _ => ?_
      refine follows_bind (follows_quiet (Run.quiet_lift _)) fun type between _ => ?_
      have called (m : Machine) : Follows home (do
          let _ ← step (liftM (object.subscript "value"))
          evalCall ev callee args) m :=
        follows_bind (follows_quiet (Run.quiet_lift _)) fun _ _ _ =>
          evalCall_follows follows callee args
      by_cases indexable : type.equal (.str "obj") = true
      · simp only [indexable, Bool.not_true, Bool.false_eq_true, ↓reduceIte]
        exact called between
      · simp only [indexable, Bool.not_false, ↓reduceIte]
        refine follows_bind (follows_quiet (Run.quiet_lift _)) fun _ _ _ => ?_
        exact follows_bind (follows_quiet (Run.quiet_throw _)) fun _ after _ => called after
  | _ => exact quiet _ (fun _ _ same => nomatch same)

theorem evalModule_follows (follows : ∀ e home m, Follows home (ev e) m)
    (path : List (Option String)) : Follows home (evalModule ev path) m := by
  refine follows_bind follows_get fun machine between ran => ?_
  cases ran
  refine follows_bind (follows_quiet (Run.quiet_lift _)) fun text found ran => ?_
  have atFound := (Run.quiet_lift _).stays ran
  refine follows_bind (follows_quiet (Run.quiet_readProgram _ _)) fun program read ran => ?_
  have atRead := (Run.quiet_readProgram _ _).stays ran
  refine follows_bind (follows_quiet (Run.quiet_lift _)) fun folded ready ran => ?_
  have atReady := (Run.quiet_lift _).stays ran
  have here : ready.scope = m.scope := atReady.1.trans (atRead.1.trans atFound.1)
  have placed : ready.place = m.place := atReady.2.trans (atRead.2.trans atFound.2)
  have files : ready.files = m.files := congrArg Prod.fst placed
  have host : ready.host = m.host := congrArg (·.2.2.2) placed
  refine follows_bind (evalIn_follows follows folded here ?_) fun _ _ _ => follows_pure _
  rw [placed, files, host]
  rfl

theorem evalConditional_follows (follows : ∀ e home m, Follows home (ev e) m) (keyword : String)
    (condition : Expr) (body : List Expr) (otherwise : Option (List Expr)) :
    Follows home (evalWith ev (.conditional keyword condition body otherwise)) m := by
  by_cases missing : condition = .datum .null
  · subst missing
    exact follows_bind (evalBlock_follows follows body) fun _ _ _ => follows_pure _
  · rw [evalWith_conditional missing]
    refine follows_bind (follows condition home m) fun result _ _ => ?_
    refine follows_bind (follows_quiet (Run.quiet_snapshot result)) fun value _ _ => ?_
    refine follows_bind (follows_quiet (Run.quiet_lift _)) fun outcome between _ => ?_
    split
    · exact follows_quiet (Run.quiet_throw _)
    · split
      · exact follows_bind (evalBlock_follows follows body) fun _ _ _ => follows_pure _
      · split
        · exact follows _ home between
        · exact follows_pure _

theorem evalWith_follows (follows : ∀ e home m, Follows home (ev e) m) (e : Expr) :
    Follows home (evalWith ev e) m := by
  cases e with
  | datum v => cases v <;> exact follows_quiet (Run.quiet_pure _)
  | literal kind v => cases kind <;> exact follows_quiet (Run.quiet_pure _)
  | ident name => exact follows_quiet (Run.quiet_evalName name)
  | property name index => exact evalProperty_follows follows name index
  | unary operator operand =>
      refine follows_bind (follows operand home m) fun result _ _ => follows_quiet ?_
      exact Run.quiet_applyUnary operator result
  | binary operator left right =>
      refine follows_bind (follows left home m) fun first between _ => ?_
      refine follows_bind (follows right home between) fun second _ _ => follows_quiet ?_
      exact Run.quiet_applyBinary operator first second
  | assign binding name value =>
      refine follows_bind (follows value home m) fun result between _ => ?_
      exact follows_step (Run.changes_assignTo between binding name result)
  | call name args => exact evalCall_follows follows name args
  | define name params body => exact follows_step (Run.changes_define m name params body)
  | param p => exact follows_quiet (Run.quiet_pure _)
  | ret value =>
      refine follows_bind (follows value home m) fun result _ _ => follows_quiet ?_
      exact Run.quiet_bind (Run.quiet_unwrap result) fun _ => Run.quiet_pure _
  | conditional keyword condition body otherwise =>
      exact evalConditional_follows follows keyword condition body otherwise
  | module parents name => exact evalModule_follows follows _

end Evaluators

/-- Every evaluation takes a course, at home in any scope. -/
theorem eval_follows (fuel : Nat) (e : Expr) (home : Scope) (m : Machine) :
    Follows home (eval fuel e) m := by
  induction fuel generalizing e home m with
  | zero => exact follows_quiet (Run.quiet_throw _)
  | succ fuel ih => exact evalWith_follows (fun e home m => ih e home m) e

end Recorded

/-- At most one write to a store: a new frame or a new binding. -/
inductive Store.Write (store : Store) : Store → Prop
  | nothing : Write store store
  | frame (scope : Scope) (label : Option String) (traced : Bool) :
      Write store (store.extend scope label traced).2
  | name (id : Nat) (name : String) (binding : Binding) : Write store (store.put id name binding)

theorem Store.Change.write {scope : Scope} {a b : Store} (change : Change scope a b) :
    Write a b := by
  cases change with
  | nothing => exact .nothing
  | frame label traced => exact .frame scope label traced
  | reassign _ _ _ _ _ => exact .name ..
  | define _ _ _ => exact .name ..

/-- A history leaves nothing out: from each point to the next there is at most one write, and the last
point is the machine that is left. -/
structure Traced (m : Machine) (t : List Event) (m' : Machine) : Prop where
  writes : (m :: states t).IsChain fun p q => p.store.Write q.store
  last : (m :: states t).getLast? = some m'

namespace Traced

variable {m m' m'' : Machine} {t t' : List Event}

theorem nil : Traced m [] m := ⟨.singleton m, rfl⟩

theorem state (write : m.store.Write m'.store) : Traced m [.state m'] m' :=
  ⟨List.isChain_pair.mpr write, rfl⟩

theorem same (store : m'.store = m.store) : Traced m [.state m'] m' :=
  state (store ▸ .nothing)

theorem call {scope : Scope} {params : List Parameter} {body : List Expr} (traced : Traced m t m') :
    Traced m (.call scope params body :: t) m' :=
  ⟨traced.writes, traced.last⟩

/-- Statements are entered with the store as it is. -/
theorem enter (store : m'.store = m.store) : Traced m [.enter, .state m'] m' :=
  ⟨List.isChain_pair.mpr (store ▸ .nothing), rfl⟩

theorem append (first : Traced m t m') (second : Traced m' t' m'') : Traced m (t ++ t') m'' := by
  have next := List.isChain_cons.mp second.writes
  constructor
  · rw [states_append, ← List.cons_append]
    refine List.isChain_append.mpr ⟨first.writes, next.2, fun p last q head => ?_⟩
    rw [first.last] at last
    cases last
    exact next.1 q head
  · have ended := second.last
    rw [List.getLast?_cons] at ended
    rw [states_append, ← List.cons_append, List.getLast?_append, first.last]
    cases final : (states t').getLast? with
    | none => rwa [final] at ended
    | some q => rwa [final] at ended

theorem body {entered : Machine} (before : Traced m t m') (store : entered.store = m'.store)
    (ran : Traced entered t' m'') : Traced m (t ++ .enter :: .state entered :: t') m'' := by
  have all := (before.append (.enter store)).append ran
  rwa [List.append_assoc] at all

end Traced

theorem Bound.traced {frame : Nat} {params : List Parameter} {m m' : Machine} {t : List Event}
    (bound : Bound frame params m t m') : Traced m t m' := by
  induction bound with
  | nil => exact .nil
  | bind _ _ store _ _ _ ih => exact (Traced.state (store ▸ .name ..)).append ih

theorem Course.traced {home : Scope} {m m' : Machine} {t : List Event} {stage : Stage}
    (course : Course home m t stage m') : Traced m t m' := by
  induction course with
  | rest => exact .nil
  | step change _ _ => exact .state change.write
  | home store _ _ => exact .enter store
  | block store _ _ => exact .enter store
  | seq _ _ ih ih' => exact ih.append ih'
  | fault _ ih => exact ih
  | linger _ store _ _ ih => exact ih.append (.same store)
  | opens made _ _ _ binds _ ih =>
      exact ((Traced.state (made ▸ .frame ..)).append ih).append binds.traced.call
  | hollow _ store _ _ ih => exact ih.append (.same store)
  | call _ enteredStore _ _ _ store _ _ ih runs =>
      exact (ih.body enteredStore runs).append (.same store)
  | broken _ enteredStore _ _ _ ih runs => exact ih.body enteredStore runs

namespace Run

/-- What a run of a program goes through. -/
def history (fuel : Nat) (program : List Expr) (scope : Scope) (verbose : Bool)
    (folder : Option Path) (machine : Machine) : List Event :=
  (Recorded.evalProgram fuel program scope verbose folder machine).2

/-- A run enters its scope and then takes a course that is at home there. -/
theorem history_course (fuel : Nat) (program : List Expr) (scope : Scope) (verbose : Bool)
    (folder : Option Path) (machine : Machine) :
    ∃ entered t stage, entered.store = machine.store ∧ entered.scope = scope ∧
      history fuel program scope verbose folder machine = .state entered :: t ∧
      Course scope entered t stage
        ((evalProgram fuel program scope verbose folder).exec machine).2 := by
  have entered : Recorded.step (modify fun m => { m with scope, verbose, folder }) machine =
      ((.ok (), { machine with scope, verbose, folder }),
        [.state { machine with scope, verbose, folder }]) :=
    rfl
  have ran : Recorded.evalProgram fuel program scope verbose folder machine = _ :=
    Recorded.bind_ok entered
  have recorded : (Recorded.evalProgram fuel program scope verbose folder machine).1 =
      (evalProgram fuel program scope verbose folder).exec machine :=
    Recorded.evalIn_records (Recorded.eval_records fuel) program scope verbose folder machine
  rw [history, ← recorded, ran]
  exact ⟨{ machine with scope, verbose, folder }, _, _, rfl, rfl, rfl,
    Recorded.evalAll_follows (Recorded.eval_follows fuel) program⟩

theorem history_traced (fuel : Nat) (program : List Expr) (scope : Scope) (verbose : Bool)
    (folder : Option Path) (machine : Machine) :
    Traced machine (history fuel program scope verbose folder machine)
      ((evalProgram fuel program scope verbose folder).exec machine).2 := by
  obtain ⟨entered, t, stage, store, _, began, course⟩ :=
    history_course fuel program scope verbose folder machine
  rw [began]
  exact (Traced.same store).append course.traced

end Run

end Scriptlet
