import Scriptlet.Proofs.Evaluation.Depth
import Scriptlet.Proofs.Evaluation.Operations

set_option autoImplicit false

/-!
The history of an evaluation: the machine after every operation, every call of a function of the program,
and where the statements of blocks and bodies begin. `Recorded.eval` evaluates as `Run.eval` does and
records the history on the way; `eval_records` says that it is the same evaluation once the history is
left out.
-/

namespace Scriptlet

/-- What is recorded of an evaluation. -/
inductive Event
  /-- The machine after an operation. -/
  | state (machine : Machine)
  /-- A function of the program is called, in a scope that was made for the call. -/
  | call (scope : Scope) (params : List Parameter) (body : List Expr)
  /-- The statements of a block or a statement of the body of a function are entered. -/
  | enter

namespace Event

/-- The machine that an event shows. -/
def machine? : Event → Option Machine
  | state machine => some machine
  | call .. | enter => none

/-- The call of a function without a body. -/
def isHollow : Event → Bool
  | state _ | enter => false
  | call _ _ body => body.isEmpty

/-- The entry into the statements of a block or into a statement of a body. -/
def isEntry : Event → Bool
  | enter => true
  | state _ | call .. => false

end Event

/-- The machines that a history shows, in their order. -/
def states (t : List Event) : List Machine := t.filterMap Event.machine?

theorem states_append (t t' : List Event) : states (t ++ t') = states t ++ states t' :=
  List.filterMap_append

/-- The machine in which the statements of a body or a block begin. -/
def Machine.enter (machine : Machine) (scope : Scope) : Machine :=
  { machine with scope, verbose := false, folder := none }

/-- A computation on the machine that records what it goes through, also when it fails. -/
def Recorded (α : Type) : Type := Machine → (Except Fault α × Machine) × List Event

namespace Recorded

variable {α β : Type}

/-- One computation after another, unless the first fails. -/
def andThen (r : Recorded α) (k : α → Recorded β) : Recorded β := fun machine =>
  match r machine with
  | ((.ok a, between), events) => ((k a between).1, events ++ (k a between).2)
  | ((.error fault, left), events) => ((.error fault, left), events)

instance : Monad Recorded where
  pure a := fun machine => ((.ok a, machine), [])
  bind := andThen

theorem bind_ok {r : Recorded α} {k : α → Recorded β} {machine between : Machine} {a : α}
    {events : List Event} (ran : r machine = ((.ok a, between), events)) :
    (r >>= k) machine = ((k a between).1, events ++ (k a between).2) := by
  change andThen r k machine = _
  rw [andThen, ran]

theorem bind_error {r : Recorded α} {k : α → Recorded β} {machine left : Machine} {fault : Fault}
    {events : List Event} (ran : r machine = ((.error fault, left), events)) :
    (r >>= k) machine = ((.error fault, left), events) := by
  change andThen r k machine = _
  rw [andThen, ran]

theorem of_bind_ok {r : Recorded α} {k : α → Recorded β} {machine after : Machine} {b : β}
    {events : List Event} (ran : (r >>= k) machine = ((.ok b, after), events)) :
    ∃ a between first second, r machine = ((.ok a, between), first) ∧
      k a between = ((.ok b, after), second) ∧ events = first ++ second := by
  rcases went : r machine with ⟨⟨fault | a, between⟩, first⟩
  · rw [bind_error went] at ran
    cases ran
  · rw [bind_ok went] at ran
    obtain ⟨ended, split⟩ := Prod.mk.inj ran
    exact ⟨a, between, first, (k a between).2, rfl, Prod.ext ended rfl, split.symm⟩

theorem andThen_assoc {γ : Type} (r : Recorded α) (k : α → Recorded β) (l : β → Recorded γ) :
    r >>= k >>= l = r >>= fun a => k a >>= l := by
  funext machine
  rcases ran : r machine with ⟨⟨fault | a, between⟩, events⟩
  · rw [bind_error ran, bind_error (bind_error ran)]
  · rcases went : k a between with ⟨⟨fault | b, after⟩, more⟩
    · have both : (r >>= k) machine = ((.error fault, after), events ++ more) := by
        rw [bind_ok ran, went]
      rw [bind_ok ran, bind_error went, bind_error both]
    · have both : (r >>= k) machine = ((.ok b, after), events ++ more) := by
        rw [bind_ok ran, went]
      rw [bind_ok ran, bind_ok went, bind_ok both, List.append_assoc]

theorem map_id_self (r : Recorded α) : id <$> r = r := by
  funext machine
  change (r >>= fun a => pure (id a)) machine = r machine
  rcases ran : r machine with ⟨⟨fault | a, between⟩, events⟩
  · rw [bind_error ran]
  · rw [bind_ok ran]
    exact congrArg (Prod.mk (Except.ok a, between)) (List.append_nil events)

instance : LawfulMonad Recorded :=
  LawfulMonad.mk' Recorded map_id_self (fun _ _ => rfl) andThen_assoc

/-- A computation as one operation. -/
def step (r : Run α) : Recorded α := fun machine => (r.exec machine, [.state (r.exec machine).2])

/-- Records an event. -/
def note (event : Event) : Recorded Unit := fun machine => ((.ok (), machine), [event])

def evalAll (ev : Expr → Recorded Result) : List Expr → Recorded (List Result)
  | [] => return []
  | e :: rest => do
    let results := (← ev e).spread
    return results ++ (← evalAll ev rest)

def evalIn (ev : Expr → Recorded Result) (program : List Expr) (scope : Scope) (verbose : Bool)
    (folder : Option Path) : Recorded (List Result) := do
  step (modify fun m => { m with scope, verbose, folder })
  evalAll ev program

/-- Evaluates the statements of a block or a statement of a body, which are entered by this. -/
def evalInside (ev : Expr → Recorded Result) (statements : List Expr) (scope : Scope) :
    Recorded (List Result) := do
  note .enter
  evalIn ev statements scope false none

def evalBlock (ev : Expr → Recorded Result) (body : List Expr) : Recorded (List Result) := do
  evalInside ev body (← step get).scope

/-- Each parameter is bound by an operation of its own. -/
def bindParameters (function : String) (scope : Scope) :
    List Parameter → List Value → Recorded Unit
  | [], _ => return ()
  | p :: params, args => do
    step (Run.bindParameters function scope [p] args)
    bindParameters function scope params args.tail

def evalBody (ev : Expr → Recorded Result) (scope : Scope) : List Expr → Recorded (Option Value)
  | [] => return none
  | e :: rest => do
    let result ← step (Run.firstResult (← evalInside ev [e] scope))
    match ← step (liftM (Run.returnedBy result)) with
    | some v => return some v
    | none => evalBody ev scope rest

def call (ev : Expr → Recorded Result) (callee : Value) (scope : Scope) (args : List Value) :
    Recorded Result := do
  match callee with
  | .function _ _ name params body =>
    note (.call scope params body)
    if params.length < args.length then
      step (throw (.tooManyArguments name params.length args.length))
    bindParameters name scope params args
    let returned ← evalBody ev scope body
    step Run.leaveScope
    return .value (← step (liftM (Value.functionResult returned)))
  | callee => step (Run.call (fun _ => throw .outOfFuel) callee scope args)

def evalEach (ev : Expr → Recorded Result) : List Expr → Recorded (List Result)
  | [] => return []
  | e :: rest => do
    let arg ← step (Run.argument (← ev e))
    return arg :: (← evalEach ev rest)

def evalArguments (ev : Expr → Recorded Result) (args : List Expr) : Recorded (List Value) := do
  step (Run.snapshots (← evalEach ev args))

def evalCall (ev : Expr → Recorded Result) (name : String) (args : List Expr) :
    Recorded Result := do
  let around ← step (Run.demandScope "extend")
  let scope ← step (Run.extend around (some ("call_" ++ name)) false)
  let callee ← step (Run.evalName name)
  let args ← evalArguments ev args
  call ev (← step (Run.snapshot callee)) scope args

def evalProperty (ev : Expr → Recorded Result) (name : String) (index : Expr) :
    Recorded Result := do
  match index with
  | .call callee args =>
    let object ← step (Run.snapshot (← step (Run.evalName name)))
    let type ← step (liftM (object.subscript "type"))
    if !type.equal (.str "obj") then
      step (throw (.notIndexable name (← step (liftM type.text))))
    let _ ← step (liftM (object.subscript "value"))
    evalCall ev callee args
  | index => step (Run.evalProperty (fun _ => throw .outOfFuel) name index)

def evalModule (ev : Expr → Recorded Result) (path : List (Option String)) :
    Recorded Result := do
  let m ← step get
  let text ← step (liftM (Run.moduleText m.files m.folder path))
  let program ← step (Run.readProgram text m.verbose)
  let program ← step (liftM (Expr.foldProgram program).1)
  return .block (← evalIn ev program m.scope m.verbose m.folder)

def evalWith (ev : Expr → Recorded Result) : Expr → Recorded Result
  | .property name index => evalProperty ev name index
  | .unary operator operand => do step (Run.applyUnary operator (← ev operand))
  | .binary operator left right => do
    let left ← ev left
    step (Run.applyBinary operator left (← ev right))
  | .module parents name => evalModule ev (Expr.modulePath parents name)
  | .assign binding name value => do step (Run.assignTo binding name (← ev value))
  | .conditional _ (.datum .null) body _ => do
    let _ ← evalBlock ev body
    return .value .null
  | .conditional _ condition body otherwise => do
    let value ← step (Run.snapshot (← ev condition))
    let outcome ← step (liftM value.condition)
    if !outcome.isTruthWord then step (throw .badCondition)
    else if outcome.equal (.str "true") then return .block (← evalBlock ev body)
    else
      match otherwise with
      | some (e :: _) => ev e
      | _ => return .value .null
  | .call name args => evalCall ev name args
  | .ret value => do
    let value ← ev value
    step do return .value (← Run.unwrap value).returned
  -- an expression without parts is evaluated by one operation
  | e => step (Run.eval 1 e)

/-- Evaluates an expression and records the history. -/
def eval : Nat → Expr → Recorded Result
  | 0, _ => step (throw .outOfFuel)
  | fuel + 1, e => evalWith (eval fuel) e

/-- Evaluates a program and records the history. -/
def evalProgram (fuel : Nat) (program : List Expr) (scope : Scope) (verbose : Bool)
    (folder : Option Path) : Recorded (List Result) :=
  evalIn (eval fuel) program scope verbose folder

/-- A computation does what another one does, and records it. -/
def Records (r : Recorded α) (s : Run α) : Prop := ∀ machine, (r machine).1 = s.exec machine

theorem records_pure (a : α) : Records (pure a) (pure a) := fun _ => rfl

theorem records_step (r : Run α) : Records (step r) r := fun _ => rfl

theorem records_bind {r : Recorded α} {s : Run α} {k : α → Recorded β} {l : α → Run β}
    (first : Records r s) (others : ∀ a, Records (k a) (l a)) : Records (r >>= k) (s >>= l) := by
  intro machine
  rw [Run.exec_bind, ← first machine]
  rcases ran : r machine with ⟨⟨fault | a, between⟩, events⟩
  · rw [bind_error ran]
  · rw [bind_ok ran]
    exact others a between

theorem records_note {k : Unit → Recorded α} {s : Run α} (event : Event)
    (others : Records (k ()) s) : Records (note event >>= k) s :=
  others

section Evaluators

variable {ev : Expr → Recorded Result} {ev' : Expr → Run Result}

theorem evalWith_conditional {keyword : String} {condition : Expr} {body : List Expr}
    {otherwise : Option (List Expr)} (present : condition ≠ .datum .null) :
    evalWith ev (.conditional keyword condition body otherwise) = do
      let value ← step (Run.snapshot (← ev condition))
      let outcome ← step (liftM value.condition)
      if !outcome.isTruthWord then step (throw .badCondition)
      else if outcome.equal (.str "true") then return .block (← evalBlock ev body)
      else
        match otherwise with
        | some (e :: _) => ev e
        | _ => return .value .null := by
  cases condition with
  | datum v =>
      cases v with
      | null => exact absurd rfl present
      | _ => rfl
  | _ => rfl

theorem evalAll_records (records : ∀ e, Records (ev e) (ev' e)) (program : List Expr) :
    Records (evalAll ev program) (Run.evalAll ev' program) := by
  induction program with
  | nil => exact records_pure []
  | cons e rest ih =>
      exact records_bind (records e) fun _ => records_bind ih fun _ => records_pure _

theorem evalIn_records (records : ∀ e, Records (ev e) (ev' e)) (program : List Expr)
    (scope : Scope) (verbose : Bool) (folder : Option Path) :
    Records (evalIn ev program scope verbose folder)
      (Run.evalIn ev' program scope verbose folder) :=
  records_bind (records_step _) fun _ => evalAll_records records program

theorem evalInside_records (records : ∀ e, Records (ev e) (ev' e)) (statements : List Expr)
    (scope : Scope) :
    Records (evalInside ev statements scope) (Run.evalIn ev' statements scope false none) :=
  records_note _ (evalIn_records records statements scope false none)

theorem evalBlock_records (records : ∀ e, Records (ev e) (ev' e)) (body : List Expr) :
    Records (evalBlock ev body) (Run.evalBlock ev' body) :=
  records_bind (records_step _) fun _ => evalInside_records records body _

theorem bindParameters_records (function : String) (scope : Scope) (params : List Parameter)
    (args : List Value) :
    Records (bindParameters function scope params args)
      (Run.bindParameters function scope params args) := by
  induction params generalizing args with
  | nil => exact records_pure ()
  | cons p params ih =>
      intro machine
      rw [Run.bindParameters_cons]
      exact records_bind (records_step _) (fun _ => ih args.tail) machine

theorem evalBody_records (records : ∀ e, Records (ev e) (ev' e)) (scope : Scope)
    (body : List Expr) : Records (evalBody ev scope body) (Run.evalBody ev' scope body) := by
  induction body with
  | nil => exact records_pure none
  | cons e rest ih =>
      refine records_bind (evalInside_records records [e] scope) fun results => ?_
      refine records_bind (records_step _) fun result => records_bind (records_step _) fun returned => ?_
      cases returned with
      | none => exact ih
      | some v => exact records_pure (some v)

theorem call_records (records : ∀ e, Records (ev e) (ev' e)) (callee : Value) (scope : Scope)
    (args : List Value) : Records (call ev callee scope args) (Run.call ev' callee scope args) := by
  cases callee with
  | function serial address name params body =>
      refine records_note _ ?_
      by_cases many : params.length < args.length
      · simp only [Run.call, many, ↓reduceIte]
        refine records_bind (records_step _) fun _ => ?_
        refine records_bind (bindParameters_records name scope params args) fun _ => ?_
        refine records_bind (evalBody_records records scope body) fun returned => ?_
        refine records_bind (records_step _) fun _ => records_bind (records_step _) fun _ => ?_
        exact records_pure _
      · simp only [Run.call, many, ↓reduceIte]
        refine records_bind (bindParameters_records name scope params args) fun _ => ?_
        refine records_bind (evalBody_records records scope body) fun returned => ?_
        refine records_bind (records_step _) fun _ => records_bind (records_step _) fun _ => ?_
        exact records_pure _
  | _ => exact records_step _

theorem evalEach_records (records : ∀ e, Records (ev e) (ev' e)) (args : List Expr) :
    Records (evalEach ev args) (Run.evalEach ev' args) := by
  induction args with
  | nil => exact records_pure []
  | cons e rest ih =>
      refine records_bind (records e) fun _ => records_bind (records_step _) fun _ => ?_
      exact records_bind ih fun _ => records_pure _

theorem evalArguments_records (records : ∀ e, Records (ev e) (ev' e)) (args : List Expr) :
    Records (evalArguments ev args) (Run.evalArguments ev' args) :=
  records_bind (evalEach_records records args) fun _ => records_step _

theorem evalCall_records (records : ∀ e, Records (ev e) (ev' e)) (name : String)
    (args : List Expr) : Records (evalCall ev name args) (Run.evalCall ev' name args) := by
  refine records_bind (records_step _) fun around => records_bind (records_step _) fun scope => ?_
  refine records_bind (records_step _) fun callee => ?_
  refine records_bind (evalArguments_records records args) fun args => ?_
  exact records_bind (records_step _) fun value => call_records records value scope args

theorem evalProperty_records (records : ∀ e, Records (ev e) (ev' e)) (name : String)
    (index : Expr) : Records (evalProperty ev name index) (Run.evalProperty ev' name index) := by
  cases index with
  | call callee args =>
      refine records_bind (records_step _) fun result => records_bind (records_step _) fun object => ?_
      refine records_bind (records_step _) fun type => ?_
      by_cases indexable : type.equal (.str "obj") = true
      · simp only [indexable, Bool.not_true, Bool.false_eq_true, ↓reduceIte]
        refine records_bind (records_step _) fun _ => ?_
        exact evalCall_records records callee args
      · simp only [indexable, Bool.not_false, ↓reduceIte]
        refine records_bind (records_step _) fun _ => records_bind (records_step _) fun _ => ?_
        refine records_bind (records_step _) fun _ => ?_
        exact evalCall_records records callee args
  | datum v => cases v <;> exact records_step _
  | _ => exact records_step _

theorem evalModule_records (records : ∀ e, Records (ev e) (ev' e))
    (path : List (Option String)) : Records (evalModule ev path) (Run.evalModule ev' path) := by
  refine records_bind (records_step _) fun machine => records_bind (records_step _) fun text => ?_
  refine records_bind (records_step _) fun program => records_bind (records_step _) fun folded => ?_
  exact records_bind (evalIn_records records folded _ _ _) fun _ => records_pure _

theorem evalConditional_records (records : ∀ e, Records (ev e) (ev' e)) (keyword : String)
    (condition : Expr) (body : List Expr) (otherwise : Option (List Expr)) :
    Records (evalWith ev (.conditional keyword condition body otherwise))
      (Run.evalWith ev' (.conditional keyword condition body otherwise)) := by
  by_cases missing : condition = .datum .null
  · subst missing
    exact records_bind (evalBlock_records records body) fun _ => records_pure _
  · rw [evalWith_conditional missing, Run.evalWith_conditional missing]
    refine records_bind (records condition) fun result => ?_
    refine records_bind (records_step _) fun value => records_bind (records_step _) fun outcome => ?_
    split
    · exact records_step _
    · split
      · exact records_bind (evalBlock_records records body) fun _ => records_pure _
      · rcases otherwise with _ | (_ | ⟨e, rest⟩)
        · exact records_pure _
        · exact records_pure _
        · exact records e

theorem evalWith_records (records : ∀ e, Records (ev e) (ev' e)) (e : Expr) :
    Records (evalWith ev e) (Run.evalWith ev' e) := by
  cases e with
  | datum v => cases v <;> exact records_step _
  | literal kind v => cases kind <;> exact records_step _
  | ident name => exact records_step _
  | property name index => exact evalProperty_records records name index
  | unary operator operand => exact records_bind (records operand) fun _ => records_step _
  | binary operator left right =>
      refine records_bind (records left) fun _ => ?_
      exact records_bind (records right) fun _ => records_step _
  | assign binding name value => exact records_bind (records value) fun _ => records_step _
  | call name args => exact evalCall_records records name args
  | define name params body => exact records_step _
  | param p => exact records_step _
  | ret value => exact records_bind (records value) fun _ => records_step _
  | conditional keyword condition body otherwise =>
      exact evalConditional_records records keyword condition body otherwise
  | module parents name => exact evalModule_records records _

end Evaluators

theorem eval_records (fuel : Nat) (e : Expr) : Records (eval fuel e) (Run.eval fuel e) := by
  induction fuel generalizing e with
  | zero => exact records_step _
  | succ fuel ih => exact evalWith_records ih e

end Recorded

end Scriptlet
