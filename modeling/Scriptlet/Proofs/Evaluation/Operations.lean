import Scriptlet.Proofs.Evaluation.Exec
import Scriptlet.Proofs.Store

set_option autoImplicit false

/-!
What the operations of evaluation do to the store and to the scope at hand. Most do nothing to either,
and do not know where modules are looked for (`Quiet`); a definition, an assignment or a parameter
changes one binding.
-/

namespace Scriptlet

/-- The machine with other files, another place to look for them, and as talkative as is said. -/
def Machine.relocate (machine : Machine) (files : Files) (folder : Option Path) (verbose : Bool) :
    Machine :=
  { machine with files, folder, verbose }

/-- Where modules are looked for, whether they are listed, and the host. -/
def Machine.place (machine : Machine) : Files × Option Path × Bool × Host :=
  (machine.files, machine.folder, machine.verbose, machine.host)

/-- The machine with a frame made for the call of a name. -/
def Machine.opened (machine : Machine) (name : String) : Machine :=
  { machine with store := (machine.store.extend machine.scope (some ("call_" ++ name)) false).2 }

namespace Run

variable {α β : Type}

/-- What an operator makes of its operand. -/
def applyUnary (operator : String) (operand : Result) : Run Result :=
  match UnaryOperator.ofSymbol? operator with
  | none => throw (.noEntry operator)
  | some op => do return .value (← liftM (op.apply (← unwrap operand))).orZero

/-- What an operator makes of its operands. -/
def applyBinary (operator : String) (left right : Result) : Run Result :=
  match Operator.ofSymbol? operator with
  | none => throw (.noEntry operator)
  | some op => do
    let left ← unwrap left
    let right ← unwrap right
    return .value (← liftM (op.apply left right)).orZero

/-- Assigns a result to a name. -/
def assignTo (binding : Option String) (name : String) (result : Result) : Run Result := do
  let value ← liftM (assignedValue (← snapshot result))
  let scope ← demandScope "set_var"
  return .value (← assign scope name value binding)

/-- A computation does not look at where modules are found, and does not change it. -/
def Unaware (r : Run α) : Prop :=
  ∀ machine files folder verbose, r.exec (machine.relocate files folder verbose) =
    ((r.exec machine).1, (r.exec machine).2.relocate files folder verbose)

theorem Unaware.stays {r : Run α} (unaware : Unaware r) (machine : Machine) :
    (r.exec machine).2.files = machine.files ∧ (r.exec machine).2.folder = machine.folder ∧
      (r.exec machine).2.verbose = machine.verbose := by
  have same := unaware machine machine.files machine.folder machine.verbose
  have here : machine.relocate machine.files machine.folder machine.verbose = machine := rfl
  rw [here] at same
  rw [(Prod.ext_iff.mp same).2]
  exact ⟨rfl, rfl, rfl⟩

theorem unaware_bind {r : Run α} {k : α → Run β} (first : Unaware r) (others : ∀ a, Unaware (k a)) :
    Unaware (r >>= k) := by
  intro machine files folder verbose
  rw [exec_bind, exec_bind, first machine files folder verbose]
  rcases r.exec machine with ⟨fault | a, between⟩
  · rfl
  · exact others a between files folder verbose

/-- What a computation reads of the machine is not where modules are found. -/
theorem unaware_reads {k : Machine → Run α}
    (same : ∀ machine files folder verbose, k (machine.relocate files folder verbose) = k machine)
    (others : ∀ machine, Unaware (k machine)) : Unaware (get >>= k) := by
  intro machine files folder verbose
  rw [exec_bind, exec_bind, exec_get, exec_get]
  simp only [same]
  exact others machine machine files folder verbose

/-- A computation leaves the store, the scope and the host alone, also when it fails, and has nothing to
do with where modules are found. -/
structure Quiet (r : Run α) : Prop where
  keeps (machine : Machine) :
    (r.exec machine).2.store = machine.store ∧ (r.exec machine).2.scope = machine.scope ∧
      (r.exec machine).2.host = machine.host
  unaware : Unaware r

theorem Quiet.place {r : Run α} (quiet : Quiet r) (machine : Machine) :
    (r.exec machine).2.place = machine.place := by
  obtain ⟨files, folder, verbose⟩ := quiet.unaware.stays machine
  rw [Machine.place, files, folder, verbose, (quiet.keeps machine).2.2]
  rfl

theorem Quiet.stays {r : Run α} (quiet : Quiet r) {machine after : Machine}
    {outcome : Except Fault α} (ran : r.exec machine = (outcome, after)) :
    after.scope = machine.scope ∧ after.place = machine.place := by
  have scope := (quiet.keeps machine).2.1
  have place := quiet.place machine
  rw [ran] at scope place
  exact ⟨scope, place⟩

theorem quiet_pure (a : α) : Quiet (pure a) := ⟨fun _ => ⟨rfl, rfl, rfl⟩, fun _ _ _ _ => rfl⟩

theorem quiet_throw (fault : Fault) : Quiet (throw fault : Run α) :=
  ⟨fun _ => ⟨rfl, rfl, rfl⟩, fun _ _ _ _ => rfl⟩

theorem quiet_lift (e : Except Fault α) : Quiet (liftM e : Run α) :=
  ⟨fun _ => ⟨rfl, rfl, rfl⟩, fun _ _ _ _ => rfl⟩

theorem quiet_snapshot (r : Result) : Quiet (snapshot r) :=
  ⟨fun _ => ⟨rfl, rfl, rfl⟩, fun _ _ _ _ => rfl⟩

theorem quiet_unwrap (r : Result) : Quiet (unwrap r) :=
  ⟨fun _ => ⟨rfl, rfl, rfl⟩, fun _ _ _ _ => rfl⟩

theorem quiet_write (text : String) : Quiet (write text) :=
  ⟨fun _ => ⟨rfl, rfl, rfl⟩, fun _ _ _ _ => rfl⟩

theorem quiet_readLine : Quiet readLine := ⟨fun _ => ⟨rfl, rfl, rfl⟩, fun _ _ _ _ => rfl⟩

theorem quiet_bind {r : Run α} {k : α → Run β} (first : Quiet r) (others : ∀ a, Quiet (k a)) :
    Quiet (r >>= k) := by
  refine ⟨fun machine => ?_, unaware_bind first.unaware fun a => (others a).unaware⟩
  have before := first.keeps machine
  rw [exec_bind]
  rcases ran : r.exec machine with ⟨fault | a, between⟩
  · rw [ran] at before
    exact before
  · rw [ran] at before
    obtain ⟨store, scope, host⟩ := (others a).keeps between
    exact ⟨store.trans before.1, scope.trans before.2.1, host.trans before.2.2⟩

/-- What a computation reads of the machine is not where modules are found. -/
theorem quiet_reads {k : Machine → Run α}
    (same : ∀ machine files folder verbose, k (machine.relocate files folder verbose) = k machine)
    (others : ∀ machine, Quiet (k machine)) : Quiet (get >>= k) := by
  refine ⟨fun machine => ?_, unaware_reads same fun machine => (others machine).unaware⟩
  rw [exec_bind, exec_get]
  exact (others machine).keeps machine

theorem quiet_argument (r : Result) : Quiet (argument r) := by
  cases r with
  | value v => exact quiet_bind (quiet_unwrap _) fun _ => quiet_pure _
  | cell frame name => exact quiet_bind (quiet_unwrap _) fun _ => quiet_pure _
  | block results => exact quiet_pure _

/-- The values of several results at this moment. -/
def snapshots (results : List Result) : Run (List Value) := do
  return Result.snapshotAll (← get).store results

theorem quiet_snapshots (results : List Result) : Quiet (snapshots results) :=
  ⟨fun _ => ⟨rfl, rfl, rfl⟩, fun _ _ _ _ => rfl⟩

theorem quiet_demandScope (member : String) : Quiet (demandScope member) := by
  refine quiet_reads (fun _ _ _ _ => rfl) fun machine => ?_
  cases machine.scope with
  | nil => exact quiet_throw _
  | cons frame around => exact quiet_pure _

theorem quiet_lookup (scope : Scope) (name : String) : Quiet (lookup scope name) := by
  refine quiet_reads (fun _ _ _ _ => rfl) fun _ => quiet_bind (quiet_write _) fun _ => ?_
  exact quiet_reads (fun _ _ _ _ => rfl) fun _ => quiet_lift _

theorem quiet_evalName (name : String) : Quiet (evalName name) := by
  refine quiet_bind (quiet_demandScope _) fun scope => quiet_bind (quiet_lookup _ _) fun found => ?_
  obtain ⟨frame, binding⟩ := found
  cases binding with
  | record r => exact quiet_pure _
  | function f => exact quiet_pure _

theorem quiet_callBuiltin (f : Builtin) (args : List Value) : Quiet (callBuiltin f args) := by
  cases f with
  | print address =>
      exact quiet_bind (quiet_lift _) fun _ => quiet_bind (quiet_write _) fun _ => quiet_pure _
  | string address =>
      refine quiet_bind (quiet_lift _) fun texts => ?_
      rcases texts with _ | ⟨text, _ | _⟩ <;> exact quiet_pure _
  | input address =>
      exact quiet_bind (quiet_lift _) fun _ => quiet_bind (quiet_write _) fun _ =>
        quiet_bind quiet_readLine fun _ => quiet_pure _
  | echo serial => exact quiet_pure _

theorem quiet_readProgram (text : String) (verbose : Bool) : Quiet (readProgram text verbose) := by
  refine quiet_bind (quiet_lift _) fun tokens => quiet_bind (quiet_lift _) fun program => ?_
  cases verbose with
  | false => exact quiet_pure _
  | true =>
      refine quiet_reads (fun _ _ _ _ => rfl) fun _ => quiet_bind (quiet_lift _) fun _ => ?_
      exact quiet_bind (quiet_write _) fun _ => quiet_pure _

theorem quiet_firstResult (results : List Result) : Quiet (firstResult results) := by
  cases results with
  | nil => exact quiet_throw _
  | cons r rest =>
      refine quiet_bind (quiet_snapshot r) fun v => ?_
      rcases v with _ | _ | _ | _ | _ | _ | (_ | _) | _ | _ | _ | _ <;> exact quiet_pure _

theorem quiet_ite {c : Prop} [Decidable c] {r s : Run α} (yes : Quiet r) (no : Quiet s) :
    Quiet (if c then r else s) := by
  split
  · exact yes
  · exact no

/-- Of an object that has no properties nothing is read. -/
theorem quiet_indexed {k : Unit → Run α} (name : String) (type : Value)
    (others : ∀ u, Quiet (k u)) :
    Quiet (if !type.equal (.str "obj") then do
        let text ← liftM type.text
        let u ← throw (.notIndexable name text)
        k u
      else k ()) :=
  quiet_ite (quiet_bind (quiet_lift _) fun _ => quiet_bind (quiet_throw _) others) (others ())

/-- A property that is not a call is read without evaluating anything inside it. -/
theorem quiet_evalProperty {ev : Expr → Run Result} {name : String} {index : Expr}
    (noCall : ∀ callee args, index ≠ .call callee args) : Quiet (evalProperty ev name index) := by
  unfold evalProperty
  split
  · exact quiet_evalName name
  · refine quiet_bind (quiet_evalName name) fun _ => quiet_bind (quiet_snapshot _) fun object => ?_
    refine quiet_bind (quiet_lift _) fun type => ?_
    have readEntry (property : String) (object : Value) :
        Quiet (do
          if ← liftM (object.contains property) then
            return .value (← liftM (object.subscript property))
          else throw (.noProperty name property) : Run Result) :=
      quiet_bind (quiet_lift _) fun _ =>
        quiet_ite (quiet_bind (quiet_lift _) fun _ => quiet_pure _) (quiet_throw _)
    split
    · exact quiet_indexed name type fun _ => quiet_bind (quiet_lift _) (readEntry _)
    · exact quiet_indexed name type fun _ => quiet_bind (quiet_lift _) (readEntry _)
    · exact absurd rfl (noCall _ _)
    · exact quiet_indexed name type fun _ => quiet_bind (quiet_lift _) fun _ => quiet_pure _

/-- A value that is not a function of the program runs nothing of it. -/
theorem quiet_call {ev : Expr → Run Result} {callee : Value} {scope : Scope} {args : List Value}
    (noFunction : ∀ serial address name params body,
      callee ≠ .function serial address name params body) :
    Quiet (call ev callee scope args) := by
  cases callee with
  | builtin f => exact quiet_bind (quiet_callBuiltin f args) fun _ => quiet_pure _
  | function serial address name params body =>
      exact absurd rfl (noFunction serial address name params body)
  | _ => exact quiet_throw _

theorem quiet_applyUnary (operator : String) (operand : Result) :
    Quiet (applyUnary operator operand) := by
  unfold applyUnary
  split
  · exact quiet_throw _
  · exact quiet_bind (quiet_unwrap operand) fun _ => quiet_bind (quiet_lift _) fun _ => quiet_pure _

theorem quiet_applyBinary (operator : String) (left right : Result) :
    Quiet (applyBinary operator left right) := by
  unfold applyBinary
  split
  · exact quiet_throw _
  · exact quiet_bind (quiet_unwrap left) fun _ => quiet_bind (quiet_unwrap right) fun _ =>
      quiet_bind (quiet_lift _) fun _ => quiet_pure _

/-- A computation changes the store from the scope at hand, which stays, as does the place of modules. -/
structure Changes (r : Run α) (machine : Machine) : Prop where
  store : Store.Change machine.scope machine.store (r.exec machine).2.store
  scope : (r.exec machine).2.scope = machine.scope
  place : (r.exec machine).2.place = machine.place

theorem changes_of_quiet {r : Run α} (quiet : Quiet r) (machine : Machine) : Changes r machine := by
  obtain ⟨store, scope, -⟩ := quiet.keeps machine
  refine ⟨?_, scope, quiet.place machine⟩
  rw [store]
  exact .nothing

theorem changes_bind_quiet {r : Run α} {k : α → Run β} {machine : Machine} (first : Quiet r)
    (others : ∀ a between, r.exec machine = (.ok a, between) → Changes (k a) between) :
    Changes (r >>= k) machine := by
  have unchanged := changes_of_quiet first machine
  obtain ⟨store, scope, -⟩ := first.keeps machine
  have place := first.place machine
  rcases ran : r.exec machine with ⟨fault | a, between⟩
  · have ended : (r >>= k).exec machine = (.error fault, between) := by rw [exec_bind, ran]
    obtain ⟨store, scope, place⟩ := unchanged
    rw [ran] at store scope place
    constructor <;> rw [ended] <;> assumption
  · have next : (r >>= k).exec machine = (k a).exec between := by rw [exec_bind, ran]
    have changed := others a between ran
    rw [ran] at store scope place
    constructor
    · rw [next, ← store, ← scope]
      exact changed.store
    · rw [next, ← scope]
      exact changed.scope
    · rw [next, ← place]
      exact changed.place

theorem changes_bind_pure {r : Run α} {machine : Machine} (f : α → β) (first : Changes r machine) :
    Changes (r >>= fun a => pure (f a)) machine := by
  have after : ((r >>= fun a => pure (f a)).exec machine).2 = (r.exec machine).2 := by
    rw [exec_bind]
    rcases r.exec machine with ⟨fault | a, after⟩ <;> rfl
  obtain ⟨store, scope, place⟩ := first
  constructor <;> rw [after] <;> assumption

theorem exec_demandScope {machine : Machine} (inside : machine.scope ≠ []) (member : String) :
    (demandScope member).exec machine = (.ok machine.scope, machine) := by
  cases here : machine.scope with
  | nil => exact absurd here inside
  | cons frame around => simp [demandScope, here]

theorem exec_demandScope_ok {machine after : Machine} {member : String} {scope : Scope}
    (ran : (demandScope member).exec machine = (.ok scope, after)) :
    machine.scope = scope ∧ machine = after := by
  cases here : machine.scope with
  | nil => simp [demandScope, here] at ran
  | cons frame around =>
      simp only [demandScope, exec_bind, exec_get, here, exec_pure, Prod.mk.injEq,
        Except.ok.injEq] at ran
      exact ran

theorem changes_assign (machine : Machine) (name : String) (value : Value)
    (binding : Option String) : Changes (assign machine.scope name value binding) machine :=
  ⟨Store.set_change machine.store machine.scope name value binding, rfl, rfl⟩

theorem changes_defineFunction (machine : Machine) (name : String) {f : Value}
    (function : f.isFunction = true) : Changes (defineFunction machine.scope name f) machine :=
  ⟨Store.defineFunction_change machine.store machine.scope name function, rfl, rfl⟩

theorem changes_assignTo (machine : Machine) (binding : Option String) (name : String)
    (result : Result) : Changes (assignTo binding name result) machine := by
  refine changes_bind_quiet (quiet_snapshot result) fun snapshot _ _ => ?_
  refine changes_bind_quiet (quiet_lift _) fun value between _ => ?_
  refine changes_bind_quiet (quiet_demandScope _) fun scope after ran => ?_
  obtain ⟨rfl, rfl⟩ := exec_demandScope_ok ran
  exact changes_bind_pure _ (changes_assign between name value binding)

theorem changes_define (machine : Machine) (name : String) (params : List Parameter)
    (body : List Expr) : Changes (eval 1 (.define name params body)) machine := by
  let counted : Machine := { machine with serial := machine.serial + 1 }
  have changes : Changes (do
      let scope ← demandScope "def_func"
      let f := Value.function machine.serial (machine.host.address machine.serial) name params body
      return .value (← defineFunction scope name f) : Run Result) counted := by
    refine changes_bind_quiet (quiet_demandScope _) fun scope after ran => ?_
    obtain ⟨rfl, rfl⟩ := exec_demandScope_ok ran
    exact changes_bind_pure _ (changes_defineFunction counted name rfl)
  exact ⟨changes.store, changes.scope, changes.place⟩

section Steps

variable (machine : Machine)

/-- Leaving the scope at hand goes one frame outwards, or fails where there is none. -/
theorem exec_leaveScope :
    leaveScope.exec machine =
      if machine.scope = [] then (.error (.noAttribute "NoneType" "parent"), machine)
      else (.ok (), { machine with scope := machine.scope.tail }) := by
  cases here : machine.scope with
  | nil => simp [leaveScope, demandScope, here]
  | cons frame around => simp [leaveScope, demandScope, here]

theorem exec_tryCatch (r : Run α) (handle : Fault → Run α) :
    (tryCatch r handle : Run α).exec machine =
      match r.exec machine with
      | (.ok a, left) => (.ok a, left)
      | (.error fault, left) => (handle fault).exec left := by
  cases result : r.exec machine with
  | mk outcome left =>
      have executed : StateT.run (ExceptT.run r) machine = (outcome, left) := result
      change StateT.run (ExceptT.run (ExceptT.tryCatch r handle)) machine = _
      rw [ExceptT.tryCatch, ExceptT.run_mk, StateT.run_bind]
      change (StateT.run (ExceptT.run r) machine >>= _ : Id _) = _
      rw [executed]
      cases outcome <;> rfl

end Steps

theorem inside_of_get {store : Store} {scope : Scope} {name : String} {id : Nat} {binding : Binding}
    (found : store.get scope name = .ok (id, binding)) : scope ≠ [] := by
  rintro rfl
  cases found

theorem exec_lookup (machine : Machine) (scope : Scope) (name : String) :
    (lookup scope name).exec machine =
      (machine.store.get scope name,
        { machine with console := machine.console.write (machine.store.searchTrace scope name) }) :=
  rfl

/-- A function is found by its name. -/
theorem exec_evalName {machine : Machine} {name : String} {id : Nat} {f : Value}
    (untraced : machine.store.isTraced machine.scope = false)
    (found : machine.store.get machine.scope name = .ok (id, .function f)) :
    (evalName name).exec machine = (.ok (.value f), machine) := by
  have unwritten : machine.console.write "" = machine.console := by
    simp [Console.write]
  rw [evalName, exec_bind, exec_demandScope (inside_of_get found)]
  simp only [exec_bind, exec_lookup, found, Store.searchTrace_of_untraced untraced, unwritten, exec_pure]

/-- A variable is found by its name, and the search for it is traced. -/
theorem exec_evalName_record {machine : Machine} {name : String} {frame : Nat} {r : Record}
    (found : machine.store.get machine.scope name = .ok (frame, .record r)) :
    (evalName name).exec machine =
      (.ok (.cell frame name),
        { machine with
          console := machine.console.write (machine.store.searchTrace machine.scope name) }) := by
  rw [evalName, exec_bind, exec_demandScope (inside_of_get found)]
  simp only [exec_bind, exec_lookup, found, exec_pure]

/-- A call by the name of a function, with arguments that change nothing. -/
theorem exec_evalCall {ev : Expr → Run Result} {machine : Machine} {name : String}
    {args : List Expr} {values : List Value} {id : Nat} {f : Value}
    (untraced : machine.store.isTraced machine.scope = false)
    (found : machine.store.get machine.scope name = .ok (id, .function f))
    (given : (evalArguments ev args).exec (machine.opened name) = (.ok values, machine.opened name)) :
    (evalCall ev name args).exec machine =
      (call ev f (machine.store.frames.size :: machine.scope) values).exec (machine.opened name) := by
  have extended : (extend machine.scope (some ("call_" ++ name)) false).exec machine =
      (.ok (machine.store.frames.size :: machine.scope), machine.opened name) := rfl
  have untraced' : (machine.opened name).store.isTraced machine.scope = false :=
    Store.untraced_extend untraced machine.scope _
  have found' : (machine.opened name).store.get machine.scope name = .ok (id, .function f) := by
    rw [← found]
    exact Store.get_extend machine.store machine.scope machine.scope _ false name
  have named : (evalName name).exec (machine.opened name) = (.ok (.value f), machine.opened name) :=
    exec_evalName untraced' found'
  rw [evalCall, exec_bind, exec_demandScope (inside_of_get found)]
  simp only [exec_bind, extended, named, given, exec_snapshot, Result.snapshot]

/-- Where modules are looked for nowhere, none is found. -/
theorem moduleText_none (path : List (Option String)) :
    ∃ fault, ∀ files, moduleText files none path = .error fault := by
  unfold moduleText
  dsimp only
  generalize (if path.head? = some (some ".") then path.dropLast else path) = parts
  cases parts with
  | nil => exact ⟨_, fun _ => rfl⟩
  | cons first rest => exact ⟨_, fun _ => rfl⟩

theorem bindParameters_cons (function : String) (scope : Scope) (p : Parameter)
    (params : List Parameter) (args : List Value) (machine : Machine) :
    (bindParameters function scope (p :: params) args).exec machine =
      (do bindParameters function scope [p] args
          bindParameters function scope params args.tail : Run Unit).exec machine := by
  by_cases filled : p.default.toValue.truthy = true
  · simp only [bindParameters, filled, ↓reduceIte, bind_assoc, pure_bind]
  · simp only [bindParameters, filled, Bool.false_eq_true, ↓reduceIte, bind_assoc, pure_bind]

/-- A parameter is bound in a frame by one record, or that fails and nothing is bound. -/
inductive Puts (machine : Machine) (frame : Nat) (name : String) (binding : Option String) :
    Except Fault α × Machine → Prop
  | bound {a : α} {after : Machine} {r : Record} (kept : r.binding = binding)
      (typed : r.type ∈ Value.typeNames)
      (store : after.store = machine.store.put frame name (.record r))
      (scope : after.scope = machine.scope) (place : after.place = machine.place) :
      Puts machine frame name binding (.ok a, after)
  | failed {fault : Fault} {after : Machine} (store : after.store = machine.store)
      (scope : after.scope = machine.scope) (place : after.place = machine.place) :
      Puts machine frame name binding (.error fault, after)

theorem bindParameter_puts (machine : Machine) (frame : Nat) (around : Scope) (name : String)
    (value : Value) (binding : Option String) :
    Puts machine frame name binding
      ((bindParameter (frame :: around) name value binding).exec machine) := by
  have ran : (bindParameter (frame :: around) name value binding).exec machine =
      ((machine.store.bindRecord frame name value binding).1,
        { machine with
          console := machine.console.write (machine.store.searchTrace (frame :: around) name)
          store := (machine.store.bindRecord frame name value binding).2 }) :=
    rfl
  rw [ran]
  rcases Store.bindRecord_cases machine.store frame name value binding with
    ⟨r, bound, kept, typed⟩ | ⟨fault, failed⟩
  · rw [bound]
    exact .bound kept typed rfl rfl rfl
  · rw [failed]
    exact .failed rfl rfl rfl

theorem bindParameters_puts (machine : Machine) (function : String) (frame : Nat) (around : Scope)
    (p : Parameter) (args : List Value) :
    Puts machine frame p.name p.binding
      ((bindParameters function (frame :: around) [p] args).exec machine) := by
  have caught (value : Value) :
      Puts machine frame p.name p.binding
        ((do
          try
            let _ ← bindParameter (frame :: around) p.name value p.binding
          catch fault => throw (.badParameter fault.message function)
          return () : Run Unit).exec machine) := by
    have puts := bindParameter_puts machine frame around p.name value p.binding
    simp only [exec_bind, exec_tryCatch, exec_pure]
    generalize (bindParameter (frame :: around) p.name value p.binding).exec machine = ran at puts
    cases puts with
    | bound kept typed store scope place => exact .bound kept typed store scope place
    | failed store scope place => exact .failed store scope place
  by_cases filled : p.default.toValue.truthy = true
  · simp only [bindParameters, filled, ↓reduceIte]
    rw [exec_bind, exec_lift]
    cases p.default.toValue.unwrap with
    | ok default => exact caught _
    | error fault => exact .failed rfl rfl rfl
  · simp only [bindParameters, filled, Bool.false_eq_true, ↓reduceIte]
    exact caught _

end Run

end Scriptlet
