import Scriptlet.Proofs.Evaluation.Operations
import Scriptlet.Proofs.Evaluation.Lockstep
import Scriptlet.Proofs.Evaluation.Scoping

set_option autoImplicit false

/-!
What a call binds. The frame of a call is made before its arguments are evaluated and is empty when
they are, so that it holds the parameters and nothing else when the body begins. A parameter that has a
literal for its default, or none, is bound to its argument or to a fallback; a null that is passed for
it is replaced by the fallback only if that counts as true.
-/

namespace Scriptlet

namespace Value

theorem isOpen_iff {v : Value} : v.isOpen = true ↔ v = .null ∨ v = .str "null" := by
  cases v <;> simp [isOpen, equal, equalNum, num?]

theorem not_isOpen {v : Value} (typed : v.typeName?.isSome = true) (proper : v ≠ .str "null") :
    v.isOpen = false := by
  rw [Bool.eq_false_iff, ne_eq, isOpen_iff]
  rintro (rfl | rfl)
  · cases typed
  · exact proper rfl

end Value

namespace Parameter

/-- A parameter without a default, or with a literal for one. -/
inductive Plain : Parameter → Prop
  | required (name : String) (binding : Option String) : Plain (.mk name binding .missing)
  | optional (name : String) (binding : Option String) (kind : LiteralKind) {v : Value}
      (typed : v.typeName?.isSome = true) : Plain (.mk name binding (.literal kind v))

/-- What a parameter is bound to where no argument is given: the value of its literal, or null. -/
def fallback (p : Parameter) : Value :=
  match p.default with
  | .literal _ v => v
  | _ => .str "null"

/-- What a null that is passed is replaced by. -/
def replacement (p : Parameter) : Value := if p.fallback.truthy then p.fallback else .str "null"

/-- What a parameter is bound to, from the argument at its place. -/
def received (p : Parameter) : Option Value → Value
  | none => p.fallback
  | some v => if v.isOpen then p.replacement else v

variable {p : Parameter}

theorem Plain.typed (plain : p.Plain) : p.fallback.typeName?.isSome = true := by
  cases plain with
  | required name binding => rfl
  | optional name binding kind typed => exact typed

theorem Plain.replacement_typed (plain : p.Plain) : p.replacement.typeName?.isSome = true := by
  unfold replacement
  split
  · exact plain.typed
  · rfl

theorem Plain.filler_eq (plain : p.Plain) :
    ∃ default, p.filler = .ok default ∧ ∀ args, given default args = p.received args.head? := by
  cases plain with
  | required name binding =>
      refine ⟨.null, rfl, fun args => ?_⟩
      cases args with
      | nil => rfl
      | cons v rest =>
          simp only [given, received, List.head?_cons]
          cases v.isOpen <;> rfl
  | @optional name binding kind v typed =>
      refine ⟨v, rfl, fun args => ?_⟩
      cases args with
      | nil =>
          change (if v.isOpen then .str "null" else v) = v
          split
          · rename_i isOpen
            rcases Value.isOpen_iff.mp isOpen with rfl | rfl
            · cases typed
            · rfl
          · rfl
      | cons w rest =>
          simp only [given, received, List.head?_cons]
          cases w.isOpen <;> rfl

theorem given_congr {args args' : List Value} (same : args.head? = args'.head?) (default : Value) :
    given default args = given default args' := by
  cases args with
  | nil =>
      cases args' with
      | nil => rfl
      | cons v rest => cases same
  | cons v rest =>
      cases args' with
      | nil => cases same
      | cons w rest' =>
          cases same
          rfl

end Parameter

/-- The machine after a parameter is bound in the innermost frame of a scope, and its search written. -/
def Machine.hold (machine : Machine) (frame : Nat) (around : Scope) (name : String) (r : Record) :
    Machine :=
  { machine with
    console := machine.console.write (machine.store.searchTrace (frame :: around) name)
    store := machine.store.put frame name (.record r) }

theorem Machine.hold_untraced {machine : Machine} {frame : Nat} {around : Scope}
    (untraced : machine.store.isTraced (frame :: around) = false) (name : String) (r : Record) :
    machine.hold frame around name r =
      { machine with store := machine.store.put frame name (.record r) } := by
  simp [hold, Store.searchTrace_of_untraced untraced, Console.write]

namespace Run

variable {function : String} {frame : Nat} {around : Scope} {p : Parameter}
  {params : List Parameter} {args : List Value} {machine bound : Machine}

/-- A parameter is bound if its value is of a type that variables can hold. -/
theorem exec_bind_ok_iff {v : Value} :
    (p.bind function (frame :: around) v).exec machine = (.ok (), bound) ↔
      ∃ type, v.typeName? = some type ∧
        machine.hold frame around p.name ⟨v, type, p.binding⟩ = bound := by
  have ran : (bindParameter (frame :: around) p.name v p.binding).exec machine =
      ((machine.store.bindRecord frame p.name v p.binding).1,
        { machine with
          console := machine.console.write (machine.store.searchTrace (frame :: around) p.name)
          store := (machine.store.bindRecord frame p.name v p.binding).2 }) :=
    rfl
  cases known : v.typeName? with
  | none =>
      simp [Parameter.bind, exec_tryCatch, ran, Store.bindRecord, Store.recordFor, known]
  | some type =>
      simp [Parameter.bind, exec_tryCatch, ran, Store.bindRecord, Store.recordFor, known,
        Machine.hold]

/-- What binding the first of some parameters takes. -/
theorem exec_bindParameters_cons :
    (bindParameters function (frame :: around) (p :: params) args).exec machine = (.ok (), bound) ↔
      ∃ default type, p.filler = .ok default ∧
        (Parameter.given default args).typeName? = some type ∧
        (bindParameters function (frame :: around) params args.tail).exec
          (machine.hold frame around p.name ⟨Parameter.given default args, type, p.binding⟩) =
            (.ok (), bound) := by
  rw [bindParameters_eq]
  constructor
  · intro ran
    obtain ⟨default, _, lifted, rest⟩ := exec_bind_ok ran
    obtain ⟨filled, rfl⟩ := exec_lift_ok lifted
    obtain ⟨_, between, binds, rest⟩ := exec_bind_ok rest
    obtain ⟨type, known, rfl⟩ := exec_bind_ok_iff.mp binds
    exact ⟨default, type, filled, known, rest⟩
  · rintro ⟨default, type, filled, known, rest⟩
    have binds : (p.bind function (frame :: around) (Parameter.given default args)).exec machine =
        (.ok (), machine.hold frame around p.name ⟨Parameter.given default args, type, p.binding⟩) :=
      exec_bind_ok_iff.mpr ⟨type, known, rfl⟩
    simp only [exec_bind, exec_lift, filled, binds]
    exact rest

/-- Parameters are bound if each of them has a default that can be looked at and a value of a type that
variables can hold. -/
theorem bindParameters_succeeds
    (each : ∀ i p, params[i]? = some p → ∃ default type, p.filler = .ok default ∧
      (Parameter.given default (args.drop i)).typeName? = some type) :
    ∃ bound, (bindParameters function (frame :: around) params args).exec machine =
      (.ok (), bound) := by
  induction params generalizing args machine with
  | nil => exact ⟨machine, rfl⟩
  | cons p params ih =>
      obtain ⟨default, type, filled, known⟩ := each 0 p rfl
      rw [List.drop_zero] at known
      have others : ∀ i q, params[i]? = some q → ∃ default type, q.filler = .ok default ∧
          (Parameter.given default (args.tail.drop i)).typeName? = some type := by
        intro i q place
        rw [List.drop_tail]
        exact each (i + 1) q place
      obtain ⟨bound, rest⟩ := ih others
      exact ⟨bound, exec_bindParameters_cons.mpr ⟨default, type, filled, known, rest⟩⟩

/-- Nothing else is bound or changed. -/
theorem bindParameters_elsewhere
    (ran : (bindParameters function (frame :: around) params args).exec machine = (.ok (), bound))
    {id : Nat} {name : String} (other : id = frame → name ∉ params.map Parameter.name) :
    bound.store.binding? id name = machine.store.binding? id name := by
  induction params generalizing args machine with
  | nil =>
      cases ran
      rfl
  | cons p params ih =>
      obtain ⟨default, type, _, _, rest⟩ := exec_bindParameters_cons.mp ran
      rw [ih rest fun here later => other here (List.mem_cons_of_mem _ later)]
      refine (Store.binding?_put ..).trans (if_neg ?_)
      rintro ⟨_, here, same⟩
      exact other here.symm (same ▸ List.mem_cons_self)

/-- Each parameter is bound to the argument at its place, or else by its default. -/
theorem bindParameters_binding
    (ran : (bindParameters function (frame :: around) params args).exec machine = (.ok (), bound))
    (distinct : (params.map Parameter.name).Nodup) (made : frame < machine.store.frames.size)
    {i : Nat} (place : params[i]? = some p) :
    ∃ default type, p.filler = .ok default ∧
      (Parameter.given default (args.drop i)).typeName? = some type ∧
      bound.store.binding? frame p.name =
        some (.record ⟨Parameter.given default (args.drop i), type, p.binding⟩) := by
  induction params generalizing args machine i with
  | nil => cases place
  | cons q params ih =>
      obtain ⟨first, others⟩ := List.nodup_cons.mp distinct
      obtain ⟨default, type, filled, known, rest⟩ := exec_bindParameters_cons.mp ran
      cases i with
      | zero =>
          cases place
          refine ⟨default, type, filled, known, ?_⟩
          rw [bindParameters_elsewhere rest fun _ => first]
          exact (Store.binding?_put ..).trans (if_pos ⟨made, rfl, rfl⟩)
      | succ i =>
          rw [← List.drop_tail]
          exact ih rest others (by rwa [Machine.hold, Store.size_put]) place

end Run

theorem Frame.putEntry_new {name : String} {binding : Binding} {entries : List (String × Binding)}
    (new : name ∉ entries.map Prod.fst) :
    putEntry name binding entries = entries ++ [(name, binding)] := by
  induction entries with
  | nil => rfl
  | cons e rest ih =>
      rw [List.map_cons, List.mem_cons, not_or] at new
      rw [putEntry, if_neg (Ne.symm new.1), ih new.2, List.cons_append]

/-- The entries of a frame are parameters in their order, each with the argument at its place or its
fallback, the type of that, and its own `let` or `const`. -/
structure Parameter.Held (params : List Parameter) (values : List Value)
    (entries : List (String × Binding)) : Prop where
  names : entries.map Prod.fst = params.map Parameter.name
  each : ∀ (i : Nat) (p : Parameter), params[i]? = some p → ∃ type,
    (values[i]?.getD p.fallback).typeName? = some type ∧
      entries[i]? = some (p.name, .record ⟨values[i]?.getD p.fallback, type, p.binding⟩)

theorem Parameter.Held.cons {p : Parameter} {params : List Parameter} {values : List Value}
    {entries : List (String × Binding)} {type : String} (rest : Held params values.tail entries)
    (known : (values.head?.getD p.fallback).typeName? = some type) :
    Held (p :: params) values
      ((p.name, .record ⟨values.head?.getD p.fallback, type, p.binding⟩) :: entries) := by
  refine ⟨congrArg (p.name :: ·) rest.names, fun i q place => ?_⟩
  cases i with
  | zero =>
      cases place
      rw [← List.head?_eq_getElem?]
      exact ⟨type, known, rfl⟩
  | succ i =>
      rw [← List.getElem?_tail]
      exact rest.each i q place

/-- An argument that can be bound as it is: of a type that variables can hold, and not null. -/
def Value.Proper (v : Value) : Prop := v.typeName?.isSome = true ∧ v ≠ .str "null"

theorem Parameter.Plain.received_proper {p : Parameter} (plain : p.Plain) {args : List Value}
    (proper : ∀ v ∈ args, v.Proper) :
    p.received args.head? = args.head?.getD p.fallback ∧
      (args.head?.getD p.fallback).typeName?.isSome = true := by
  cases args with
  | nil => exact ⟨rfl, plain.typed⟩
  | cons v rest =>
      obtain ⟨typed, notNull⟩ := proper v List.mem_cons_self
      exact ⟨if_neg (by rw [Value.not_isOpen typed notNull]; exact Bool.false_ne_true), typed⟩

namespace Run

variable {function : String} {frame : Nat} {around : Scope} {params : List Parameter}
  {args : List Value} {machine : Machine}

/-- Binding parameters in a frame that is not traced and binds none of their names adds them to it and
does nothing else. -/
theorem exec_bindParameters_fresh {label : Option String} {entries : List (String × Binding)}
    (plain : ∀ p ∈ params, p.Plain) (distinct : (params.map Parameter.name).Nodup)
    (proper : ∀ v ∈ args, v.Proper)
    (there : machine.store.frame? frame = some ⟨label, false, entries⟩)
    (fresh : ∀ p ∈ params, p.name ∉ entries.map Prod.fst) :
    ∃ store added,
      (bindParameters function (frame :: around) params args).exec machine =
        (.ok (), { machine with store }) ∧
      (∀ id ≠ frame, store.frame? id = machine.store.frame? id) ∧
      store.frame? frame = some ⟨label, false, entries ++ added⟩ ∧
      Parameter.Held params args added := by
  induction params generalizing args machine entries with
  | nil =>
      refine ⟨machine.store, [], rfl, fun _ _ => rfl, ?_, rfl, fun i p place => ?_⟩
      · rw [there, List.append_nil]
      · cases place
  | cons p params ih =>
      obtain ⟨first, others⟩ := List.nodup_cons.mp distinct
      have plainFirst := plain p List.mem_cons_self
      obtain ⟨default, filled, given⟩ := plainFirst.filler_eq
      obtain ⟨received, typed⟩ := plainFirst.received_proper proper
      obtain ⟨type, known⟩ := Option.isSome_iff_exists.mp typed
      have new := fresh p List.mem_cons_self
      have untraced : machine.store.isTraced (frame :: around) = false := by
        simp [Store.isTraced, there]
      let r : Record := ⟨args.head?.getD p.fallback, type, p.binding⟩
      let between : Machine :=
        { machine with store := machine.store.put frame p.name (.record r) }
      have there' : between.store.frame? frame =
          some ⟨label, false, entries ++ [(p.name, .record r)]⟩ := by
        rw [Store.frame?_put, if_pos rfl, there, Option.map_some, Frame.put, Frame.putEntry_new new]
      have fresh' : ∀ q ∈ params, q.name ∉ (entries ++ [(p.name, Binding.record r)]).map Prod.fst := by
        intro q later known
        rw [List.map_append, List.mem_append, List.map_singleton, List.mem_singleton] at known
        rcases known with before | same
        · exact fresh q (List.mem_cons_of_mem p later) before
        · exact first (List.mem_map.mpr ⟨q, later, same⟩)
      obtain ⟨store, added, ran, outside, inside, held⟩ :=
        ih (fun q later => plain q (List.mem_cons_of_mem p later)) others
          (fun v later => proper v (List.mem_of_mem_tail later)) there' fresh'
      refine ⟨store, (p.name, .record r) :: added, ?_, fun id other => ?_, ?_, held.cons known⟩
      · refine exec_bindParameters_cons.mpr ⟨default, type, filled, ?_, ?_⟩
        · rw [given, received, known]
        · rw [given, received, Machine.hold_untraced untraced]
          exact ran
      · rw [outside id other]
        exact (Store.frame?_put ..).trans (if_neg (Ne.symm other))
      · rw [inside, List.append_assoc, List.singleton_append]

end Run

theorem Store.entries_eq_nil {store : Store} {id : Nat} {label : Option String} {traced : Bool}
    {entries : List (String × Binding)} (there : store.frame? id = some ⟨label, traced, entries⟩)
    (unbound : ∀ name, store.binding? id name = none) : entries = [] := by
  cases entries with
  | nil => rfl
  | cons e rest =>
      have found := unbound e.1
      simp [binding?, there, Frame.find?] at found

/-- A frame keeps its label whatever is written. -/
theorem Store.Write.frame? {a b : Store} (write : a.Write b) {id : Nat} {label : Option String}
    {traced : Bool} {old : List (String × Binding)} (there : a.frame? id = some ⟨label, traced, old⟩) :
    ∃ entries, b.frame? id = some ⟨label, traced, entries⟩ := by
  cases write with
  | nothing => exact ⟨old, there⟩
  | frame scope label' traced' =>
      have made : id ≠ a.frames.size := by
        rintro rfl
        rw [Store.frame?, Array.getElem?_eq_none (Nat.le_refl _)] at there
        cases there
      exact ⟨old, by rw [frame?_extend, if_neg made, there]⟩
  | name other name binding =>
      rw [frame?_put]
      split
      · exact ⟨Frame.putEntry name binding old, by rw [there]; rfl⟩
      · exact ⟨old, there⟩

theorem Traced.frame? {m m' : Machine} {t : List Event} (traced : Traced m t m') {id : Nat}
    {label : Option String} {listens : Bool} {old : List (String × Binding)}
    (there : m.store.frame? id = some ⟨label, listens, old⟩) :
    ∃ entries, m'.store.frame? id = some ⟨label, listens, entries⟩ := by
  have each := traced.writes.induction
    (fun p => ∃ entries, p.store.frame? id = some ⟨label, listens, entries⟩) _
    (fun _ _ write known => by
      obtain ⟨entries, there⟩ := known
      exact write.frame? there)
    fun _ => ⟨old, there⟩
  exact each m' (List.mem_of_getLast? traced.last)

namespace Run

/-- What a call looks up and evaluates before it begins: the function and the arguments. -/
def prepare (ev : Expr → Run Result) (name : String) (args : List Expr) :
    Run (Value × List Value) := do
  let callee ← evalName name
  let args ← evalArguments ev args
  return (← snapshot callee, args)

theorem evalCall_eq (ev : Expr → Run Result) (name : String) (args : List Expr) :
    evalCall ev name args = (do
      let around ← demandScope "extend"
      let scope ← extend around (some ("call_" ++ name)) false
      let prepared ← prepare ev name args
      call ev prepared.1 scope prepared.2) := by
  simp only [evalCall, prepare, bind_assoc, pure_bind]

theorem prepare_records (fuel : Nat) (name : String) (args : List Expr) :
    Recorded.Records (Recorded.prepare (Recorded.eval fuel) name args)
      (prepare (eval fuel) name args) :=
  Recorded.records_bind (Recorded.records_step _) fun _ =>
    Recorded.records_bind (Recorded.evalArguments_records (Recorded.eval_records fuel) args) fun _ =>
      Recorded.records_bind (Recorded.records_step _) fun _ => Recorded.records_pure _

/-- Runs the body of a function in the scope of its call, leaves the scope and gives the value. -/
def callBody (ev : Expr → Run Result) (scope : Scope) (body : List Expr) : Run Result := do
  let returned ← evalBody ev scope body
  leaveScope
  return .value (← liftM (Value.functionResult returned))

theorem call_of_bound {ev : Expr → Run Result} {serial : Nat} {address name : String}
    {params : List Parameter} {body : List Expr} {scope : Scope} {values : List Value}
    {machine bound : Machine} (few : values.length ≤ params.length)
    (binds : (bindParameters name scope params values).exec machine = (.ok (), bound)) :
    (call ev (.function serial address name params body) scope values).exec machine =
      (callBody ev scope body).exec bound := by
  simp only [call, callBody, Nat.not_lt.mpr few, ↓reduceIte, exec_bind, binds]

/-- The frame of a call is empty after the arguments are evaluated. -/
theorem prepare_leaves_frame {fuel : Nat} {name : String} {args : List Expr}
    {machine ready : Machine} {prepared : Value × List Value}
    (holds : machine.store.Holds machine.scope)
    (ran : (prepare (eval fuel) name args).exec (machine.opened name) = (.ok prepared, ready)) :
    ready.store.frame? machine.store.frames.size = some ⟨some ("call_" ++ name), false, []⟩ := by
  rcases recorded : Recorded.prepare (Recorded.eval fuel) name args (machine.opened name) with
    ⟨outcome, t⟩
  have same : outcome = (.ok prepared, ready) := by
    rw [← ran, ← prepare_records fuel name args, recorded]
  subst same
  have course : Course machine.scope (machine.opened name) t .done ready :=
    (Recorded.prepare_follows (Recorded.eval_follows fuel) name args).course recorded
  have opened : machine.store.Reaches machine.scope (machine.opened name).store :=
    (Store.Change.frame _ _).reaches List.suffix_rfl
  obtain ⟨reached, _⟩ := course.within (holds.later opened) List.suffix_rfl
  have there : (machine.opened name).store.frame? machine.store.frames.size =
      some ⟨some ("call_" ++ name), false, []⟩ :=
    (Store.frame?_extend _ machine.scope ..).trans (if_pos rfl)
  obtain ⟨entries, there'⟩ := course.traced.frame? there
  have made : (machine.opened name).store =
      (machine.store.extend machine.scope (some ("call_" ++ name)) false).2 :=
    rfl
  obtain rfl : entries = [] := Store.entries_eq_nil there' (reached.unused holds made)
  exact there'

/-- What is left of a call once its function and its arguments are known. -/
theorem eval_call_prepared {fuel : Nat} {name : String} {args : List Expr} {callee : Value}
    {values : List Value} {machine ready : Machine}
    (prepared : (prepare (eval fuel) name args).exec (machine.opened name) =
      (.ok (callee, values), ready)) :
    (eval (fuel + 1) (.call name args)).exec machine =
      (call (eval fuel) callee (machine.store.frames.size :: machine.scope) values).exec ready := by
  have inside : machine.scope ≠ [] := by
    intro nowhere
    obtain ⟨_, _, named, _⟩ := exec_bind_ok prepared
    obtain ⟨_, _, demanded, _⟩ := exec_bind_ok named
    simp [demandScope, Machine.opened, nowhere] at demanded
  have extended : (extend machine.scope (some ("call_" ++ name)) false).exec machine =
      (.ok (machine.store.frames.size :: machine.scope), machine.opened name) := rfl
  change (evalCall (eval fuel) name args).exec machine = _
  rw [evalCall_eq]
  simp only [exec_bind, exec_demandScope inside, extended, prepared]

/-- A call binds its parameters exactly. With more arguments than parameters it fails and leaves all as
it was. With no more than that its body begins in a scope whose innermost frame holds the parameters, in
their order and nothing else, each with its argument or its fallback; all other frames are as they were
when the arguments had been evaluated, whatever names they bind. -/
theorem eval_call_binds_parameters {fuel serial : Nat} {name address called : String}
    {args : List Expr} {params : List Parameter} {body : List Expr} {values : List Value}
    {machine ready : Machine}
    (holds : machine.store.Holds machine.scope)
    (prepared : (prepare (eval fuel) name args).exec (machine.opened name) =
      (.ok (.function serial address called params body, values), ready))
    (plain : ∀ p ∈ params, p.Plain) (distinct : (params.map Parameter.name).Nodup)
    (proper : ∀ v ∈ values, v.Proper) :
    (params.length < values.length →
      (eval (fuel + 1) (.call name args)).exec machine =
        (.error (.tooManyArguments called params.length values.length), ready)) ∧
    (values.length ≤ params.length → ∃ store entries,
      (eval (fuel + 1) (.call name args)).exec machine =
        (callBody (eval fuel) (machine.store.frames.size :: machine.scope) body).exec
          { ready with store } ∧
      (∀ id ≠ machine.store.frames.size, store.frame? id = ready.store.frame? id) ∧
      store.frame? machine.store.frames.size = some ⟨some ("call_" ++ name), false, entries⟩ ∧
      Parameter.Held params values entries) := by
  rw [eval_call_prepared prepared]
  constructor
  · intro many
    simp only [call, many, ↓reduceIte, exec_bind, exec_throw]
  · intro few
    obtain ⟨store, entries, binds, outside, inside, held⟩ :=
      exec_bindParameters_fresh plain distinct proper (prepare_leaves_frame holds prepared)
        (fun _ _ => List.not_mem_nil)
    exact ⟨store, entries, call_of_bound few binds, outside, inside, held⟩

/-- A machine with a function of four parameters, of which two have the names of variables. -/
def shadowing : Machine :=
  { Machine.fresh (.ofInput "" false) .none false with
    store := ⟨#[⟨none, false,
      [("a", .record ⟨.str "outside", "string", some "const"⟩),
      ("b", .record ⟨.int 5, "int", some "let"⟩),
      ("f", .function (.function 0 Value.noAddress "f"
        [.mk "a" (some "let") .missing, .mk "b" (some "const") (.int 0),
          .mk "c" (some "let") (.literal .boolean (.str "true")), .mk "d" (some "let") .missing]
        [.ret (.ident "b")]))]⟩]⟩ }

/-- A default of zero is bound as it is. -/
theorem eval_call_binds_parameters_shadowing : ∃ store entries,
    (eval 10 (.call "f" [.int 1])).exec shadowing =
      (callBody (eval 9) [1, 0] [.ret (.ident "b")]).exec { shadowing.opened "f" with store } ∧
    store.frame? 0 = shadowing.store.frame? 0 ∧
    store.frame? 1 = some ⟨some "call_f", false, entries⟩ ∧
    entries[1]? = some ("b", .record ⟨.int 0, "int", some "const"⟩) ∧
    entries.map Prod.fst = ["a", "b", "c", "d"] ∧
    (eval 10 (.call "f" [.int 1, .int 2, .int 3, .int 4, .int 5])).exec shadowing =
      (.error (.tooManyArguments "f" 4 5), shadowing.opened "f") := by
  have holds : shadowing.store.Holds shadowing.scope := ⟨by decide, by decide⟩
  have plain : ∀ p ∈ [Parameter.mk "a" (some "let") .missing, .mk "b" (some "const") (.int 0),
      .mk "c" (some "let") (.literal .boolean (.str "true")), .mk "d" (some "let") .missing],
      p.Plain := by
    simp only [List.forall_mem_cons]
    exact ⟨.required .., .optional _ _ _ rfl, .optional _ _ _ rfl, .required .., by simp⟩
  have proper (values : List Value) (numbers : ∀ v ∈ values, ∃ n, v = .int n) :
      ∀ v ∈ values, v.Proper := by
    intro v given
    obtain ⟨n, rfl⟩ := numbers v given
    exact ⟨rfl, Value.noConfusion⟩
  have one : (prepare (eval 9) "f" [.int 1]).exec (shadowing.opened "f") =
      (.ok (.function 0 Value.noAddress "f" _ _, [.int 1]), shadowing.opened "f") := rfl
  have five : (prepare (eval 9) "f" [.int 1, .int 2, .int 3, .int 4, .int 5]).exec
      (shadowing.opened "f") =
      (.ok (.function 0 Value.noAddress "f" _ _, [.int 1, .int 2, .int 3, .int 4, .int 5]),
        shadowing.opened "f") :=
    rfl
  obtain ⟨store, entries, began, outside, inside, held⟩ :=
    (eval_call_binds_parameters holds one plain (by decide) (proper _ (by simp))).2 (by decide)
  obtain ⟨type, known, second⟩ := held.each 1 _ rfl
  cases known
  refine ⟨store, entries, began, outside 0 (by decide), inside, second, held.names, ?_⟩
  exact (eval_call_binds_parameters holds five plain (by decide) (proper _ (by simp))).1 (by decide)

end Run

namespace Parameter

/-- The parameters for which nulls are passed after some arguments. -/
def passed (params : List Parameter) (given nulls : List Value) : List Parameter :=
  (params.drop given.length).take nulls.length

/-- A parameter is bound to a value in a frame, as the value's type and its own `let` or `const`. -/
def HeldIn (p : Parameter) (store : Store) (frame : Nat) (v : Value) : Prop :=
  ∃ type, v.typeName? = some type ∧
    store.binding? frame p.name = some (.record ⟨v, type, p.binding⟩)

theorem HeldIn.unique {p : Parameter} {store : Store} {frame : Nat} {v w : Value}
    (held : p.HeldIn store frame v) (held' : p.HeldIn store frame w) : v = w := by
  obtain ⟨_, _, bound⟩ := held
  obtain ⟨_, _, bound'⟩ := held'
  rw [bound] at bound'
  cases bound'
  rfl

theorem replacement_eq_fallback {p : Parameter} :
    p.replacement = p.fallback ↔ p.fallback.truthy = true := by
  unfold replacement
  split
  · rename_i truthy
    exact ⟨fun _ => truthy, fun _ => rfl⟩
  · rename_i falsy
    refine ⟨fun same => ?_, fun truthy => absurd truthy falsy⟩
    rw [← same]
    rfl

section Passing

variable {params : List Parameter} {given nulls : List Value} {p : Parameter}

/-- At each place, nulls after the arguments make no difference or are passed for a parameter. -/
theorem passed_cases (given nulls : List Value) {i : Nat} (place : params[i]? = some p) :
    ((given ++ nulls).drop i).head? = (given.drop i).head? ∨
      p ∈ passed params given nulls ∧ (given.drop i).head? = none ∧
        ∃ v ∈ nulls, ((given ++ nulls).drop i).head? = some v := by
  simp only [List.head?_drop]
  by_cases early : i < given.length
  · exact .inl (List.getElem?_append_left early)
  · have after : given.length ≤ i := Nat.le_of_not_lt early
    rw [List.getElem?_append_right after, List.getElem?_eq_none after]
    cases found : nulls[i - given.length]? with
    | none => exact .inl rfl
    | some v =>
        obtain ⟨within, rfl⟩ := List.getElem?_eq_some_iff.mp found
        refine .inr ⟨List.mem_of_getElem? (i := i - given.length) ?_, rfl, _,
          List.getElem_mem within, rfl⟩
        rw [passed, List.getElem?_take_of_lt within, List.getElem?_drop, Nat.add_sub_cancel' after]
        exact place

theorem exists_of_passed (member : p ∈ passed params given nulls) :
    ∃ i, params[i]? = some p ∧ (given.drop i).head? = none ∧
      ∃ v ∈ nulls, ((given ++ nulls).drop i).head? = some v := by
  obtain ⟨j, place⟩ := List.getElem?_of_mem member
  obtain ⟨within, -⟩ := List.getElem?_eq_some_iff.mp place
  rw [passed, List.length_take, List.length_drop] at within
  have short : j < nulls.length := by omega
  rw [passed, List.getElem?_take_of_lt short, List.getElem?_drop] at place
  refine ⟨given.length + j, place, ?_, nulls[j], List.getElem_mem short, ?_⟩
  · rw [List.head?_drop, List.getElem?_eq_none (Nat.le_add_right ..)]
  · rw [List.head?_drop, List.getElem?_append_right (Nat.le_add_right ..), Nat.add_sub_cancel_left,
      List.getElem?_eq_getElem short]

end Passing

end Parameter

namespace Run

variable {params : List Parameter} {given nulls : List Value}

theorem lift_bind_congr {α β : Type} {x : Except Fault α} {k k' : α → Run β}
    (same : ∀ a, x = .ok a → k a = k' a) : (liftM x : Run α) >>= k = (liftM x : Run α) >>= k' := by
  cases x with
  | error fault => rfl
  | ok a => exact same a rfl

/-- Binding parameters looks at the arguments only for what each parameter is given. -/
theorem bindParameters_congr {args args' : List Value}
    (same : ∀ i p default, params[i]? = some p → p.filler = .ok default →
      Parameter.given default (args.drop i) = Parameter.given default (args'.drop i))
    (function : String) (scope : Scope) :
    bindParameters function scope params args = bindParameters function scope params args' := by
  induction params generalizing args args' with
  | nil => rfl
  | cons p params ih =>
      have others : bindParameters function scope params args.tail =
          bindParameters function scope params args'.tail := by
        refine ih fun i q default place filled => ?_
        rw [List.drop_tail, List.drop_tail]
        exact same (i + 1) q default place filled
      rw [bindParameters_eq, bindParameters_eq, others]
      refine lift_bind_congr fun default filled => ?_
      have first := same 0 p default rfl filled
      rw [List.drop_zero, List.drop_zero] at first
      rw [first]

/-- What a parameter holds for which a null is passed, and what it holds where that is left out. -/
theorem given_passed {p : Parameter} (plain : p.Plain) {default : Value}
    (filled : p.filler = .ok default) (null : ∀ v ∈ nulls, v.isOpen = true) {i : Nat}
    (omitted : (given.drop i).head? = none)
    (explicit : ∃ v ∈ nulls, ((given ++ nulls).drop i).head? = some v) :
    Parameter.given default ((given ++ nulls).drop i) = p.replacement ∧
      Parameter.given default (given.drop i) = p.fallback := by
  obtain ⟨default', filled', received⟩ := plain.filler_eq
  obtain rfl : default' = default := by
    rw [filled] at filled'
    cases filled'
    rfl
  obtain ⟨v, member, head⟩ := explicit
  rw [received, received, head, omitted]
  exact ⟨if_pos (null v member), rfl⟩

/-- Passing null for parameters that come after the arguments is leaving them out, if all their
fallbacks count as true. -/
theorem bindParameters_null (null : ∀ v ∈ nulls, v.isOpen = true)
    (plain : ∀ p ∈ Parameter.passed params given nulls, p.Plain)
    (truthy : ∀ p ∈ Parameter.passed params given nulls, p.fallback.truthy = true)
    (function : String) (scope : Scope) :
    bindParameters function scope params (given ++ nulls) =
      bindParameters function scope params given := by
  refine bindParameters_congr (fun i p default place filled => ?_) function scope
  rcases Parameter.passed_cases given nulls place with same | ⟨member, omitted, explicit⟩
  · exact Parameter.given_congr same default
  · obtain ⟨replaced, fallen⟩ := given_passed (plain p member) filled null omitted explicit
    rw [replaced, fallen, Parameter.replacement_eq_fallback]
    exact truthy p member

section Passing

variable {function : String} {frame : Nat} {around : Scope} {machine bound bound' : Machine}

/-- Nulls can be passed where they can be left out. -/
theorem bindParameters_null_succeeds (null : ∀ v ∈ nulls, v.isOpen = true)
    (plain : ∀ p ∈ Parameter.passed params given nulls, p.Plain)
    (distinct : (params.map Parameter.name).Nodup) (made : frame < machine.store.frames.size)
    (ran : (bindParameters function (frame :: around) params given).exec machine = (.ok (), bound)) :
    ∃ bound', (bindParameters function (frame :: around) params (given ++ nulls)).exec machine =
      (.ok (), bound') := by
  refine bindParameters_succeeds fun i p place => ?_
  obtain ⟨default, type, filled, known, _⟩ := bindParameters_binding ran distinct made place
  rcases Parameter.passed_cases given nulls place with same | ⟨member, omitted, explicit⟩
  · exact ⟨default, type, filled, by rwa [Parameter.given_congr same]⟩
  · obtain ⟨replaced, _⟩ := given_passed (plain p member) filled null omitted explicit
    obtain ⟨type', known'⟩ := Option.isSome_iff_exists.mp (plain p member).replacement_typed
    exact ⟨default, type', filled, by rwa [replaced]⟩

/-- Parameters for which nulls are passed hold the replacement, and the fallback if they are left out. -/
theorem heldIn_of_passed (null : ∀ v ∈ nulls, v.isOpen = true) {p : Parameter}
    (plain : p.Plain) (member : p ∈ Parameter.passed params given nulls)
    (distinct : (params.map Parameter.name).Nodup) (made : frame < machine.store.frames.size)
    (ran : (bindParameters function (frame :: around) params given).exec machine = (.ok (), bound))
    (ran' : (bindParameters function (frame :: around) params (given ++ nulls)).exec machine =
      (.ok (), bound')) :
    p.HeldIn bound.store frame p.fallback ∧ p.HeldIn bound'.store frame p.replacement := by
  obtain ⟨i, place, omitted, explicit⟩ := Parameter.exists_of_passed member
  obtain ⟨default, type, filled, known, binding⟩ := bindParameters_binding ran distinct made place
  obtain ⟨default', type', filled', known', binding'⟩ :=
    bindParameters_binding ran' distinct made place
  rw [(given_passed plain filled null omitted explicit).2] at known binding
  rw [(given_passed plain filled' null omitted explicit).1] at known' binding'
  exact ⟨⟨type, known, binding⟩, type', known', binding'⟩

/-- All that no null is passed for is bound alike. -/
theorem binding_of_not_passed
    (distinct : (params.map Parameter.name).Nodup) (made : frame < machine.store.frames.size)
    (ran : (bindParameters function (frame :: around) params given).exec machine = (.ok (), bound))
    (ran' : (bindParameters function (frame :: around) params (given ++ nulls)).exec machine =
      (.ok (), bound'))
    {id : Nat} {name : String}
    (other : id = frame → ∀ p ∈ Parameter.passed params given nulls, p.name ≠ name) :
    bound'.store.binding? id name = bound.store.binding? id name := by
  by_cases parameter : id = frame ∧ name ∈ params.map Parameter.name
  · obtain ⟨rfl, named⟩ := parameter
    obtain ⟨p, member, rfl⟩ := List.mem_map.mp named
    obtain ⟨i, place⟩ := List.getElem?_of_mem member
    obtain ⟨default, type, filled, known, binding⟩ := bindParameters_binding ran distinct made place
    obtain ⟨default', type', filled', known', binding'⟩ :=
      bindParameters_binding ran' distinct made place
    rcases Parameter.passed_cases given nulls place with same | ⟨passed, _⟩
    · rw [filled] at filled'
      cases filled'
      rw [Parameter.given_congr same, known] at known'
      cases known'
      rw [binding, binding', Parameter.given_congr same]
    · exact absurd rfl (other rfl p passed)
  · have outside : id = frame → name ∉ params.map Parameter.name := fun here named =>
      parameter ⟨here, named⟩
    rw [bindParameters_elsewhere ran outside, bindParameters_elsewhere ran' outside]

end Passing

/-- Nulls that are passed for parameters after the arguments are not always the same as leaving these
arguments out. They are if the fallbacks of these parameters all count as true: then the calls are the
same. A parameter whose fallback counts as false is bound to null and not to its fallback, while all else
is bound alike; so the same is bound exactly if there is no such parameter. -/
theorem call_null_agrees_iff (few : given.length + nulls.length ≤ params.length)
    (null : ∀ v ∈ nulls, v.isOpen = true)
    (plain : ∀ p ∈ Parameter.passed params given nulls, p.Plain) :
    ((∀ p ∈ Parameter.passed params given nulls, p.fallback.truthy = true) →
      ∀ ev serial address function body scope,
        call ev (.function serial address function params body) scope (given ++ nulls) =
          call ev (.function serial address function params body) scope given) ∧
    ∀ function frame around (machine bound : Machine), (params.map Parameter.name).Nodup →
      frame < machine.store.frames.size →
      (bindParameters function (frame :: around) params given).exec machine = (.ok (), bound) →
      ∃ bound',
        (bindParameters function (frame :: around) params (given ++ nulls)).exec machine =
          (.ok (), bound') ∧
        (∀ p ∈ Parameter.passed params given nulls, p.HeldIn bound.store frame p.fallback ∧
          p.HeldIn bound'.store frame (if p.fallback.truthy then p.fallback else .str "null")) ∧
        (∀ id name, (id = frame → ∀ p ∈ Parameter.passed params given nulls, p.name ≠ name) →
          bound'.store.binding? id name = bound.store.binding? id name) ∧
        (bound' = bound ↔
          ∀ p ∈ Parameter.passed params given nulls, p.fallback.truthy = true) := by
  constructor
  · intro truthy ev serial address function body scope
    have fits : ¬ params.length < (given ++ nulls).length := by
      rw [List.length_append]
      exact Nat.not_lt.mpr few
    have fits' : ¬ params.length < given.length := by omega
    simp only [call, fits, fits', ↓reduceIte, bindParameters_null null plain truthy]
  · intro function frame around machine bound distinct made ran
    obtain ⟨bound', ran'⟩ := bindParameters_null_succeeds null plain distinct made ran
    have held := fun p member =>
      heldIn_of_passed null (plain p member) member distinct made ran ran'
    refine ⟨bound', ran', held, ?_, ?_⟩
    · intro id name other
      exact binding_of_not_passed distinct made ran ran' other
    · constructor
      · rintro rfl p member
        obtain ⟨fallen, replaced⟩ := held p member
        exact Parameter.replacement_eq_fallback.mp (replaced.unique fallen)
      · intro truthy
        rw [bindParameters_null null plain truthy, ran] at ran'
        cases ran'
        rfl

/-- A machine in a frame that was made for a call. -/
def insideFrame : Machine :=
  { shadowing.opened "f" with scope := [1, 0] }

/-- Of the defaults zero and seven only the second is bound where null is passed. -/
theorem call_null_agrees_iff_zero : ∃ bound bound' : Machine,
    (bindParameters "f" [1, 0] [.mk "a" (some "let") .missing, .mk "b" (some "const") (.int 0),
      .mk "c" (some "let") (.int 7)] [.int 1]).exec insideFrame = (.ok (), bound) ∧
    (bindParameters "f" [1, 0] [.mk "a" (some "let") .missing, .mk "b" (some "const") (.int 0),
      .mk "c" (some "let") (.int 7)] [.int 1, .str "null", .null]).exec insideFrame =
        (.ok (), bound') ∧
    (Parameter.mk "b" (some "const") (.int 0)).HeldIn bound.store 1 (.int 0) ∧
    (Parameter.mk "b" (some "const") (.int 0)).HeldIn bound'.store 1 (.str "null") ∧
    (Parameter.mk "c" (some "let") (.int 7)).HeldIn bound'.store 1 (.int 7) ∧ bound' ≠ bound ∧
    call (eval 9)
        (.function 0 Value.noAddress "f" [.mk "c" (some "let") (.int 7)] [.ret (.ident "c")]) [1, 0]
        [.str "null"] =
      call (eval 9)
        (.function 0 Value.noAddress "f" [.mk "c" (some "let") (.int 7)] [.ret (.ident "c")]) [1, 0]
        [] := by
  let params : List Parameter := [.mk "a" (some "let") .missing, .mk "b" (some "const") (.int 0),
    .mk "c" (some "let") (.int 7)]
  have null : ∀ v ∈ [Value.str "null", .null], v.isOpen = true := by decide
  have plain : ∀ p ∈ Parameter.passed params [.int 1] [.str "null", .null], p.Plain := by
    simp only [Parameter.passed, params, List.length_cons, List.length_nil, List.drop_succ_cons,
      List.drop_zero, List.take_succ_cons, List.take_zero, List.forall_mem_cons]
    exact ⟨.optional _ _ _ rfl, .optional _ _ _ rfl, by simp⟩
  obtain ⟨_, bound, ran⟩ :=
    exec_of_isOk (bindParameters "f" [1, 0] params [.int 1]) insideFrame (by decide +kernel)
  obtain ⟨bound', ran', held, _, same⟩ :=
    (call_null_agrees_iff (by decide) null plain).2 "f" 1 [0] insideFrame bound (by decide) (by decide)
      ran
  obtain ⟨kept, lost⟩ := held _ List.mem_cons_self
  obtain ⟨_, found⟩ := held _ (List.mem_cons_of_mem _ List.mem_cons_self)
  refine ⟨bound, bound', ran, ran', kept, lost, found, fun equal => ?_, ?_⟩
  · exact absurd (same.mp equal _ List.mem_cons_self) (by decide)
  · have plain' : ∀ p ∈ Parameter.passed [.mk "c" (some "let") (.int 7)] [] [.str "null"], p.Plain :=
      List.forall_mem_singleton.mpr (.optional _ _ _ rfl)
    exact (call_null_agrees_iff (by decide) (by decide) plain').1
      (List.forall_mem_singleton.mpr rfl) ..

/-- A default of zero is lost where null is passed. -/
theorem call_null_loses_zero :
    ((call (eval 9)
      (.function 0 Value.noAddress "f" [.mk "a" (some "let") (.int 0)] [.ret (.ident "a")]) [1, 0]
      []).exec insideFrame).1 = .ok (.value (.int 0)) ∧
    ((call (eval 9)
      (.function 0 Value.noAddress "f" [.mk "a" (some "let") (.int 0)] [.ret (.ident "a")]) [1, 0]
      [.str "null"]).exec insideFrame).1 = .ok (.value (.str "null")) := by
  exact ⟨rfl, rfl⟩

end Run

end Scriptlet
