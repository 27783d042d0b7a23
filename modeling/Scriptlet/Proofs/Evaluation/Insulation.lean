import Scriptlet.Proofs.Evaluation.Pairing
import Scriptlet.Proofs.Evaluation.Parameters
import Scriptlet.Proofs.Evaluation.Simulation

set_option autoImplicit false

/-!
A call is insulated from its callers if they bind no name that it looks for outside of its own frames.
The call at the top level of one machine and the call from inside of callers on another are linked by the
frame of the top level and by the frames that the call makes itself (`Link.enclosing`), and linked runs
come out alike (`eval_call_insulated`). The functions of the machines need to correspond, but they do not
need to have the same numbers.
-/

namespace Scriptlet

namespace Recorded

/-- What is recorded of a computation is recorded of it after another one. -/
theorem mem_bind {α β : Type} {r : Recorded α} {k : α → Recorded β} {m n : Machine} {a : α}
    {event : Event} (ran : (r m).1 = (.ok a, n)) (sees : event ∈ (k a n).2) :
    event ∈ ((r >>= k) m).2 := by
  rcases went : r m with ⟨outcome, events⟩
  rw [went] at ran
  obtain rfl : outcome = (.ok a, n) := ran
  rw [bind_ok went]
  exact List.mem_append_right _ sees

/-- What is recorded of the call of a function is recorded of the expression that calls it. -/
theorem mem_evalCall {fuel : Nat} {name : String} {args : List Expr} {machine : Machine} {f : Value}
    {values : List Value} {event : Event} (inside : machine.scope ≠ [])
    (named : (Run.evalName name).exec (machine.opened name) = (.ok (.value f), machine.opened name))
    (given : (Run.evalArguments (Run.eval fuel) args).exec (machine.opened name) =
      (.ok values, machine.opened name))
    (sees : event ∈ (call (eval fuel) f (machine.store.frames.size :: machine.scope) values
      (machine.opened name)).2) :
    event ∈ (eval (fuel + 1) (.call name args) machine).2 := by
  have given' := (evalArguments_records (eval_records fuel) args (machine.opened name)).trans given
  refine mem_bind (Run.exec_demandScope inside "extend") ?_
  refine mem_bind (a := machine.store.frames.size :: machine.scope) (n := machine.opened name) rfl ?_
  exact mem_bind named (mem_bind given' (mem_bind rfl sees))

end Recorded

namespace Run

/-- A function is found by its name, also when the frame of a call was made. -/
theorem exec_evalName_opened {machine : Machine} {name : String} {id : Nat} {f : Value}
    (untraced : machine.store.isTraced machine.scope = false)
    (found : machine.store.get machine.scope name = .ok (id, .function f)) :
    (evalName name).exec (machine.opened name) = (.ok (.value f), machine.opened name) := by
  have inside : (machine.opened name).scope ≠ [] := by
    intro nowhere
    rw [show machine.scope = [] from nowhere] at found
    cases found
  have untraced' : (machine.opened name).store.isTraced machine.scope = false :=
    Store.untraced_extend untraced machine.scope _
  have found' : (machine.opened name).store.get machine.scope name = .ok (id, .function f) := by
    rw [← found]
    exact Store.get_extend machine.store machine.scope machine.scope _ false name
  have demanded : (demandScope "get_var").exec (machine.opened name) =
      (.ok machine.scope, machine.opened name) :=
    exec_demandScope inside "get_var"
  have unwritten : (machine.opened name).console.write "" = (machine.opened name).console := by
    simp [Console.write]
  rw [evalName, exec_bind, demanded]
  simp only [exec_bind, exec_lookup, found', Store.searchTrace_of_untraced untraced', unwritten,
    exec_pure]

/-- A call by the name of a function, with arguments that change nothing. -/
theorem exec_eval_call {fuel : Nat} {machine : Machine} {name : String} {args : List Expr}
    {values : List Value} {f : Value}
    (named : (evalName name).exec (machine.opened name) = (.ok (.value f), machine.opened name))
    (given : (evalArguments (eval fuel) args).exec (machine.opened name) =
      (.ok values, machine.opened name)) :
    (eval (fuel + 1) (.call name args)).exec machine =
      (Recorded.call (Recorded.eval fuel) f (machine.store.frames.size :: machine.scope) values
        (machine.opened name)).1 := by
  have prepared : (prepare (eval fuel) name args).exec (machine.opened name) =
      (.ok (f, values), machine.opened name) := by
    rw [prepare]
    simp only [exec_bind, named, given, exec_snapshot, Result.snapshot, exec_pure]
  rw [eval_call_prepared prepared]
  exact (Recorded.call_records (Recorded.eval_records fuel) f _ values _).symm

end Run

variable {m m' : Machine} {p : Pairing m m'} {callers : Scope} {shared : String → Prop}

/-- The call of a function is made at the top level of one machine, and from inside of callers on another
that has the same there. No frame that they see is traced, and they have the same left to read. Functions
that correspond are the same and lie at the same addresses. -/
structure Pairing.SameTop (p : Pairing m m') (callers : Scope) : Prop where
  scope : m.scope = [p.frame]
  scope' : m'.scope = callers ++ [p.frame']
  holds' : m'.store.Holds m'.scope
  bindings : ∀ name, (m.store.binding? p.frame name).map (Binding.renumber p.left) =
    (m'.store.binding? p.frame' name).map (Binding.renumber p.right)
  untraced : ∀ i ∈ m.scope, m.store.isTraced [i] = false
  untraced' : ∀ i ∈ m'.scope, m'.store.isTraced [i] = false
  input : m.console.input = m'.console.input
  interrupts : m.console.interrupts = m'.console.interrupts
  addresses : ∀ t, m.host.address (m.serial + t) = m'.host.address (m'.serial + t)

/-- The scopes from which the call is made are not traced. -/
theorem Pairing.SameTop.silent (same : p.SameTop callers) : m.store.isTraced m.scope = false := by
  rw [same.scope]
  exact same.untraced _ (by simp [same.scope])

theorem Pairing.SameTop.silent' (same : p.SameTop callers) : m'.store.isTraced m'.scope = false := by
  have untraced := same.untraced'
  rw [same.scope'] at untraced ⊢
  cases callers with
  | nil => exact untraced _ (by simp)
  | cons k outer => exact untraced k List.mem_cons_self

/-- The callers are neither the top level nor frames that are yet to be made. -/
theorem Pairing.SameTop.apart (same : p.SameTop callers) {i j : Nat} (shares : p.Shares i j) :
    j ∉ callers := by
  intro sees
  have made : j < m'.store.frames.size := same.holds'.made j (by simp [same.scope', sees])
  have nested := same.holds'.nested
  rw [same.scope', List.pairwise_append] at nested
  rcases shares with ⟨-, rfl⟩ | ⟨t, -, rfl⟩
  · exact Nat.lt_irrefl _ (nested.2.2 _ sees _ List.mem_cons_self)
  · exact Nat.not_lt.mpr (Nat.le_add_right _ t) made

/-- What shows of two runs is the same: the value or the fault, what was written, what is left to read
and the top level. -/
structure Pairing.SameEffect (p : Pairing m m') (o o' : Except Fault Result × Machine) : Prop where
  outcome : Outcomes (fun r r' => ∃ v w, r = .value v ∧ r' = .value w ∧
    v.renumber p.left = w.renumber p.right) o.1 o'.1
  output : ∃ text, o.2.console.output = m.console.output ++ text ∧
    o'.2.console.output = m'.console.output ++ text
  input : o.2.console.input = o'.2.console.input
  bindings : ∀ name, (o.2.store.binding? p.frame name).map (Binding.renumber p.left) =
    (o'.2.store.binding? p.frame' name).map (Binding.renumber p.right)

/-- The functions of a frame that have shared names look for shared names only, besides their own
parameters. -/
def Store.Closed (store : Store) (frame : Nat) (shared : String → Prop) : Prop :=
  ∀ name serial address called params body, shared name →
    store.binding? frame name = some (.function (.function serial address called params body)) →
      Expr.BodyFits (fun _ => True) Value.Unnumbered shared params body

/-- No frame of a scope binds a shared name. -/
def Store.Clear (store : Store) (scope : Scope) (shared : String → Prop) : Prop :=
  ∀ k ∈ scope, ∀ name, shared name → ¬ store.Binds k name

namespace Link

/-- Two linked machines that have certain scopes at hand. -/
structure Standing (link : Link) (s t : Scope) (chain : Chain) (n n' : Machine) : Prop where
  linked : link.Machines chain n n'
  scope : n.scope = s
  scope' : n'.scope = t

instance {link : Link} {s t : Scope} : link.Steady (link.Standing s t) where
  machines stands := stands.linked
  change stands linked _ left right :=
    ⟨linked, left.1.trans stands.scope, right.1.trans stands.scope'⟩

theorem agree_leave {link : Link} {chain : Chain} {n n' : Machine}
    (linked : link.Machines chain n n') (inside : n.scope ≠ []) (inside' : n'.scope ≠ []) :
    link.Agree chain n link.Machines Equal (Run.leaveScope.exec n) (Run.leaveScope.exec n') := by
  rw [Run.exec_leaveScope, Run.exec_leaveScope, if_neg inside, if_neg inside']
  exact .ok ⟨.refl chain n.store, Nat.le_refl _⟩ { linked with } rfl

/-- A call at the top level of a machine, and from inside of callers on another one. It looks for shared
names outside of its frames, and the frames of the callers are passed by. -/
def enclosing (same : p.SameTop callers) (shared : String → Prop) : Link :=
  { between p with
    known := shared
    hidden := m.store.binding?
    hidden' := m'.store.binding?
    finds := False
    old := m.store.frames.size
    enclosed := True
    passed := (· ∈ callers)
    partner_passed := same.apart
    known_of_finds := known_of_none }

section Enclosing

variable (same : p.SameTop callers)
include same

/-- The top level is not of the call's own. -/
theorem not_own : ¬ (enclosing same shared).Own p.frame := fun own => Nat.not_lt.mpr own.2 p.made

theorem enclosing_stores (clear : m'.store.Clear callers shared)
    (closed : m.store.Closed p.frame shared) :
    (enclosing same shared).Stores m.serial (fun _ => none) m.store m'.store where
  frames := by
    have silent : m.store.isTraced [p.frame] = false := same.untraced _ (by simp [same.scope])
    have silent' : m'.store.isTraced [p.frame'] = false := same.untraced' _ (by simp [same.scope'])
    refine frames_shared id (silent.trans silent'.symm) (fun own => absurd own (not_own same)) ?_ ?_
    · intro traced
      exact absurd (silent.symm.trans traced) Bool.false_ne_true
    · intro name _
      refine rel_bound_iff.mpr ?_
      rintro _ _ ⟨rfl, rfl⟩
      exact same.bindings name
  functions := by
    rintro i j name f (⟨rfl, rfl⟩ | ⟨t, rfl, rfl⟩) counts bound serial address called params body rfl
    · have known := counts.resolve_right (not_own same)
      exact (closed name serial address called params body known bound).mono
        (fun _ _ => Or.inr trivial) (fun _ => fixed_of_unnumbered) fun _ => Or.inl
    · have beyond := Store.lt_size_of_binds (Option.isSome_of_eq_some bound)
      exact absurd beyond (Nat.not_lt.mpr (Nat.le_add_right _ t))
  fresh t := Or.inr ⟨t, rfl, rfl⟩
  hidden _ _ _ := rfl
  hidden' _ _ _ _ := rfl
  clear j name passed known := clear j passed name known
  made i s before := by cases before
  old := Nat.le_refl _

/-- When the frames of the call are made, the machines are linked. -/
theorem enclosing_machines (clear : m'.store.Clear callers shared)
    (closed : m.store.Closed p.frame shared) (name : String) :
    (enclosing same shared).Machines (Chain.extend (fun _ => none) m.store.frames.size m.scope)
      (m.opened name) (m'.opened name) where
  stores := (enclosing_stores same clear closed).extend m.scope m'.scope _
  input := same.input
  interrupts := same.interrupts
  output := ⟨"", String.append_empty.symm, String.append_empty.symm⟩
  supply := by
    rintro t _ _ ⟨rfl, rfl⟩
    exact p.later t
  addresses := same.addresses
  files := False.elim
  encode := False.elim

/-- Around the frame of the call is the top level, and in the second machine the callers before it. -/
theorem enclosing_scopes :
    (enclosing same shared).Scopes (Chain.extend (fun _ => none) m.store.frames.size m.scope)
      (m.store.frames.size :: m.scope) (m'.store.frames.size :: m'.scope) := by
  rw [same.scope, same.scope']
  refine .cons (Or.inr ⟨0, rfl, rfl⟩) (fun _ => if_pos rfl) (fun _ _ own => ⟨own.1, Nat.le_refl _⟩)
    (Or.inr ⟨⟨trivial, Nat.le_refl _⟩, ?_, fun _ sees => sees⟩) ?_
  · exact List.forall_mem_singleton.mpr (not_own same)
  · exact Scopes.nil.inner (Or.inl ⟨rfl, rfl⟩) (fun own => absurd own (not_own same))
      (List.forall_mem_nil _)

theorem enclosing_each {n : Nat} {values values' : List Value}
    (each : List.Forall₂ (fun v w => v.renumber p.left = w.renumber p.right) values values') :
    List.Forall₂ ((enclosing same shared).Same n) values values' := by
  refine each.imp fun v w equal => ?_
  rintro _ _ ⟨rfl, rfl⟩
  exact equal

/-- Linked machines have the same at the top level. Names that are not shared stay what they were. -/
theorem enclosing_bindings {chain : Chain} {n n' : Machine}
    (linked : (enclosing same shared).Machines chain n n') (name : String) :
    (n.store.binding? p.frame name).map (Binding.renumber p.left) =
      (n'.store.binding? p.frame' name).map (Binding.renumber p.right) := by
  by_cases known : shared name
  · exact rel_bound_iff.mp (linked.stores.binding (Or.inl ⟨rfl, rfl⟩) (Or.inl known)) _ _ ⟨rfl, rfl⟩
  · have foreign (i : Nat) (partners : (enclosing same shared).partners i p.frame') :
        ¬ (enclosing same shared).Own i := by
      obtain rfl : i = p.frame :=
        ((enclosing same shared).partner_iff partners (Or.inl ⟨rfl, rfl⟩)).mpr rfl
      exact not_own same
    rw [linked.stores.hidden p.frame name fun counts => counts.elim known (not_own same),
      linked.stores.hidden' p.frame' name known foreign]
    exact same.bindings name

theorem sameEffect_of_agree {chain : Chain} {start : Machine} {o o' : Except Fault Result × Machine}
    (agree : (enclosing same shared).Agree chain start (enclosing same shared).Machines
      (enclosing same shared).SameValue o o') : p.SameEffect o o' := by
  cases agree with
  | ok later linked result =>
      obtain ⟨v, w, rfl, rfl, equal⟩ := result
      exact ⟨.ok ⟨v, w, rfl, rfl, equal _ _ ⟨rfl, rfl⟩⟩, linked.output, linked.input,
        enclosing_bindings same linked⟩
  | error later linked =>
      exact ⟨.error _, linked.output, linked.input, enclosing_bindings same linked⟩

end Enclosing

end Link

namespace Pairing.SameTop

variable {serial serial' fuel : Nat} {address called : String} {params : List Parameter}
  {body : List Expr} {values values' : List Value} (same : p.SameTop callers)
  (clear : m'.store.Clear callers shared) (closed : m.store.Closed p.frame shared)
  (each : List.Forall₂ (fun v w => v.renumber p.left = w.renumber p.right) values values')
  (name : String)
include same clear closed each

/-- The call of a function in frames that were made for it, inside which no function without a body is
called. -/
theorem callFunction (reach : Expr.BodyFits (fun _ => True) Value.Unnumbered shared params body)
    (full : ∀ event ∈ (Recorded.call (Recorded.eval fuel) (.function serial address called params body)
      (m.store.frames.size :: m.scope) values (m.opened name)).2, event.isHollow = false) :
    p.SameEffect
      (Recorded.call (Recorded.eval fuel) (.function serial address called params body)
        (m.store.frames.size :: m.scope) values (m.opened name)).1
      (Recorded.call (Recorded.eval fuel) (.function serial' address called params body)
        (m'.store.frames.size :: m'.scope) values' (m'.opened name)).1 := by
  let link := Link.enclosing same shared
  have linked := Link.enclosing_machines same clear closed name
  have fits : Expr.BodyFits link.Admits link.Fixed (link.Knows (m.opened name).store m.scope) params
      body :=
    reach.mono (fun _ _ => Or.inr trivial) (fun _ => Link.fixed_of_unnumbered) fun _ => Or.inl
  have each' : List.Forall₂ (link.Same (m.opened name).serial) values values' :=
    Link.enclosing_each same each
  have leave {chain : Chain} {n n' : Machine} (abreast : link.Abreast false
      (m.store.frames.size :: m.scope) (m'.store.frames.size :: m'.scope) chain n n') :
      link.Agree chain n link.Machines Link.Equal (Run.leaveScope.exec n) (Run.leaveScope.exec n') := by
    obtain ⟨here, here'⟩ := abreast.hand.here trivial
    exact Link.agree_leave abreast.toMachines (by simp [here]) (by simp [here'])
  exact Link.sameEffect_of_agree same (Link.accord_callFunction (Link.eval_follows link fuel) linked
    (Link.enclosing_scopes same) (fun _ => ⟨trivial, Nat.le_refl _⟩) fits each'
    (fun _ enclosed => absurd trivial enclosed) (fun _ => leave) fun _ => full)

/-- A function without a body only binds its parameters, and then leaves the scope of its caller. -/
theorem callHollow (reach : ∀ q ∈ params, q.default.toValue.Unnumbered) :
    p.SameEffect
      (Recorded.call (Recorded.eval fuel) (.function serial address called params [])
        (m.store.frames.size :: m.scope) values (m.opened name)).1
      (Recorded.call (Recorded.eval fuel) (.function serial' address called params [])
        (m'.store.frames.size :: m'.scope) values' (m'.opened name)).1 := by
  let link := Link.enclosing same shared
  have linked := Link.enclosing_machines same clear closed name
  have each' : List.Forall₂ (link.Same (m.opened name).serial) values values' :=
    Link.enclosing_each same each
  have named : ∀ q ∈ params, link.Counts m.store.frames.size q.name ∧ link.Fixed q.default.toValue :=
    fun q has => ⟨Or.inr ⟨trivial, Nat.le_refl _⟩, Link.fixed_of_unnumbered (reach q has)⟩
  apply Link.sameEffect_of_agree same
  rw [Recorded.call_records (Recorded.eval_records fuel),
    Recorded.call_records (Recorded.eval_records fuel)]
  simp only [Run.call, each.length_eq, Run.evalBody, pure_bind]
  by_cases many : params.length < values'.length
  · simp only [many, ↓reduceIte]
    exact .error (.refl _ _) linked
  · simp only [many, ↓reduceIte]
    have stands : link.Standing m.scope m'.scope _ (m.opened name) (m'.opened name) := ⟨linked, rfl, rfl⟩
    apply Link.Agree.bind_equal (Link.agree_bindParameters stands (Link.enclosing_scopes same) named each'
      called)
    rintro _ _ n n' _ ⟨⟨linked, scope, scope'⟩, -⟩
    have inside : n.scope ≠ [] := by simp [scope, same.scope]
    have inside' : n'.scope ≠ [] := by simp [scope', same.scope']
    apply Link.Agree.bind_equal (Link.agree_leave linked inside inside')
    intro _ _ n n' _ linked
    apply Link.Agree.bind (Link.agree_lift linked (Link.same_functionResult .none))
    intro _ v w n n' _ linked equal
    exact Link.agree_pure linked ⟨v, w, rfl, rfl, equal⟩

end Pairing.SameTop

namespace Run

/-- The frame of a top level, with functions that have numbers from a given one on: `e` has no body, `f`
calls it only for the argument 1, `g` has a variable of its own, `h` calls `e` and then looks for its
parameter, and `q` makes a function. -/
def topFrame (before : Nat) (traced : Bool) : Frame :=
  let n := Parameter.mk "n" (some "let") .missing
  let function (t : Nat) (name : String) (params : List Parameter) (body : List Expr) :=
    (name, Binding.function (.function (before + t) Value.noAddress name params body))
  ⟨none, traced,
    [("k", .record ⟨.int 1, "int", some "let"⟩),
      function 0 "e" [] [],
      function 1 "f" [n]
        [.conditional "if" (.binary "==" (.ident "n") (.int 1)) [.call "e" []] none,
          .ret (.binary "+" (.ident "n") (.ident "k"))],
      function 2 "g" [] [.assign (some "let") "x" (.int 1), .ret (.ident "x")],
      function 3 "h" [n] [.ret (.binary "==" (.call "e" []) (.ident "n"))],
      function 4 "q" [] [.ret (.define "r" [] [])]]⟩

/-- A machine with a top level, inside of calls with the given frames. -/
def calledFrom (before : Nat) (address : String) (traced : Bool) (callers : List Frame) : Machine :=
  { Machine.fresh (.ofInput "" false) .none false { Host.plain with address := fun _ => address } with
    store := ⟨(topFrame before traced :: callers).toArray⟩
    scope := (List.range (callers.length + 1)).reverse
    serial := before + 5 }

/-- The frame of a caller that has a variable. -/
def callerFrame (name : String) : Frame :=
  ⟨some "call_c", false, [(name, .record ⟨.int 2, "int", some "let"⟩)]⟩

/-- Three more functions were made before on the second machine. -/
def shiftedPairing (callers : List Frame) :
    Pairing (calledFrom 0 "" false []) (calledFrom 3 "" false callers) where
  frame := 0
  frame' := 0
  left := (· + 3)
  right := id
  left_injective := fun i j same => Nat.add_right_cancel same
  right_injective := Function.injective_id
  later t := by
    change 5 + t + 3 = 8 + t
    omega
  made := Nat.one_pos
  made' := Nat.succ_pos _

end Run

end Scriptlet
