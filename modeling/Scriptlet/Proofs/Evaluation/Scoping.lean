import Scriptlet.Proofs.Evaluation.Course

set_option autoImplicit false

/-!
Scope discipline. A course changes only frames of the scope it is at home in and frames that it makes
itself; and where no function without a body is called it ends in the scope it began in, with no new
names in the frames around.
-/

namespace Scriptlet

namespace Store

variable {home around : Scope} {a b c : Store} {frame : Nat}

/-- A store goes on to a later one: names stay bound, and of the frames that were there only those of a
scope change. -/
structure Reaches (home : Scope) (a b : Store) : Prop where
  size : a.frames.size ≤ b.frames.size
  names : ∀ id name, a.Binds id name → b.Binds id name
  outside : ∀ id < a.frames.size, id ∉ home → ∀ name, b.binding? id name = a.binding? id name

theorem Reaches.refl (home : Scope) (a : Store) : Reaches home a a :=
  ⟨Nat.le_refl _, fun _ _ bound => bound, fun _ _ _ _ => rfl⟩

theorem Reaches.trans (first : Reaches home a b) (second : Reaches home b c) : Reaches home a c := by
  refine ⟨Nat.le_trans first.size second.size, fun id name bound => ?_, fun id made out name => ?_⟩
  · exact second.names id name (first.names id name bound)
  · rw [second.outside id (Nat.lt_of_lt_of_le made first.size) out name,
      first.outside id made out name]

/-- What happens in the scope of a call concerns its new frame and the frames around. -/
theorem Reaches.inner (first : Reaches home a b) (within : around <:+ home)
    (fresh : a.frames.size ≤ frame) (second : Reaches (frame :: around) b c) :
    Reaches home a c := by
  refine ⟨Nat.le_trans first.size second.size, fun id name bound => ?_, fun id made out name => ?_⟩
  · exact second.names id name (first.names id name bound)
  · have apart : id ∉ frame :: around := by
      intro inside
      rcases List.mem_cons.mp inside with rfl | inside
      · exact absurd made (Nat.not_lt.mpr fresh)
      · exact out (within.mem inside)
    rw [second.outside id (Nat.lt_of_lt_of_le made first.size) apart name,
      first.outside id made out name]

theorem reaches_put {id : Nat} {name : String} {binding : Binding} (inside : id ∈ home) :
    Reaches home a (a.put id name binding) := by
  refine ⟨Nat.le_of_eq (size_put ..).symm, fun _ _ bound => binds_put.mpr (Or.inl bound), ?_⟩
  intro other _ out wanted
  rw [binding?_put, if_neg]
  rintro ⟨_, rfl, _⟩
  exact out inside

/-- A frame is not around itself. -/
theorem Holds.not_mem_outer {store : Store} (holds : store.Holds (frame :: around)) :
    frame ∉ around :=
  fun again => Nat.lt_irrefl _ (List.rel_of_pairwise_cons holds.nested again)

theorem Change.reaches {scope : Scope} (change : Change scope a b) (within : scope <:+ home) :
    Reaches home a b := by
  cases change with
  | nothing => exact .refl home a
  | frame label traced =>
      refine ⟨by simp, fun id name bound => ?_, fun id _ _ name => binding?_extend ..⟩
      rwa [Binds, binding?_extend]
  | reassign seen _ _ _ _ => exact reaches_put (within.mem seen)
  | define innermost _ _ => exact reaches_put (within.mem (innermost ▸ List.mem_cons_self))

/-- Names are bound in the innermost frame only. -/
theorem Change.binds_outer {scope : Scope} (change : Change scope a b) (holds : a.Holds scope) :
    ∀ id ∈ scope.tail, ∀ name, b.Binds id name → a.Binds id name := by
  intro id outer name known
  cases change with
  | nothing => exact known
  | frame label traced => rwa [Binds, binding?_extend] at known
  | reassign seen bound _ _ _ =>
      rcases binds_put.mp known with before | ⟨_, rfl, rfl⟩
      · exact before
      · rw [Binds, bound]
        rfl
  | define innermost _ _ =>
      rcases binds_put.mp known with before | ⟨_, rfl, rfl⟩
      · exact before
      · subst innermost
        exact absurd outer (holds.not_mem_outer)

/-- The frames of a scope are still there later, and a new frame fits inside. -/
theorem Holds.inner (holds : a.Holds home) (reaches : Reaches home a b) (within : around <:+ home)
    (fresh : a.frames.size ≤ frame) (made : frame < b.frames.size) : b.Holds (frame :: around) := by
  refine ⟨?_, List.pairwise_cons.mpr ⟨?_, holds.nested.sublist within.sublist⟩⟩
  · intro id inside
    rcases List.mem_cons.mp inside with rfl | inside
    · exact made
    · exact Nat.lt_of_lt_of_le (holds.made id (within.mem inside)) reaches.size
  · intro id inside
    exact Nat.lt_of_lt_of_le (holds.made id (within.mem inside)) fresh

/-- A frame that was made for a call stays empty while the scope around it is at work. -/
theorem Reaches.unused {label : Option String} {traced : Bool} {scope : Scope} (holds : a.Holds home)
    (made : b = (a.extend scope label traced).2) (reaches : Reaches home b c) (name : String) :
    c.binding? a.frames.size name = none := by
  have fresh : a.frames.size ∉ home := fun old => Nat.lt_irrefl _ (holds.made _ old)
  have room : a.frames.size < b.frames.size := by simp [made]
  rw [reaches.outside _ room fresh, made, binding?_extend, binding?_of_size_le (Nat.le_refl _)]

theorem Holds.later (holds : a.Holds home) (reaches : Reaches home a b) : b.Holds home :=
  ⟨fun id inside => Nat.lt_of_lt_of_le (holds.made id inside) reaches.size, holds.nested⟩

end Store

namespace Bound

variable {frame : Nat} {params : List Parameter} {m m' : Machine} {t : List Event}

theorem scope_eq (bound : Bound frame params m t m') : m'.scope = m.scope := by
  induction bound with
  | nil => rfl
  | bind _ _ _ scope _ _ ih => exact ih.trans scope

theorem size_eq (bound : Bound frame params m t m') :
    m'.store.frames.size = m.store.frames.size := by
  induction bound with
  | nil => rfl
  | bind _ _ store _ _ _ ih => rw [ih, store, Store.size_put]

/-- Binding parameters concerns one frame. -/
theorem reaches (bound : Bound frame params m t m') (around : Scope) :
    m.store.Reaches (frame :: around) m'.store := by
  induction bound with
  | nil => exact .refl _ _
  | @bind p params m m₁ m₂ t r kept typed store scope _ rest ih =>
      refine .trans ?_ ih
      rw [store]
      exact Store.reaches_put List.mem_cons_self

theorem binding?_other (bound : Bound frame params m t m') {id : Nat} (other : id ≠ frame)
    {name : String} : m'.store.binding? id name = m.store.binding? id name := by
  induction bound with
  | nil => rfl
  | bind _ _ store _ _ _ ih =>
      rw [ih, store, Store.binding?_put, if_neg (fun here => other here.2.1.symm)]

/-- New names in the frame are those of parameters. -/
theorem binds_frame (bound : Bound frame params m t m') {name : String}
    (known : m'.store.Binds frame name) :
    m.store.Binds frame name ∨ name ∈ params.map Parameter.name := by
  induction bound with
  | nil => exact Or.inl known
  | @bind p params m m₁ m₂ t r kept typed store scope _ rest ih =>
      rcases ih known with before | later
      · rw [store] at before
        rcases Store.binds_put.mp before with before | ⟨_, _, rfl⟩
        · exact Or.inl before
        · exact Or.inr List.mem_cons_self
      · exact Or.inr (List.mem_cons_of_mem _ later)

end Bound

namespace Stage

/-- Where a course ends that is at home in a scope: there or further out, unless it fails. An opened call
has a frame of its own that binds names of parameters only. -/
def Within (home : Scope) (before after : Machine) : Stage → Prop
  | done => after.scope <:+ home
  | failed => True
  | opened frame around params _ =>
    after.scope <:+ home ∧ around <:+ home ∧ before.store.frames.size ≤ frame ∧
      frame < after.store.frames.size ∧
      ∀ name, after.store.Binds frame name → name ∈ params.map Parameter.name

theorem Within.earlier {home : Scope} {earlier before after : Machine} {stage : Stage}
    (within : stage.Within home before after)
    (size : earlier.store.frames.size ≤ before.store.frames.size) :
    stage.Within home earlier after := by
  cases stage with
  | done => exact within
  | failed => trivial
  | opened frame around params body =>
      obtain ⟨inside, outer, fresh, made, named⟩ := within
      exact ⟨inside, outer, Nat.le_trans size fresh, made, named⟩

theorem Within.same {home : Scope} {before after later : Machine} {stage : Stage}
    (within : stage.Within home before after) (store : later.store = after.store)
    (scope : later.scope = after.scope) : stage.Within home before later := by
  cases stage with
  | done => rwa [Within, scope]
  | failed => trivial
  | opened frame around params body => rwa [Within, store, scope]

/-- An opened call was recorded. -/
def Announced (t : List Event) : Stage → Prop
  | opened frame around params body => .call (frame :: around) params body ∈ t
  | _ => True

theorem Announced.mono {t t' : List Event} {stage : Stage} (announced : stage.Announced t)
    (more : t ⊆ t') : stage.Announced t' := by
  cases stage with
  | opened frame around params body => exact more announced
  | _ => trivial

/-- A course ends in the scope that it is at home in, unless it fails. -/
def Restores (home : Scope) (after : Machine) : Stage → Prop
  | done => after.scope = home
  | failed => True
  | opened _ around _ _ => after.scope = home ∧ around = home

theorem Restores.same {home : Scope} {after later : Machine} {stage : Stage}
    (restores : stage.Restores home after) (scope : later.scope = after.scope) :
    stage.Restores home later := by
  cases stage with
  | done => exact scope.trans restores
  | failed => trivial
  | opened frame around params body => exact ⟨scope.trans restores.1, restores.2⟩

end Stage

/-- One scope further out than a scope inside of a call is outside of it. -/
theorem tail_suffix {frame : Nat} {around inner : Scope} (inside : inner <:+ frame :: around) :
    inner.tail <:+ around := by
  rcases List.suffix_cons_iff.mp inside with rfl | inside
  · exact List.suffix_rfl
  · exact (List.tail_suffix _).trans inside

namespace Course

variable {home : Scope} {m m' : Machine} {t : List Event} {stage : Stage}

theorem within (course : Course home m t stage m') (holds : m.store.Holds home)
    (inside : m.scope <:+ home) :
    m.store.Reaches home m'.store ∧ stage.Within home m m' := by
  induction course with
  | rest => exact ⟨.refl _ _, inside⟩
  | step change scope _ => exact ⟨change.reaches inside, by rwa [Stage.Within, scope]⟩
  | @home home m m' store scope _ =>
      have back : m'.scope <:+ home := scope ▸ List.suffix_rfl
      exact ⟨store ▸ .refl home m.store, back⟩
  | @block home m m' store scope _ =>
      have stays : m'.scope <:+ home := scope ▸ inside
      exact ⟨store ▸ .refl home m.store, stays⟩
  | seq _ _ first second =>
      obtain ⟨reached, inside'⟩ := first holds inside
      obtain ⟨reached', ended⟩ := second (holds.later reached) inside'
      exact ⟨reached.trans reached', ended.earlier reached.size⟩
  | fault _ ih => exact ⟨(ih holds inside).1, trivial⟩
  | linger _ store scope _ ih =>
      obtain ⟨reached, ended⟩ := ih holds inside
      exact ⟨store ▸ reached, ended.same store scope⟩
  | @opens home m m₁ m₂ m₃ t t' label traced bound params body made scope _ _ binds some ih =>
      have opened : m.store.Reaches home m₁.store := by
        rw [made]
        exact (Store.Change.frame label traced).reaches inside
      obtain ⟨reached, inside'⟩ := ih (holds.later opened) (scope ▸ inside)
      have room : m.store.frames.size < m₁.store.frames.size := by simp [made]
      refine ⟨(opened.trans reached).inner inside (Nat.le_refl _) (binds.reaches _), ?_, inside,
        Nat.le_refl _, ?_, ?_⟩
      · rw [binds.scope_eq]
        exact inside'
      · rw [binds.size_eq]
        exact Nat.lt_of_lt_of_le room reached.size
      · intro name known
        rcases binds.binds_frame known with before | named
        · simp [Store.Binds, reached.unused holds made] at before
        · exact List.Sublist.subset (some.sublist.map _) named
  | hollow _ store scope _ ih =>
      obtain ⟨reached, inside', _⟩ := ih holds inside
      refine ⟨store ▸ reached, ?_⟩
      rw [Stage.Within, scope]
      exact (List.tail_suffix _).trans inside'
  | @call home around m m₁ m₂ m₃ m₄ t t' frame params body _ enteredStore enteredScope _ _ store scope
      _ opened runs =>
      obtain ⟨reached, _, outer, fresh, made, _⟩ := opened holds inside
      rw [← enteredStore] at reached made
      obtain ⟨ran, inner⟩ := runs (holds.inner reached outer fresh made) (enteredScope ▸ List.suffix_rfl)
      refine ⟨store ▸ reached.inner outer fresh ran, ?_⟩
      rw [Stage.Within, scope]
      exact (tail_suffix inner).trans outer
  | broken _ enteredStore enteredScope _ _ opened runs =>
      obtain ⟨reached, _, outer, fresh, made, _⟩ := opened holds inside
      rw [← enteredStore] at reached made
      obtain ⟨ran, _⟩ := runs (holds.inner reached outer fresh made) (enteredScope ▸ List.suffix_rfl)
      exact ⟨reached.inner outer fresh ran, trivial⟩

/-- The scope of a call that was opened is there when its body is entered. -/
theorem body_holds {around : Scope} {frame : Nat} {params : List Parameter} {body : List Expr}
    {entered : Machine} (begun : Course home m t (.opened frame around params body) m')
    (holds : m.store.Holds home) (inside : m.scope <:+ home)
    (store : entered.store = m'.store) : entered.store.Holds (frame :: around) := by
  obtain ⟨reached, _, outer, fresh, made, _⟩ := begun.within holds inside
  rw [store]
  exact holds.inner reached outer fresh made

/-- Every function that was opened is in the record. -/
theorem announced (course : Course home m t stage m') : stage.Announced t := by
  induction course with
  | seq _ _ _ second => exact second.mono (List.subset_append_right ..)
  | linger _ _ _ _ ih => exact ih.mono (List.subset_append_left ..)
  | opens => exact List.mem_append_right _ List.mem_cons_self
  | _ => trivial

/-- Where no function without a body is called, a course that begins at home ends at home, and binds
no new names in the frames around. -/
theorem restores (course : Course home m t stage m') (holds : m.store.Holds home)
    (here : m.scope = home) (full : ∀ event ∈ t, event.isHollow = false) :
    (∀ id ∈ home.tail, ∀ name, m'.store.Binds id name → m.store.Binds id name) ∧
      stage.Restores home m' := by
  induction course with
  | rest => exact ⟨fun _ _ _ bound => bound, here⟩
  | step change scope _ =>
      subst here
      exact ⟨change.binds_outer holds, scope⟩
  | home store scope _ => exact ⟨fun _ _ _ bound => store ▸ bound, scope⟩
  | block store scope _ => exact ⟨fun _ _ _ bound => store ▸ bound, scope.trans here⟩
  | seq first _ ih ih' =>
      obtain ⟨reached, _⟩ := first.within holds (here ▸ List.suffix_rfl)
      obtain ⟨names, here'⟩ := ih holds here fun event early =>
        full event (List.mem_append_left _ early)
      obtain ⟨names', ended⟩ := ih' (holds.later reached) here' fun event late =>
        full event (List.mem_append_right _ late)
      exact ⟨fun id outer name bound => names id outer name (names' id outer name bound), ended⟩
  | fault _ ih => exact ⟨(ih holds here full).1, trivial⟩
  | linger _ store scope _ ih =>
      obtain ⟨names, ended⟩ := ih holds here fun event early =>
        full event (List.mem_append_left _ early)
      exact ⟨store ▸ names, ended.same scope⟩
  | @opens home m m₁ m₂ m₃ t t' label traced bound params body made scope _ arguments binds some ih =>
      have opened : m.store.Reaches home m₁.store := by
        rw [made]
        exact (Store.Change.frame label traced).reaches (here ▸ List.suffix_rfl)
      obtain ⟨names, here'⟩ := ih (holds.later opened) (scope.trans here) fun event early =>
        full event (List.mem_append_left _ (List.mem_cons_of_mem _ early))
      refine ⟨fun id outer name known => ?_, binds.scope_eq.trans here', here⟩
      have old : id < m.store.frames.size := holds.made id (List.mem_of_mem_tail outer)
      rw [Store.Binds, binds.binding?_other (Nat.ne_of_lt old)] at known
      have before := names id outer name known
      rwa [made, Store.Binds, Store.binding?_extend] at before
  | hollow begun _ _ _ _ =>
      have announced := begun.announced
      exact absurd (full _ (List.mem_append_left _ announced)) (by simp [Event.isHollow])
  | @call home around m m₁ m₂ m₃ m₄ t t' frame params body begun enteredStore enteredScope _ _ store
      scope _ ih runs =>
      have inner := begun.body_holds holds (here ▸ List.suffix_rfl) enteredStore
      -- the body is at home in the scope of the call, around which is the scope at hand
      obtain ⟨names, _, rfl⟩ := ih holds here fun event early => full event (by simp [early])
      obtain ⟨names', ended⟩ := runs inner enteredScope
        fun event late => full event (by simp [late])
      refine ⟨fun id outer name known => names id outer name ?_, ?_⟩
      · rw [store] at known
        exact enteredStore ▸ names' id (List.mem_of_mem_tail outer) name known
      · rw [Stage.Restores, scope, ended, List.tail_cons]
  | @broken home around m m₁ m₂ m₃ t t' frame params body stage begun enteredStore enteredScope _
      _ ih runs =>
      have inner := begun.body_holds holds (here ▸ List.suffix_rfl) enteredStore
      obtain ⟨names, _, rfl⟩ := ih holds here fun event early => full event (by simp [early])
      obtain ⟨names', _⟩ := runs inner enteredScope
        fun event late => full event (by simp [late])
      refine ⟨fun id outer name known => names id outer name ?_, trivial⟩
      exact enteredStore ▸ names' id (List.mem_of_mem_tail outer) name known

end Course

namespace Recorded

theorem Follows.course {α : Type} {home : Scope} {r : Recorded α} {m after : Machine} {a : α}
    {t : List Event} (follows : Follows home r m) (ran : r m = ((.ok a, after), t)) :
    Course home m t .done after := by
  rw [Follows, ran] at follows
  exact follows

/-- A name that stands for a function gives the function itself. -/
theorem evalName_function {m m' : Machine} {name : String} {id : Nat} {f : Value} {result : Result}
    (found : m.store.get m.scope name = .ok (id, .function f))
    (ran : (Run.evalName name).exec m = (.ok result, m')) : result = .value f := by
  obtain ⟨scope, between, demanded, looked⟩ := Run.exec_bind_ok ran
  obtain ⟨rfl, rfl⟩ := Run.exec_demandScope_ok demanded
  simp [Run.lookup, Run.write, found] at looked
  exact looked.1.symm

theorem prepare_ok {ev : Expr → Recorded Result} {m after : Machine} {name : String} {id : Nat}
    {f callee : Value} {args : List Expr} {values : List Value} {t : List Event}
    (found : m.store.get m.scope name = .ok (id, .function f))
    (ran : prepare ev name args m = ((.ok (callee, values), after), t)) : callee = f := by
  obtain ⟨named, m₁, _, _, looked, arguments, _⟩ := of_bind_ok ran
  obtain rfl := evalName_function found (congrArg Prod.fst looked)
  obtain ⟨_, m₂, _, _, _, snapped, _⟩ := of_bind_ok arguments
  obtain ⟨_, m₃, _, _, shown, ended, _⟩ := of_bind_ok snapped
  cases shown
  cases ended
  rfl

theorem bindParameters_scope {function : String} {frame : Nat} {around : Scope}
    {params : List Parameter} {args : List Value} {m after : Machine} {t : List Event}
    (ran : bindParameters function (frame :: around) params args m = ((.ok (), after), t)) :
    after.scope = m.scope := by
  obtain ⟨bound, t', m', _, binds, ended | ⟨_, _, _, _, _, ended⟩⟩ :=
    bindParameters_bound function frame around params args m
  · rw [ran] at ended
    cases ended
    exact binds.scope_eq
  · rw [ran] at ended
    cases ended

theorem leaveScope_ok {m after : Machine} (ran : Run.leaveScope.exec m = (.ok (), after)) :
    after.scope = m.scope.tail := by
  rw [Run.exec_leaveScope] at ran
  split at ran
  · cases ran
  · cases ran
    rfl

/-- A function without a body leaves the scope in which it is called. -/
theorem call_hollow {ev : Expr → Recorded Result} {m after : Machine} {address called : String}
    {frame serial : Nat} {around : Scope} {params : List Parameter} {args : List Value}
    {result : Result} {t : List Event}
    (ran : call ev (.function serial address called params []) (frame :: around) args m =
      ((.ok result, after), t)) :
    after.scope = m.scope.tail ∧ 0 < t.countP Event.isHollow := by
  obtain ⟨_, m₁, t₁, rest, noted, checked, rfl⟩ := of_bind_ok ran
  cases noted
  refine ⟨?_, by simp [Event.isHollow]⟩
  by_cases many : params.length < args.length
  · simp only [many, ↓reduceIte] at checked
    obtain ⟨_, _, _, _, refused, _⟩ := of_bind_ok checked
    cases refused
  · simp only [many, ↓reduceIte] at checked
    obtain ⟨_, m₂, _, _, binds, rest, _⟩ := of_bind_ok checked
    obtain ⟨_, m₃, _, _, nothing, leaving, _⟩ := of_bind_ok rest
    obtain ⟨_, m₄, _, _, left, finishing, _⟩ := of_bind_ok leaving
    obtain ⟨_, m₅, _, _, finished, ended, _⟩ := of_bind_ok finishing
    cases nothing
    cases ended
    obtain ⟨_, rfl⟩ := Run.exec_lift_ok (congrArg Prod.fst finished)
    rw [leaveScope_ok (congrArg Prod.fst left), bindParameters_scope binds]

/-- A call of a function without a body leaves the scope of the caller, if no other such function is
called on the way. -/
theorem evalCall_hollow {fuel : Nat} {m after : Machine} {name address called : String} {args : List Expr}
    {result : Result} {t : List Event} {id serial : Nat} {params : List Parameter}
    (holds : m.store.Holds m.scope)
    (found : m.store.get m.scope name = .ok (id, .function (.function serial address called params [])))
    (ran : evalCall (eval fuel) name args m = ((.ok result, after), t))
    (once : t.countP Event.isHollow = 1) : after.scope = m.scope.tail := by
  rw [evalCall_eq] at ran
  obtain ⟨around, m₀, t₀, rest, demanded, extending, rfl⟩ := of_bind_ok ran
  obtain ⟨rfl, rfl⟩ := Run.exec_demandScope_ok (congrArg Prod.fst demanded)
  obtain ⟨scope, m₁, t₁, rest, extended, preparing, rfl⟩ := of_bind_ok extending
  obtain ⟨⟨callee, values⟩, m₂, t₂, t₃, prepared, calling, rfl⟩ := of_bind_ok preparing
  cases extended
  have found' : (m.store.extend m.scope (some ("call_" ++ name)) false).2.get m.scope name =
      .ok (id, .function (.function serial address called params [])) := by
    rw [← found, Store.get_extend]
  obtain rfl := prepare_ok found' prepared
  obtain ⟨left, counted⟩ := call_hollow calling
  have full : t₂.countP Event.isHollow = 0 := by
    simp only [List.countP_append] at once
    omega
  have course : Course m.scope _ t₂ .done m₂ :=
    (prepare_follows (eval_follows fuel) name args).course prepared
  have here : m₂.scope = m.scope := (course.restores
    (holds.later ((Store.Change.frame _ _).reaches List.suffix_rfl)) rfl
    (by simpa [List.countP_eq_zero] using full)).2
  rw [left, here]

/-- For a while no store, no scope and no function without a body is touched. -/
structure Calm (m : Machine) (t : List Event) (m' : Machine) : Prop where
  store : m'.store = m.store
  scope : m'.scope = m.scope
  full : t.countP Event.isHollow = 0

theorem Calm.trans {m m' m'' : Machine} {t t' : List Event} (first : Calm m t m')
    (second : Calm m' t' m'') : Calm m (t ++ t') m'' := by
  refine ⟨second.store.trans first.store, second.scope.trans first.scope, ?_⟩
  rw [List.countP_append, first.full, second.full]

theorem calm_of_quiet {α : Type} {r : Run α} {m m' : Machine} {a : α} {t : List Event}
    (quiet : Run.Quiet r) (ran : step r m = ((.ok a, m'), t)) : Calm m t m' := by
  obtain ⟨ended, rfl⟩ := Prod.mk.inj ran
  obtain ⟨store, scope, -⟩ := quiet.keeps m
  rw [ended] at store scope
  exact ⟨store, scope, rfl⟩

/-- Before a property of an object is called nothing changes but what is written. -/
theorem evalProperty_call_ok {ev : Expr → Recorded Result} {m after : Machine}
    {object name : String} {args : List Expr} {result : Result} {t : List Event}
    (ran : evalProperty ev object (.call name args) m = ((.ok result, after), t)) :
    ∃ m₁ t₁ t₂, Calm m t₁ m₁ ∧ evalCall ev name args m₁ = ((.ok result, after), t₂) ∧
      t = t₁ ++ t₂ := by
  obtain ⟨named, m₁, t₁, _, looked, showing, rfl⟩ := of_bind_ok ran
  obtain ⟨value, m₂, t₂, _, shown, typing, rfl⟩ := of_bind_ok showing
  obtain ⟨type, m₃, t₃, _, typed, rest, rfl⟩ := of_bind_ok typing
  have calm := ((calm_of_quiet (Run.quiet_evalName object) looked).trans
    (calm_of_quiet (Run.quiet_snapshot named) shown)).trans
    (calm_of_quiet (Run.quiet_lift _) typed)
  by_cases indexable : type.equal (.str "obj") = true
  · simp only [indexable, Bool.not_true, Bool.false_eq_true, ↓reduceIte] at rest
    obtain ⟨_, m₄, t₄, t₅, inside, calling, rfl⟩ := of_bind_ok rest
    refine ⟨m₄, t₁ ++ t₂ ++ t₃ ++ t₄, t₅, ?_, calling, by simp only [List.append_assoc]⟩
    exact calm.trans (calm_of_quiet (Run.quiet_lift _) inside)
  · simp only [indexable, Bool.not_false, ↓reduceIte] at rest
    obtain ⟨_, _, _, _, _, rest, _⟩ := of_bind_ok rest
    obtain ⟨_, _, _, _, thrown, _⟩ := of_bind_ok rest
    cases thrown

end Recorded

namespace Expr

/-- An expression that calls the function of a name, which may be written as a property. -/
inductive Calls (name : String) (args : List Expr) : Expr → Prop
  | plain : Calls name args (.call name args)
  | property (object : String) : Calls name args (.property object (.call name args))

end Expr

namespace Run

/-- How many functions without a body are called in an evaluation. -/
def hollowCalls (fuel : Nat) (e : Expr) (machine : Machine) : Nat :=
  (Recorded.eval fuel e machine).2.countP Event.isHollow

/-- An evaluation that is completed ends in the scope in which it began: the frames around bind the
names that they did, and the innermost one has lost none. Only functions without a body are otherwise:
calling one leaves the scope of the caller. -/
theorem eval_restores_scope (fuel : Nat) (e : Expr) (machine after : Machine) (result : Result)
    (holds : machine.store.Holds machine.scope)
    (ran : (eval fuel e).exec machine = (.ok result, after)) :
    (hollowCalls fuel e machine = 0 →
      after.scope = machine.scope ∧
      (∀ id ∈ machine.scope.tail, ∀ name,
        after.store.Binds id name ↔ machine.store.Binds id name) ∧
      ∀ id ∈ machine.scope, ∀ name, machine.store.Binds id name → after.store.Binds id name) ∧
    ∀ name args, e.Calls name args →
      (∃ id serial address called params, machine.store.get machine.scope name =
        .ok (id, .function (.function serial address called params []))) →
      hollowCalls fuel e machine = 1 → after.scope = machine.scope.tail := by
  rcases recorded : Recorded.eval fuel e machine with ⟨outcome, t⟩
  have same : outcome = (.ok result, after) := by
    rw [← ran, ← Recorded.eval_records fuel e machine, recorded]
  subst same
  rw [hollowCalls, recorded]
  constructor
  · intro none
    have course : Course machine.scope machine t .done after :=
      (Recorded.eval_follows fuel e _ _).course recorded
    obtain ⟨reached, _⟩ := course.within holds List.suffix_rfl
    obtain ⟨names, here⟩ := course.restores holds rfl (by simpa [List.countP_eq_zero] using none)
    refine ⟨here, fun id outer name => ⟨names id outer name, reached.names id name⟩, ?_⟩
    exact fun id _ name => reached.names id name
  · rintro name args calls ⟨id, serial, address, called, params, found⟩ once
    cases fuel with
    | zero => cases recorded
    | succ fuel =>
        cases calls with
        | plain => exact Recorded.evalCall_hollow holds found recorded once
        | property object =>
            obtain ⟨m₁, t₁, t₂, calm, calling, rfl⟩ := Recorded.evalProperty_call_ok recorded
            rw [← calm.store, ← calm.scope] at holds found
            rw [List.countP_append, calm.full, Nat.zero_add] at once
            rw [← calm.scope]
            exact Recorded.evalCall_hollow holds found calling once

/-- A machine inside of a call, with a function that has a variable of its own and one without a body. -/
def insideCall : Machine :=
  { Machine.fresh (.ofInput "" false) .none false with
    store := ⟨#[⟨none, false,
      [("f", .function (.function 0 Value.noAddress "f" [.mk "a" (some "let") (.datum .null)]
        [.assign (some "let") "b" (.ident "a"), .ret (.ident "b")])),
      ("g", .function (.function 1 Value.noAddress "g" [] []))]⟩, .empty (some "call_h") false]⟩
    scope := [1, 0] }

theorem eval_restores_scope_inside : ∃ called left : Machine, ∃ result result' : Result,
    insideCall.store.Holds insideCall.scope ∧
      (eval 9 (.call "f" [.int 7])).exec insideCall = (.ok result, called) ∧
      hollowCalls 9 (.call "f" [.int 7]) insideCall = 0 ∧ called.scope = [1, 0] ∧
      (∀ name, called.store.Binds 0 name ↔ insideCall.store.Binds 0 name) ∧
      (eval 9 (.call "g" [])).exec insideCall = (.ok result', left) ∧
      hollowCalls 9 (.call "g" []) insideCall = 1 ∧ left.scope = [0] := by
  have holds : insideCall.store.Holds insideCall.scope := ⟨by decide, by decide⟩
  have full : hollowCalls 9 (.call "f" [.int 7]) insideCall = 0 := by decide +kernel
  have once : hollowCalls 9 (.call "g" []) insideCall = 1 := by decide +kernel
  obtain ⟨result, called, ran⟩ :=
    exec_of_isOk (eval 9 (.call "f" [.int 7])) insideCall (by decide +kernel)
  obtain ⟨result', left, ran'⟩ := exec_of_isOk (eval 9 (.call "g" [])) insideCall (by decide +kernel)
  obtain ⟨scope, names, _⟩ := (eval_restores_scope 9 _ insideCall called result holds ran).1 full
  have leaves := (eval_restores_scope 9 _ insideCall left result' holds ran').2 "g" [] .plain
    ⟨0, 1, Value.noAddress, "g", [], rfl⟩ once
  exact ⟨called, left, result, result', holds, ran, full, scope, names 0 (by decide), ran', once,
    leaves⟩

end Run

end Scriptlet
