import Scriptlet.Proofs.Evaluation.Scoping

set_option autoImplicit false

/-!
Only parameters shadow. Variables and functions are defined where no frame in sight has their name, and
the frames around a call get no new names while it runs, so a frame has a name in common with one
around it only by the parameters of a call.
-/

namespace Scriptlet

/-- A name that a frame of the scope shares with a frame around it is that of a parameter, and the frame
was made for the call of the function. -/
def ParametersShadow (calls : List Event) (store : Store) (scope : Scope) : Prop :=
  ∀ frame around, frame :: around <:+ scope → ∀ outer ∈ around, ∀ name,
    store.Binds frame name → store.Binds outer name →
      ∃ params body, .call (frame :: around) params body ∈ calls ∧
        name ∈ params.map Parameter.name

namespace ParametersShadow

variable {calls : List Event} {a b : Store} {scope inner : Scope}

/-- A scope of one frame has nothing to shadow. -/
theorem single (calls : List Event) (store : Store) (frame : Nat) :
    ParametersShadow calls store [frame] := by
  intro inner around within outer sees
  obtain rfl : around = [] := by
    have short := within.length_le
    simpa using short
  cases sees

theorem outward (shadow : ParametersShadow calls a inner) (outside : scope <:+ inner) :
    ParametersShadow calls a scope :=
  fun frame around within => shadow frame around (within.trans outside)

/-- What shadows is a matter of the names in the frames of the scope. -/
theorem fewer (shadow : ParametersShadow calls a scope)
    (names : ∀ id ∈ scope, ∀ name, b.Binds id name → a.Binds id name) :
    ParametersShadow calls b scope := by
  intro frame around within outer sees name binds binds'
  have here : frame ∈ scope := within.mem List.mem_cons_self
  have there : outer ∈ scope := within.mem (List.mem_cons_of_mem frame sees)
  exact shadow frame around within outer sees name (names frame here name binds)
    (names outer there name binds')

/-- A name is defined only where no frame in sight has it. -/
theorem change (shadow : ParametersShadow calls a scope) (holds : a.Holds scope)
    (change : Store.Change scope a b) : ParametersShadow calls b scope := by
  have outside := change.binds_outer holds
  cases change with
  | nothing => exact shadow
  | frame label traced =>
      refine shadow.fewer fun id _ name known => ?_
      rwa [Store.Binds, Store.binding?_extend] at known
  | reassign seen bound _ _ _ =>
      refine shadow.fewer fun id _ name known => ?_
      rcases Store.binds_put.mp known with before | ⟨_, rfl, rfl⟩
      · exact before
      · rw [Store.Binds, bound]
        rfl
  | @define id home name binding innermost undefined _ =>
      subst innermost
      intro frame around within outer sees wanted binds binds'
      have further : outer ∈ home := (tail_suffix within).mem sees
      have before : a.Binds outer wanted := outside outer further wanted binds'
      rcases Store.binds_put.mp binds with known | ⟨_, rfl, rfl⟩
      · exact shadow frame around within outer sees wanted known before
      · have unbound := Store.find_eq_none.mp undefined outer (List.mem_cons_of_mem id further)
        exact absurd before unbound

/-- The frame of a call binds names of parameters only. -/
theorem enter {frame : Nat} {params : List Parameter} {body : List Expr}
    (shadow : ParametersShadow calls a scope)
    (called : .call (frame :: scope) params body ∈ calls)
    (named : ∀ name, a.Binds frame name → name ∈ params.map Parameter.name) :
    ParametersShadow calls a (frame :: scope) := by
  intro inner around within outer sees name binds binds'
  rcases List.suffix_cons_iff.mp within with same | within
  · cases same
    exact ⟨params, body, called, named name binds⟩
  · exact shadow inner around within outer sees name binds binds'

end ParametersShadow

/-- While parameters are bound the scope at hand and all other frames stay as they are. -/
theorem Bound.points {frame : Nat} {params : List Parameter} {m m' : Machine} {t : List Event}
    (bound : Bound frame params m t m') {p : Machine} (point : p ∈ m :: states t) :
    p.scope = m.scope ∧
      ∀ id ≠ frame, ∀ name, p.store.binding? id name = m.store.binding? id name := by
  induction bound with
  | nil =>
      rw [List.mem_singleton.mp point]
      exact ⟨rfl, fun _ _ _ => rfl⟩
  | @bind q params m m₁ m₂ t r kept typed store scope _ rest ih =>
      rcases List.mem_cons.mp point with rfl | later
      · exact ⟨rfl, fun _ _ _ => rfl⟩
      · obtain ⟨scope', others⟩ := ih later
        refine ⟨scope'.trans scope, fun id other name => ?_⟩
        rw [others id other name, store, Store.binding?_put, if_neg (fun here => other here.2.1.symm)]

/-- Only parameters shadow, at each point of a stretch of history and in the scope at home at its end. -/
structure Shadowed (calls : List Event) (home : Scope) (t : List Event) (m : Machine) : Prop where
  points : ∀ p ∈ states t, ParametersShadow calls p.store p.scope
  left : ParametersShadow calls m.store home

namespace Shadowed

variable {calls : List Event} {home : Scope} {m m' : Machine} {t t' : List Event}

theorem state (point : ParametersShadow calls m.store m.scope)
    (left : ParametersShadow calls m.store home) : Shadowed calls home [.state m] m := by
  refine ⟨fun p here => ?_, left⟩
  rw [List.mem_singleton.mp here]
  exact point

theorem call {scope : Scope} {params : List Parameter} {body : List Expr}
    (shadowed : Shadowed calls home t m) : Shadowed calls home (.call scope params body :: t) m :=
  ⟨shadowed.points, shadowed.left⟩

theorem append {other : Scope} (first : Shadowed calls other t m)
    (second : Shadowed calls home t' m') : Shadowed calls home (t ++ t') m' := by
  refine ⟨fun p here => ?_, second.left⟩
  rw [states_append] at here
  rcases List.mem_append.mp here with early | late
  · exact first.points p early
  · exact second.points p late

theorem enter (point : ParametersShadow calls m.store m.scope)
    (left : ParametersShadow calls m.store home) : Shadowed calls home [.enter, .state m] m :=
  ⟨(state point left).points, left⟩

/-- The body of a call is entered in a scope of its own. -/
theorem body {inner : Scope} {entered : Machine} (before : Shadowed calls home t m)
    (scope : entered.scope = inner) (shadow : ParametersShadow calls entered.store inner)
    (ran : Shadowed calls inner t' m') :
    Shadowed calls inner (t ++ .enter :: .state entered :: t') m' := by
  have all := (before.append (.enter (scope ▸ shadow) shadow)).append ran
  rwa [List.append_assoc] at all

theorem outward {around : Scope} (shadowed : Shadowed calls home t m) (outside : around <:+ home) :
    Shadowed calls around t m :=
  ⟨shadowed.points, shadowed.left.outward outside⟩

end Shadowed

namespace Course

variable {calls : List Event} {home : Scope} {m m' : Machine} {t : List Event} {stage : Stage}

/-- The machine that a course leaves is one of its points. -/
theorem left_point (course : Course home m t stage m') (here : m.scope = home)
    (shadow : ParametersShadow calls m.store home) (shadowed : Shadowed calls home t m') :
    ParametersShadow calls m'.store m'.scope := by
  rcases List.mem_cons.mp (List.mem_of_getLast? course.traced.last) with rfl | later
  · rw [here]
    exact shadow
  · exact shadowed.points m' later

/-- When the body of a call is entered only parameters shadow in its scope. -/
theorem enter_shadow {around : Scope} {frame : Nat} {params : List Parameter} {body : List Expr}
    {entered : Machine} (begun : Course home m t (.opened frame around params body) m')
    (holds : m.store.Holds home) (here : m.scope = home)
    (full : ∀ event ∈ calls, event.isHollow = false) (recorded : t ⊆ calls)
    (shadowed : Shadowed calls home t m') (store : entered.store = m'.store) :
    around = home ∧ ParametersShadow calls entered.store (frame :: around) := by
  obtain ⟨_, _, _, _, _, named⟩ := begun.within holds (here ▸ List.suffix_rfl)
  obtain ⟨_, _, rfl⟩ := begun.restores holds here fun event early => full event (recorded early)
  rw [store]
  exact ⟨rfl, shadowed.left.enter (recorded begun.announced) named⟩

theorem shadowed (course : Course home m t stage m') (holds : m.store.Holds home)
    (here : m.scope = home) (full : ∀ event ∈ calls, event.isHollow = false) (recorded : t ⊆ calls)
    (shadow : ParametersShadow calls m.store home) : Shadowed calls home t m' := by
  induction course with
  | rest => exact ⟨fun _ point => absurd point List.not_mem_nil, shadow⟩
  | @step home m m' change scope _ =>
      have after : ParametersShadow calls m'.store home := by
        subst here
        exact shadow.change holds change
      exact .state (scope.trans here ▸ after) after
  | @home home m m' store scope _ =>
      rw [← store] at shadow
      exact .enter (scope ▸ shadow) shadow
  | @block home m m' store scope _ =>
      rw [← store] at shadow
      exact .enter (scope.trans here ▸ shadow) shadow
  | seq first second ih ih' =>
      obtain ⟨recorded, later⟩ := List.append_subset.mp recorded
      obtain ⟨reached, _⟩ := first.within holds (here ▸ List.suffix_rfl)
      obtain ⟨_, here'⟩ := first.restores holds here fun event early => full event (recorded early)
      have before := ih holds here recorded shadow
      exact before.append (ih' (holds.later reached) here' later before.left)
  | fault _ ih => exact ih holds here recorded shadow
  | linger course store scope _ ih =>
      have before := ih holds here (List.append_subset.mp recorded).1 shadow
      have point := course.left_point here shadow before
      rw [← store, ← scope] at point
      exact before.append (.state point (store ▸ before.left))
  | @opens home m m₁ m₂ m₃ t t' label traced bound params body made scope _ arguments binds some ih =>
      have change : Store.Change m.scope m.store m₁.store := made ▸ .frame label traced
      have holds' := holds.later (change.reaches (here ▸ List.suffix_rfl))
      have opened : ParametersShadow calls m₁.store home := by
        subst here
        exact shadow.change holds change
      have recorded' : t ⊆ calls := fun event early => recorded (by simp [early])
      have prepared := ih holds' (scope.trans here) recorded' opened
      obtain ⟨_, here'⟩ := arguments.restores holds' (scope.trans here) fun event early =>
        full event (recorded' early)
      -- the parameters go into a frame that is not in the scope at hand before the body is entered
      have kept : ∀ p ∈ m₂ :: states t', p.scope = home ∧ ParametersShadow calls p.store home := by
        intro p point
        obtain ⟨same, others⟩ := binds.points point
        refine ⟨same.trans here', prepared.left.fewer fun id inside name known => ?_⟩
        have older : id ≠ m.store.frames.size := Nat.ne_of_lt (holds.made id inside)
        rwa [Store.Binds, others id older name] at known
      have bound' : Shadowed calls home t' m₃ := by
        refine ⟨fun p point => ?_, (kept m₃ (List.mem_of_getLast? binds.traced.last)).2⟩
        obtain ⟨same, shadow⟩ := kept p (List.mem_cons_of_mem m₂ point)
        rw [same]
        exact shadow
      exact ((Shadowed.state (scope.trans here ▸ opened) opened).append prepared).append bound'.call
  | hollow begun _ _ _ _ =>
      have called := (List.append_subset.mp recorded).1 begun.announced
      exact absurd (full _ called) (by simp [Event.isHollow])
  | @call home around m m₁ m₂ m₃ m₄ t t' frame params body begun enteredStore enteredScope _ runs
      store scope _ ih ih' =>
      have early : t ⊆ calls := fun event early => recorded (by simp [early])
      have later : t' ⊆ calls := fun event later => recorded (by simp [later])
      have inner := begun.body_holds holds (here ▸ List.suffix_rfl) enteredStore
      have before := ih holds here early shadow
      obtain ⟨rfl, entered⟩ := begun.enter_shadow holds here full early before enteredStore
      have after := ih' inner enteredScope later entered
      obtain ⟨_, ended⟩ := runs.restores inner enteredScope fun event late => full event (later late)
      have left : ParametersShadow calls m₄.store around :=
        store ▸ after.left.outward (List.suffix_cons frame around)
      have back : m₄.scope = around := by rw [scope, ended, List.tail_cons]
      exact (before.body enteredScope entered after).append (.state (back ▸ left) left)
  | @broken home around m m₁ m₂ m₃ t t' frame params body stage begun enteredStore enteredScope _
      runs ih ih' =>
      have early : t ⊆ calls := fun event early => recorded (by simp [early])
      have later : t' ⊆ calls := fun event later => recorded (by simp [later])
      have inner := begun.body_holds holds (here ▸ List.suffix_rfl) enteredStore
      have before := ih holds here early shadow
      obtain ⟨rfl, entered⟩ := begun.enter_shadow holds here full early before enteredStore
      have after := ih' inner enteredScope later entered
      exact (before.body enteredScope entered after).outward (List.suffix_cons frame around)

end Course

namespace Run

/-- At every point of a run that begins in an outermost scope and calls no function without a body, a
name is bound in a frame and again around it only if it is a parameter of the function for whose call
the frame was made. The points leave no write out. -/
theorem evalProgram_parameters_shadow (fuel : Nat) (program : List Expr) (root : Nat)
    (verbose : Bool) (folder : Option Path) (machine : Machine)
    (made : root < machine.store.frames.size)
    (full : (history fuel program [root] verbose folder machine).countP Event.isHollow = 0) :
    let t := history fuel program [root] verbose folder machine
    let left := ((evalProgram fuel program [root] verbose folder).exec machine).2
    Traced machine t left ∧ ∀ p ∈ states t, ParametersShadow t p.store p.scope := by
  intro t left
  refine ⟨history_traced fuel program [root] verbose folder machine, ?_⟩
  obtain ⟨entered, rest, stage, store, here, began, course⟩ :=
    history_course fuel program [root] verbose folder machine
  have filled := List.countP_eq_zero.mp full
  have whole : t = .state entered :: rest := began
  rw [began] at filled
  rw [whole]
  have holds : entered.store.Holds [root] := by
    refine ⟨fun id inside => ?_, List.pairwise_singleton _ root⟩
    rw [List.mem_singleton.mp inside, store]
    exact made
  have outermost := ParametersShadow.single (.state entered :: rest) entered.store root
  have shadowed := course.shadowed holds here
    (fun event recorded => Bool.eq_false_iff.mpr (filled event recorded))
    (List.subset_cons_self _ rest) outermost
  exact ((Shadowed.state (here ▸ outermost) outermost).append shadowed).points

/-- The parameter of a function has the name of a constant outside, and the function calls itself. -/
theorem evalProgram_parameters_shadow_recursive :
    let machine := Machine.fresh (.ofInput "" false) .none false
    let program : List Expr := [.assign (some "const") "a" (.int 1),
      .define "f" [.mk "a" (some "let") (.datum .null)]
        [.conditional "if" (.binary ">" (.ident "a") (.int 0))
          [.ret (.call "f" [.binary "-" (.ident "a") (.int 1)])] none, .ret (.ident "a")],
      .call "f" [.int 2]]
    let t := history 9 program [0] false none machine
    0 < machine.store.frames.size ∧ t.countP Event.isHollow = 0 ∧
      ∀ p ∈ states t, ParametersShadow t p.store p.scope := by
  intro machine program t
  have made : 0 < machine.store.frames.size := by decide
  have full : t.countP Event.isHollow = 0 := by decide +kernel
  exact ⟨made, full, (evalProgram_parameters_shadow 9 program 0 false none machine made full).2⟩

end Run

end Scriptlet
