import Scriptlet.Proofs.Evaluation.Scoping

set_option autoImplicit false

/-!
Bindings are stable. From any point of a run to any later one, functions and constants stay what they
are, and variables stay bound in the way they were, whatever is reassigned, defined or called in
between. The one exception are parameters that share their name with another parameter of the function:
the second is bound in place of the first.
-/

namespace Scriptlet

namespace Store

/-- Bindings from one store to a later one, where some names are exempt. -/
structure Stable (exempt : Nat → String → Prop) (a b : Store) : Prop where
  functions : ∀ id name f, a.binding? id name = some (.function f) →
    b.binding? id name = some (.function f)
  constants : ∀ id name r, ¬ exempt id name → a.binding? id name = some (.record r) →
    r.binding = some "const" → b.binding? id name = some (.record r)
  records : ∀ id name r, ¬ exempt id name → a.binding? id name = some (.record r) →
    ∃ r', b.binding? id name = some (.record r') ∧ r'.binding = r.binding

variable {exempt : Nat → String → Prop} {a b c : Store}

theorem Stable.refl (a : Store) : Stable exempt a a :=
  ⟨fun _ _ _ bound => bound, fun _ _ _ _ bound _ => bound, fun _ _ r _ bound => ⟨r, bound, rfl⟩⟩

theorem Stable.trans (first : Stable exempt a b) (second : Stable exempt b c) :
    Stable exempt a c := by
  refine ⟨fun id name f bound => ?_, fun id name r free bound const => ?_,
    fun id name r free bound => ?_⟩
  · exact second.functions id name f (first.functions id name f bound)
  · exact second.constants id name r free (first.constants id name r free bound const) const
  · obtain ⟨r', bound', kept⟩ := first.records id name r free bound
    obtain ⟨r'', bound'', kept'⟩ := second.records id name r' free bound'
    exact ⟨r'', bound'', kept'.trans kept⟩

/-- A store that looks the same is as stable. -/
theorem Stable.of_binding?_eq (same : ∀ id name, b.binding? id name = a.binding? id name) :
    Stable exempt a b := by
  refine ⟨fun id name f bound => ?_, fun id name r _ bound _ => ?_, fun id name r _ bound => ?_⟩
  · rw [same, bound]
  · rw [same, bound]
  · exact ⟨r, (same id name).trans bound, rfl⟩

/-- Putting a binding in a frame is stable if it is so for the one name. -/
theorem stable_put {id : Nat} {name : String} {binding : Binding}
    (function : ∀ f, a.binding? id name ≠ some (.function f))
    (constant : ∀ r, ¬ exempt id name → a.binding? id name = some (.record r) →
      r.binding ≠ some "const" ∧ ∃ r', binding = .record r' ∧ r'.binding = r.binding) :
    Stable exempt a (a.put id name binding) := by
  have elsewhere {other : Nat} {wanted : String} (apart : ¬ (id = other ∧ name = wanted)) :
      (a.put id name binding).binding? other wanted = a.binding? other wanted := by
    rw [binding?_put, if_neg (fun here => apart here.2)]
  have here {old : Binding} (bound : a.binding? id name = some old) :
      (a.put id name binding).binding? id name = some binding := by
    have made : id < a.frames.size := lt_size_of_binds (by rw [Binds, bound]; rfl)
    rw [binding?_put, if_pos ⟨made, rfl, rfl⟩]
  refine ⟨fun other wanted f bound => ?_, fun other wanted r free bound const => ?_,
    fun other wanted r free bound => ?_⟩
  · by_cases same : id = other ∧ name = wanted
    · obtain ⟨rfl, rfl⟩ := same
      exact absurd bound (function f)
    · rw [elsewhere same, bound]
  · by_cases same : id = other ∧ name = wanted
    · obtain ⟨rfl, rfl⟩ := same
      exact absurd const (constant r free bound).1
    · rw [elsewhere same, bound]
  · by_cases same : id = other ∧ name = wanted
    · obtain ⟨rfl, rfl⟩ := same
      obtain ⟨_, r', rfl, kept⟩ := constant r free bound
      exact ⟨r', here bound, kept⟩
    · exact ⟨r, (elsewhere same).trans bound, rfl⟩

theorem Change.stable {scope : Scope} (change : Change scope a b) : Stable exempt a b := by
  cases change with
  | nothing => exact .refl a
  | frame label traced => exact .of_binding?_eq fun id name => binding?_extend ..
  | @reassign id name old new seen bound notConst kept typed =>
      apply stable_put
      · intro f function
        rw [bound] at function
        cases function
      · intro r _ same
        rw [bound] at same
        cases same
        exact ⟨notConst, new, rfl, kept⟩
  | @define id outer name binding innermost undefined typed =>
      have unbound : ¬ a.Binds id name :=
        find_eq_none.mp undefined id (innermost ▸ List.mem_cons_self)
      have nothing : a.binding? id name = none := by simpa [Binds] using unbound
      apply stable_put
      · intro f function
        rw [nothing] at function
        cases function
      · intro r _ bound
        rw [nothing] at bound
        cases bound

end Store

/-- Bindings are stable from every point of a stretch of history to every later one. -/
structure Steady (exempt : Nat → String → Prop) (m : Machine) (t : List Event) (m' : Machine) :
    Prop where
  between : (m :: states t).Pairwise fun p q => Store.Stable exempt p.store q.store
  toEnd : ∀ p ∈ m :: states t, Store.Stable exempt p.store m'.store

namespace Steady

variable {exempt : Nat → String → Prop} {m m' m'' : Machine} {t t' : List Event}

theorem nil : Steady exempt m [] m := by
  refine ⟨List.pairwise_singleton _ m, fun p here => ?_⟩
  rw [List.mem_singleton.mp here]
  exact .refl m.store

theorem state (stable : Store.Stable exempt m.store m'.store) : Steady exempt m [.state m'] m' := by
  refine ⟨List.pairwise_pair.mpr stable, fun p here => ?_⟩
  rcases List.mem_cons.mp here with rfl | here
  · exact stable
  · rw [List.mem_singleton.mp here]
    exact .refl m'.store

theorem same (store : m'.store = m.store) : Steady exempt m [.state m'] m' := by
  apply state
  rw [store]
  exact .refl m.store

theorem call {scope : Scope} {params : List Parameter} {body : List Expr}
    (steady : Steady exempt m t m') : Steady exempt m (.call scope params body :: t) m' :=
  ⟨steady.between, steady.toEnd⟩

theorem append (first : Steady exempt m t m') (second : Steady exempt m' t' m'') :
    Steady exempt m (t ++ t') m'' := by
  refine ⟨?_, fun p here => ?_⟩
  · rw [states_append, ← List.cons_append]
    refine List.pairwise_append.mpr ⟨first.between, second.between.of_cons, fun p early q late => ?_⟩
    exact (first.toEnd p early).trans (List.rel_of_pairwise_cons second.between late)
  · rw [states_append, ← List.cons_append] at here
    rcases List.mem_append.mp here with early | late
    · exact (first.toEnd p early).trans (second.toEnd m' List.mem_cons_self)
    · exact second.toEnd p (List.mem_cons_of_mem m' late)

/-- Statements are entered with the store as it is. -/
theorem enter (store : m'.store = m.store) : Steady exempt m [.enter, .state m'] m' :=
  ⟨(same store).between, (same store).toEnd⟩

theorem body {entered : Machine} (before : Steady exempt m t m')
    (store : entered.store = m'.store) (ran : Steady exempt entered t' m'') :
    Steady exempt m (t ++ .enter :: .state entered :: t') m'' := by
  have all := (before.append (.enter store)).append ran
  rwa [List.append_assoc] at all

end Steady

/-- Parameters are bound in a frame that has none but earlier ones: where a name comes again, the
function has it twice. -/
theorem Bound.steady {exempt : Nat → String → Prop} {frame : Nat} {params : List Parameter}
    {m m' : Machine} {t : List Event} (bound : Bound frame params m t m') (earlier : List Parameter)
    (known : ∀ name binding, m.store.binding? frame name = some binding →
      (∃ r, binding = .record r) ∧ name ∈ earlier.map Parameter.name)
    (repeated : ∀ name, 2 ≤ ((earlier ++ params).map Parameter.name).count name →
      exempt frame name) :
    Steady exempt m t m' := by
  induction bound generalizing earlier with
  | nil => exact .nil
  | @bind p params m m₁ m₂ t r kept typed store scope _ rest ih =>
      have stable : Store.Stable exempt m.store m₁.store := by
        rw [store]
        apply Store.stable_put
        · intro f function
          obtain ⟨⟨r, record⟩, _⟩ := known p.name _ function
          cases record
        · intro r free before
          refine absurd (repeated p.name ?_) free
          have first : 0 < (earlier.map Parameter.name).count p.name :=
            List.count_pos_iff.mpr (known p.name _ before).2
          simp only [List.map_append, List.map_cons, List.count_append, List.count_cons_self]
          omega
      have next : Steady exempt m₁ t m₂ := by
        apply ih (earlier ++ [p])
        · intro name binding now
          rw [store, Store.binding?_put] at now
          split at now
          · rename_i here
            cases now
            exact ⟨⟨r, rfl⟩, by simp [here.2.2]⟩
          · obtain ⟨record, before⟩ := known name binding now
            exact ⟨record, by simp [before]⟩
        · intro name
          rw [List.append_assoc, List.singleton_append]
          exact repeated name
      exact (Steady.state stable).append next

/-- Names that several parameters of a function share are exempt in the frames of its calls. -/
def Spares (exempt : Nat → String → Prop) (t : List Event) : Prop :=
  ∀ frame around params body name, .call (frame :: around) params body ∈ t →
    2 ≤ (params.map Parameter.name).count name → exempt frame name

theorem Spares.mono {exempt : Nat → String → Prop} {t t' : List Event} (spares : Spares exempt t')
    (fewer : t ⊆ t') : Spares exempt t :=
  fun frame around params body name called => spares frame around params body name (fewer called)

namespace Course

variable {exempt : Nat → String → Prop} {home : Scope} {m m' : Machine} {t : List Event}
  {stage : Stage}

theorem steady (course : Course home m t stage m') (holds : m.store.Holds home)
    (inside : m.scope <:+ home) (spares : Spares exempt t) : Steady exempt m t m' := by
  induction course with
  | rest => exact .nil
  | step change _ _ => exact .state change.stable
  | home store _ _ => exact .enter store
  | block store _ _ => exact .enter store
  | seq first _ ih ih' =>
      obtain ⟨reached, inside'⟩ := first.within holds inside
      exact (ih holds inside (spares.mono (List.subset_append_left ..))).append
        (ih' (holds.later reached) inside' (spares.mono (List.subset_append_right ..)))
  | fault _ ih => exact ih holds inside spares
  | linger _ store _ _ ih =>
      exact (ih holds inside (spares.mono (List.subset_append_left ..))).append (.same store)
  | @opens home m m₁ m₂ m₃ t t' label traced bound params body made scope _ arguments binds some ih =>
      have change : Store.Change m.scope m.store m₁.store := made ▸ .frame label traced
      have holds' := holds.later (change.reaches inside)
      obtain ⟨reached, _⟩ := arguments.within holds' (scope ▸ inside)
      have prepared := ih holds' (scope ▸ inside) (spares.mono fun event early => by simp [early])
      -- evaluating the arguments has put nothing into the frame, so a name that is bound twice in it
      -- is twice among the parameters
      have bound' : Steady exempt m₂ t' m₃ := by
        apply binds.steady []
        · intro name binding before
          rw [reached.unused holds made] at before
          cases before
        · intro name twice
          refine spares _ m.scope params body name (by simp) (Nat.le_trans twice ?_)
          exact (some.sublist.map Parameter.name).count_le name
      exact ((Steady.state change.stable).append prepared).append bound'.call
  | hollow _ store _ _ ih =>
      exact (ih holds inside (spares.mono (List.subset_append_left ..))).append (.same store)
  | @call home around m m₁ m₂ m₃ m₄ t t' frame params body begun enteredStore enteredScope _ _ store
      scope _ ih runs =>
      have inner := begun.body_holds holds inside enteredStore
      have opened := ih holds inside (spares.mono fun event early => by simp [early])
      have ran := runs inner (enteredScope ▸ List.suffix_rfl)
        (spares.mono fun event late => by simp [late])
      exact (opened.body enteredStore ran).append (.same store)
  | @broken home around m m₁ m₂ m₃ t t' frame params body stage begun enteredStore enteredScope _
      _ ih runs =>
      have inner := begun.body_holds holds inside enteredStore
      have opened := ih holds inside (spares.mono fun event early => by simp [early])
      have ran := runs inner (enteredScope ▸ List.suffix_rfl)
        (spares.mono fun event late => by simp [late])
      exact opened.body enteredStore ran

end Course

namespace Run

/-- The name belongs to several parameters of a function, and the frame to a call of it. -/
def Shared (t : List Event) (frame : Nat) (name : String) : Prop :=
  ∃ around params body, .call (frame :: around) params body ∈ t ∧
    2 ≤ (params.map Parameter.name).count name

/-- In every run, whether it is completed or fails, bindings are stable from each point to each later
one. The points leave nothing out: there is at most one write from each to the next, and the last is
the machine that the run leaves. -/
theorem evalProgram_stable (fuel : Nat) (program : List Expr) (scope : Scope) (verbose : Bool)
    (folder : Option Path) (machine : Machine) (holds : machine.store.Holds scope) :
    let t := history fuel program scope verbose folder machine
    let left := ((evalProgram fuel program scope verbose folder).exec machine).2
    Traced machine t left ∧
      (machine :: states t).Pairwise fun p q => p.store.Stable (Shared t) q.store := by
  intro t left
  obtain ⟨entered, rest, stage, store, here, began, course⟩ :=
    history_course fuel program scope verbose folder machine
  have spares : Spares (Shared t) rest := by
    intro frame around params body name called twice
    have recorded : .call (frame :: around) params body ∈ history fuel program scope verbose folder
        machine := began ▸ List.mem_cons_of_mem _ called
    exact ⟨around, params, body, recorded, twice⟩
  have steady := (Steady.same store).append
    (course.steady (store ▸ holds) (here ▸ List.suffix_rfl) spares)
  rw [List.singleton_append, ← began] at steady
  exact ⟨history_traced fuel program scope verbose folder machine, steady.between⟩

/-- A call binds the name of a parameter twice and defines a variable, and then a constant is
reassigned, at which the run fails. -/
theorem evalProgram_stable_constant :
    let machine := Machine.fresh (.ofInput "" false) .none false
    let program : List Expr := [.assign (some "const") "c" (.int 1),
      .define "f" [.mk "a" (some "const") (.datum .null), .mk "a" (some "let") (.datum .null)]
        [.assign (some "let") "b" (.ident "c"), .ret (.ident "b")],
      .call "f" [.int 2, .int 3], .assign none "c" (.int 4)]
    let t := history 9 program [0] false none machine
    machine.store.Holds [0] ∧
      ((evalProgram 9 program [0] false none).exec machine).1.isOk = false ∧
      (machine :: states t).Pairwise fun p q => p.store.Stable (Shared t) q.store := by
  intro machine program t
  have holds : machine.store.Holds [0] := ⟨by decide, by decide⟩
  refine ⟨holds, ?_, (evalProgram_stable 9 program [0] false none machine holds).2⟩
  decide +kernel

end Run

end Scriptlet
