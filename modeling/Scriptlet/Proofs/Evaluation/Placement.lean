import Scriptlet.Proofs.Evaluation.Course
import Scriptlet.Proofs.Evaluation.Inclusion

set_option autoImplicit false

/-!
Where modules are looked for. The place stays until the statements of a block or of the body of a function
are entered, and from then on there is none. Both are read off the history of an evaluation: whether
anything was entered is all that matters (`Course.placed`).
-/

namespace Scriptlet

/-- After a history modules are looked for where they were before it, or nowhere if statements were
entered on the way. -/
def Placed (m : Machine) (t : List Event) (m' : Machine) : Prop :=
  m'.place = if t.any Event.isEntry then m.inside else m.place

namespace Placed

variable {m m' m'' : Machine} {t t' : List Event}

theorem given (placed : Placed m t m') : m'.files = m.files ∧ m'.host = m.host := by
  unfold Placed at placed
  split at placed
  · exact ⟨congrArg Prod.fst placed, congrArg (·.2.2.2) placed⟩
  · exact ⟨congrArg Prod.fst placed, congrArg (·.2.2.2) placed⟩

theorem stays (place : m'.place = m.place) : Placed m [.state m'] m' := place

theorem enters (place : m'.place = m.inside) : Placed m [.enter, .state m'] m' := place

theorem call {scope : Scope} {params : List Parameter} {body : List Expr} (placed : Placed m t m') :
    Placed m (.call scope params body :: t) m' :=
  placed

theorem append (first : Placed m t m') (second : Placed m' t' m'') : Placed m (t ++ t') m'' := by
  have inside : m'.inside = m.inside := by
    rw [Machine.inside, first.given.1, first.given.2, Machine.inside]
  unfold Placed at first second ⊢
  rw [List.any_append, second, inside, first]
  cases t.any Event.isEntry with
  | false => rfl
  | true => cases t'.any Event.isEntry <;> rfl

theorem body {entered : Machine} (before : Placed m t m') (place : entered.place = m'.inside)
    (ran : Placed entered t' m'') : Placed m (t ++ .enter :: .state entered :: t') m'' := by
  have all := (before.append (enters place)).append ran
  rwa [List.append_assoc] at all

end Placed

theorem Bound.placed {frame : Nat} {params : List Parameter} {m m' : Machine} {t : List Event}
    (bound : Bound frame params m t m') : Placed m t m' := by
  induction bound with
  | nil => exact rfl
  | bind _ _ _ _ place _ ih => exact (Placed.stays place).append ih

theorem Course.placed {home : Scope} {m m' : Machine} {t : List Event} {stage : Stage}
    (course : Course home m t stage m') : Placed m t m' := by
  induction course with
  | rest => exact rfl
  | step _ _ place => exact .stays place
  | home _ _ place => exact .enters place
  | block _ _ place => exact .enters place
  | seq _ _ ih ih' => exact ih.append ih'
  | fault _ ih => exact ih
  | linger _ _ _ place ih => exact ih.append (.stays place)
  | opens _ _ place _ binds _ ih =>
      exact ((Placed.stays place).append ih).append binds.placed.call
  | hollow _ _ _ place ih => exact ih.append (.stays place)
  | call _ _ _ enteredPlace _ _ _ place ih runs =>
      exact (ih.body enteredPlace runs).append (.stays place)
  | broken _ _ _ enteredPlace _ ih runs => exact ih.body enteredPlace runs

namespace Run

theorem evalAll_placed (fuel : Nat) (program : List Expr) (machine : Machine) :
    Placed machine (Recorded.evalAll (Recorded.eval fuel) program machine).2
      ((evalAll (eval fuel) program).exec machine).2 := by
  have course : Recorded.Follows machine.scope (Recorded.evalAll (Recorded.eval fuel) program) machine :=
    Recorded.evalAll_follows (Recorded.eval_follows fuel) program
  unfold Recorded.Follows at course
  rw [Recorded.evalAll_records (Recorded.eval_records fuel) program machine] at course
  exact course.placed

/-- After a statement, whether it ended well or failed, modules are looked for where they were before it,
unless the statements of a block or of the body of a function were entered: then no module is found any
more. -/
theorem eval_stays_unless_entered {fuel : Nat} {e : Expr} {machine after : Machine}
    {outcome : Except Fault Result} (ended : (eval fuel e).exec machine = (outcome, after)) :
    ∃ events, Recorded.eval fuel e machine = ((outcome, after), events) ∧
      ((∀ event ∈ events, ¬ event.isEntry) →
        after.folder = machine.folder ∧ after.verbose = machine.verbose ∧
        ∀ path, moduleText after.files after.folder path =
          moduleText machine.files machine.folder path) ∧
      ((∃ event ∈ events, event.isEntry) → after.folder = none ∧ after.verbose = false ∧
        ∀ path, ∃ fault, moduleText after.files after.folder path = .error fault) := by
  have recorded : (Recorded.eval fuel e machine).1 = (outcome, after) :=
    (Recorded.eval_records fuel e machine).trans ended
  have placed : Placed machine (Recorded.eval fuel e machine).2 after := by
    have course := Recorded.eval_follows fuel e machine.scope machine
    unfold Recorded.Follows at course
    rw [recorded] at course
    exact course.placed
  have files := placed.given.1
  refine ⟨_, Prod.ext recorded rfl, fun unentered => ?_, fun entered => ?_⟩
  · have none_entered : (Recorded.eval fuel e machine).2.any Event.isEntry = false :=
      List.any_eq_false.mpr unentered
    rw [Placed, none_entered] at placed
    have folder : after.folder = machine.folder := congrArg (·.2.1) placed
    refine ⟨folder, congrArg (·.2.2.1) placed, fun path => ?_⟩
    rw [files, folder]
  · have some_entered : (Recorded.eval fuel e machine).2.any Event.isEntry = true :=
      List.any_eq_true.mpr entered
    rw [Placed, some_entered] at placed
    have folder : after.folder = none := congrArg (·.2.1) placed
    refine ⟨folder, congrArg (·.2.2.1) placed, fun path => ?_⟩
    obtain ⟨fault, failed⟩ := moduleText_none path
    exact ⟨fault, folder ▸ failed after.files⟩

/-- The machine with a module in the folder it looks into, listing what it reads. -/
def placedMachine : Machine := { libraryMachine with folder := some .here, verbose := true }

/-- A condition that holds, and a block that only gives a number. -/
def sureBranch : Expr := .conditional "if" (.binary "==" (.int 1) (.int 1)) [.int 1] (some [])

theorem exec_sureBranch : (eval 3 sureBranch).exec placedMachine =
    (.ok (.block [.value (.int 1)]), { placedMachine with folder := none, verbose := false }) := rfl

theorem eval_sureBranch_enters :
    ∃ events, Recorded.eval 3 sureBranch placedMachine =
        ((.ok (.block [.value (.int 1)]), { placedMachine with folder := none, verbose := false }),
          events) ∧
      ∃ event ∈ events, event.isEntry := by
  obtain ⟨events, recorded, stays, -⟩ := eval_stays_unless_entered exec_sureBranch
  refine ⟨events, recorded, ?_⟩
  by_contra unentered
  push Not at unentered
  exact absurd (stays unentered).1 (by decide)

/-- A module that is found before a statement that ends well, and is not found after it. -/
theorem eval_sureBranch_displaces :
    ∃ result after text, (eval 3 sureBranch).exec placedMachine = (.ok result, after) ∧
      after.folder ≠ placedMachine.folder ∧ after.verbose ≠ placedMachine.verbose ∧
      moduleText placedMachine.files placedMachine.folder [some "lib"] = .ok text ∧
      moduleText after.files after.folder [some "lib"] = .error (.importFailed "lib") := by
  obtain ⟨text, _, _, found, _⟩ := provides_library.source
  refine ⟨_, _, text, exec_sureBranch, by decide, by decide, ?_, rfl⟩
  exact moduleText_found provides_library.plain found (by decide)

end Run

end Scriptlet
