import Scriptlet.Proofs.Evaluation.Operations

set_option autoImplicit false

/-!
What is left of the store when an operation on names fails. A failed operation changes nothing, with one
exception: a variable that is reassigned to a value of no type has the value put in before its type is
found to be missing. So all that holds for every failure is that a frame keeps its names, their order,
and of each variable how it was bound and what type it had.
-/

namespace Scriptlet

/-- A binding without the value that a variable holds. -/
def Binding.unvalued : Binding → Binding
  | .record r => .record { r with value := .null }
  | .function f => .function f

/-- A frame without the values that its variables hold. -/
def Frame.unvalued (frame : Frame) : Frame :=
  { frame with entries := frame.entries.map fun e => (e.1, e.2.unvalued) }

theorem Frame.unvalued_put {frame : Frame} {name : String} {old new : Binding}
    (bound : frame.find? name = some old) (same : new.unvalued = old.unvalued) :
    (frame.put name new).unvalued = frame.unvalued := by
  have entries (l : List (String × Binding))
      (first : (l.find? fun e => e.1 = name).map (·.2) = some old) :
      (putEntry name new l).map (fun e => (e.1, e.2.unvalued)) =
        l.map fun e => (e.1, e.2.unvalued) := by
    induction l with
    | nil => cases first
    | cons e rest ih =>
        by_cases here : e.1 = name
        · rw [List.find?_cons_of_pos (by simpa using here)] at first
          obtain rfl : e.2 = old := Option.some.inj first
          simp only [putEntry, here, ↓reduceIte, List.map_cons, same]
        · rw [List.find?_cons_of_neg (by simpa using here)] at first
          simp only [putEntry, here, ↓reduceIte, List.map_cons, ih first]
  exact congrArg (Frame.mk frame.label frame.traced) (entries frame.entries bound)

namespace Store

variable {store : Store} {scope : Scope} {id : Nat} {name : String}

theorem get_ok {binding : Binding} (found : store.get scope name = .ok (id, binding)) :
    ∃ outer, store.find scope name = some (id :: outer) ∧ store.binding? id name = some binding := by
  unfold get at found
  split at found
  · rename_i there outer search
    split at found
    · rename_i held bound
      cases found
      exact ⟨outer, search, bound⟩
    · cases found
  · cases found

theorem unvalued_put {old new : Binding} (bound : store.binding? id name = some old)
    (same : new.unvalued = old.unvalued) (other : Nat) :
    ((store.put id name new).frame? other).map Frame.unvalued =
      (store.frame? other).map Frame.unvalued := by
  rw [frame?_put]
  split
  · rename_i here
    subst here
    cases made : store.frame? id with
    | none => rfl
    | some frame =>
        rw [binding?, made, Option.bind_some] at bound
        rw [Option.map_some, Option.map_some, Option.map_some, Frame.unvalued_put bound same]
  · rfl

/-- A variable is found that may be reassigned, and the value for it has no type. -/
structure Mistyped (store : Store) (scope : Scope) (id : Nat) (name : String) (old : Record)
    (value : Value) : Prop where
  found : store.get scope name = .ok (id, .record old)
  notConst : old.binding ≠ some "const"
  untyped : value.typeName? = none

theorem Mistyped.set_eq {old : Record} {value : Value}
    (mistyped : store.Mistyped scope id name old value) :
    store.set scope name value none =
      (.error (.unassigned "val_type"), store.put id name (.record { old with value })) := by
  obtain ⟨outer, search, bound⟩ := get_ok mistyped.found
  simp [set, search, bound, mistyped.notConst, update, mistyped.untyped]

theorem setParameter_failed {value : Value} {binding : Option String} {fault : Fault} {after : Store}
    (failed : store.setParameter scope name value binding = (.error fault, after)) :
    after = store := by
  cases scope with
  | nil => exact (Prod.mk.inj failed).2.symm
  | cons id outer =>
      rcases bindRecord_cases store id name value binding with ⟨r, put, -⟩ | ⟨fault', refused⟩
      · rw [setParameter, put] at failed
        cases failed
      · rw [setParameter, refused] at failed
        exact (Prod.mk.inj failed).2.symm

theorem defineFunction_failed {f : Value} {fault : Fault} {after : Store}
    (failed : store.defineFunction scope name f = (.error fault, after)) : after = store := by
  unfold defineFunction at failed
  split at failed
  · exact (Prod.mk.inj failed).2.symm
  · cases failed
  · exact (Prod.mk.inj failed).2.symm

/-- The one way to fail that changes something is the last: the variable has been found and may be
reassigned. -/
theorem set_failed {value : Value} {binding : Option String} {fault : Fault} {after : Store}
    (failed : store.set scope name value binding = (.error fault, after)) :
    after = store ∨ binding = none ∧ ∃ id old, store.Mistyped scope id name old value := by
  unfold set at failed
  split at failed
  · rename_i id outer search
    split at failed
    · exact Or.inl (Prod.mk.inj failed).2.symm
    · rename_i reassigned
      split at failed
      · rename_i old bound
        split at failed
        · exact Or.inl (Prod.mk.inj failed).2.symm
        · rename_i notConst
          unfold update at failed
          split at failed
          · cases failed
          · rename_i untyped
            have found : store.get scope name = .ok (id, .record old) := by
              simp [get, search, bound]
            exact Or.inr ⟨by simpa using reassigned, id, old, found, notConst, untyped⟩
      · exact Or.inl (Prod.mk.inj failed).2.symm
  · split at failed
    · exact Or.inl (Prod.mk.inj failed).2.symm
    · exact Or.inl (setParameter_failed failed)

end Store

/-- The operations that give a name its meaning in a scope. -/
inductive Operation
  /-- Defines a variable with `let` or `const`, or reassigns one with neither. -/
  | assign (name : String) (value : Value) (binding : Option String)
  | bindParameter (name : String) (value : Value) (binding : Option String)
  | defineFunction (name : String) (f : Value)

namespace Operation

/-- Performs an operation from a scope. -/
def perform (scope : Scope) : Operation → Run Value
  | assign name value binding => Run.assign scope name value binding
  | bindParameter name value binding => Run.bindParameter scope name value binding
  | defineFunction name f => Run.defineFunction scope name f

/-- What an operation does to the store. -/
def apply (store : Store) (scope : Scope) : Operation → Except Fault Value × Store
  | assign name value binding => store.set scope name value binding
  | bindParameter name value binding => store.setParameter scope name value binding
  | defineFunction name f => store.defineFunction scope name f

theorem perform_store (op : Operation) (scope : Scope) (machine : Machine) :
    ((op.perform scope).exec machine).1 = (op.apply machine.store scope).1 ∧
      ((op.perform scope).exec machine).2.store = (op.apply machine.store scope).2 := by
  cases op <;> exact ⟨rfl, rfl⟩

/-- A variable is to be reassigned to a value of no type. -/
def Mistypes (op : Operation) (store : Store) (scope : Scope) (id : Nat) (name : String)
    (old : Record) (value : Value) : Prop :=
  op = .assign name value none ∧ store.Mistyped scope id name old value

theorem apply_failed {op : Operation} {store after : Store} {scope : Scope} {fault : Fault}
    (failed : op.apply store scope = (.error fault, after)) :
    after = store ∨ ∃ id name old value, op.Mistypes store scope id name old value := by
  cases op with
  | assign name value binding =>
      rcases Store.set_failed failed with same | ⟨rfl, id, old, mistyped⟩
      · exact Or.inl same
      · exact Or.inr ⟨id, name, old, value, rfl, mistyped⟩
  | bindParameter name value binding => exact Or.inl (Store.setParameter_failed failed)
  | defineFunction name f => exact Or.inl (Store.defineFunction_failed failed)

theorem Mistypes.apply_eq {op : Operation} {store : Store} {scope : Scope} {id : Nat} {name : String}
    {old : Record} {value : Value} (mistypes : op.Mistypes store scope id name old value) :
    op.apply store scope =
      (.error (.unassigned "val_type"), store.put id name (.record { old with value })) := by
  obtain ⟨rfl, mistyped⟩ := mistypes
  exact mistyped.set_eq

/-- When an operation on names fails, every frame keeps its names, their order and all but the values of
its variables. It keeps these too, unless a variable was to be reassigned to a value of no type; then
that variable holds the value, and nothing else is changed. -/
theorem failed_leaves {op : Operation} {scope : Scope} {machine after : Machine} {fault : Fault}
    (failed : (op.perform scope).exec machine = (.error fault, after)) :
    (∀ id, (after.store.frame? id).map Frame.unvalued =
        (machine.store.frame? id).map Frame.unvalued) ∧
      ((¬ ∃ id name old value, op.Mistypes machine.store scope id name old value) →
        after.store = machine.store) ∧
      ∀ id name old value, op.Mistypes machine.store scope id name old value →
        after.store = machine.store.put id name (.record { old with value }) := by
  have performed := perform_store op scope machine
  rw [failed] at performed
  have applied : op.apply machine.store scope = (.error fault, after.store) :=
    Prod.ext performed.1.symm performed.2.symm
  have put (id : Nat) (name : String) (old : Record) (value : Value)
      (mistypes : op.Mistypes machine.store scope id name old value) :
      after.store = machine.store.put id name (.record { old with value }) :=
    (Prod.mk.inj (applied.symm.trans mistypes.apply_eq)).2
  refine ⟨fun id => ?_, fun proper => (apply_failed applied).resolve_right proper, put⟩
  rcases apply_failed applied with same | ⟨there, name, old, value, mistypes⟩
  · rw [same]
  · obtain ⟨_, _, bound⟩ := Store.get_ok mistypes.2.found
    have unvalued : (Binding.record { old with value }).unvalued = (Binding.record old).unvalued := rfl
    rw [put there name old value mistypes]
    exact Store.unvalued_put bound unvalued id

/-- A machine with a variable and the builtin functions. -/
def withVariable : Machine :=
  ((Run.assign [0] "x" (.int 1) (some "let")).exec
    (.freshWithBuiltins (.ofInput "" false) .none)).2

/-- A constant parameter of a call hides the variable, and a value of no type is not put into it. -/
theorem failed_leaves_constant :
    let machine := ((Run.bindParameter [1, 0] "x" (.int 2) (some "const")).exec
      ((Run.extend [0] (some "call_f") false).exec withVariable).2).2
    ∃ after, ((assign "x" (.builtin (.print Value.noAddress)) none).perform [1, 0]).exec machine =
        (.error (.constant "x"), after) ∧ after.store = machine.store := by
  intro machine
  have failed : ((assign "x" (.builtin (.print Value.noAddress)) none).perform [1, 0]).exec machine =
      (.error (.constant "x"), _) := rfl
  refine ⟨_, failed, (failed_leaves failed).2.1 ?_⟩
  rintro ⟨id, name, old, value, same, mistyped⟩
  cases same
  obtain ⟨found, notConst, -⟩ := mistyped
  cases found
  exact notConst rfl

/-- A variable that is reassigned to a function holds the function when the assignment has failed. -/
theorem failed_assignment_changes :
    ∃ after, ((assign "x" (.builtin (.print Value.noAddress)) none).perform [0]).exec withVariable =
        (.error (.unassigned "val_type"), after) ∧
      withVariable.store.binding? 0 "x" = some (.record ⟨.int 1, "int", some "let"⟩) ∧
      after.store.binding? 0 "x" = some (.record ⟨.builtin (.print Value.noAddress), "int", some "let"⟩) ∧
      after.store ≠ withVariable.store := by
  refine ⟨_, rfl, rfl, rfl, fun same => ?_⟩
  have held := congrArg (fun store => store.binding? 0 "x") same
  cases held

end Operation

end Scriptlet
