import Scriptlet.Proofs.Evaluation.Operations
import Scriptlet.Proofs.Evaluation.Refusal

set_option autoImplicit false

/-!
What the store holds when a variable has been set. Setting puts one record into one frame: into the
nearest frame that binds the name when a variable is reassigned, and into the innermost frame when it is
defined or is a parameter. The name then means the new record, and whatever is read of another name, from
any scope, is as before.
-/

namespace Scriptlet

namespace Store

variable {store : Store} {scope : Scope} {id : Nat} {name : String}

/-- The first frame of a scope, from the inside, that binds a name. -/
structure Nearest (store : Store) (scope : Scope) (name : String) (id : Nat) : Prop where
  binds : store.Binds id name
  first : ∃ inner outer, scope = inner ++ id :: outer ∧ ∀ there ∈ inner, ¬ store.Binds there name

/-- Two stores differ at most in what one frame binds one name to. -/
structure ChangesOnly (before after : Store) (id : Nat) (name : String) : Prop where
  frames : ∀ other, other ≠ id → after.frame? other = before.frame? other
  bindings : ∀ wanted, wanted ≠ name → after.binding? id wanted = before.binding? id wanted

/-- A search passes over frames that do not bind the name. -/
theorem find_passes {found : Scope} (search : store.find scope name = some found) :
    ∃ inner, scope = inner ++ found ∧ ∀ there ∈ inner, ¬ store.Binds there name := by
  induction scope with
  | nil => cases search
  | cons id outer ih =>
      by_cases bound : (store.binding? id name).isSome = true
      · rw [find, if_pos bound] at search
        exact ⟨[], Option.some.inj search, fun _ inside => absurd inside List.not_mem_nil⟩
      · rw [find, if_neg bound] at search
        obtain ⟨inner, rfl, unbound⟩ := ih search
        exact ⟨id :: inner, rfl, List.forall_mem_cons.mpr ⟨bound, unbound⟩⟩

theorem get_nearest {binding : Binding} (found : store.get scope name = .ok (id, binding)) :
    store.Nearest scope name id ∧ store.binding? id name = some binding := by
  obtain ⟨outer, search, bound⟩ := get_ok found
  obtain ⟨inner, split, unbound⟩ := find_passes search
  exact ⟨⟨by rw [Binds, bound]; rfl, inner, outer, split, unbound⟩, bound⟩

theorem binding?_put_other {other : Nat} {binding : Binding} {wanted : String}
    (differs : wanted ≠ name) :
    (store.put id name binding).binding? other wanted = store.binding? other wanted := by
  rw [binding?_put, if_neg]
  rintro ⟨-, -, rfl⟩
  exact differs rfl

theorem changesOnly_put (store : Store) (id : Nat) (name : String) (binding : Binding) :
    store.ChangesOnly (store.put id name binding) id name where
  frames other elsewhere := by
    rw [frame?_put, if_neg elsewhere.symm]
  bindings wanted differs := binding?_put_other differs

/-- Reading another name is not affected by what a frame binds this one to. -/
theorem get_put_other {wanted : String} (differs : wanted ≠ name) (binding : Binding)
    (other : Scope) : (store.put id name binding).get other wanted = store.get other wanted :=
  get_congr fun _ _ => binding?_put_other differs

/-- A binding is read where no frame nearer than its own binds the name. -/
theorem get_put_first {inner outer : Scope} (made : id < store.frames.size)
    (unbound : ∀ there ∈ inner, ¬ store.Binds there name) (binding : Binding) :
    (store.put id name binding).get (inner ++ id :: outer) name = .ok (id, binding) := by
  have bound : (store.put id name binding).binding? id name = some binding := by
    rw [binding?_put, if_pos ⟨made, rfl, rfl⟩]
  have found : ∃ around, (store.put id name binding).find (inner ++ id :: outer) name =
      some (id :: around) := by
    induction inner with
    | nil => exact ⟨outer, by simp [find, bound]⟩
    | cons there inner ih =>
        obtain ⟨here, others⟩ := List.forall_mem_cons.mp unbound
        -- the frame itself may stand further in as well, and is then found there
        by_cases same : there = id
        · exact ⟨inner ++ id :: outer, by simp [find, same, bound]⟩
        · have passed : ¬ ((store.put id name binding).binding? there name).isSome = true := by
            rw [← Binds, binds_put]
            exact not_or.mpr ⟨here, fun put => same put.2.1.symm⟩
          rw [List.cons_append, find, if_neg passed]
          exact ih others
  obtain ⟨around, search⟩ := found
  exact get_of_find search bound

theorem mem_names_of_find? {frame : Frame} (bound : (frame.find? name).isSome) :
    name ∈ frame.names := by
  rw [Frame.find?, Option.isSome_map, List.find?_isSome] at bound
  obtain ⟨entry, inside, same⟩ := bound
  exact List.mem_map.mpr ⟨entry, inside, by simpa using same⟩

/-- Putting a binding in place of another one adds no name to any frame. -/
theorem names_put_bound (bound : store.Binds id name) (binding : Binding) (there : Nat) :
    ((store.put id name binding).frame? there).map Frame.names =
      (store.frame? there).map Frame.names := by
  rw [frame?_put]
  split
  · rename_i here
    subst here
    cases made : store.frame? id with
    | none => rfl
    | some frame =>
        rw [Binds, binding?, made, Option.bind_some] at bound
        rw [Option.map_some, Option.map_some, Option.map_some, Frame.names_put,
          if_pos (mem_names_of_find? bound)]
  · rfl

theorem update_ok {old : Record} {value result : Value} {after : Store}
    (done : store.update id name old value = (.ok result, after)) :
    result = value ∧ ∃ type, value.typeName? = some type ∧
      after = store.put id name (.record ⟨value, type, old.binding⟩) := by
  unfold update at done
  split at done
  · rename_i type typed
    cases done
    exact ⟨rfl, type, typed, rfl⟩
  · cases done

theorem setParameter_ok {value result : Value} {binding : Option String} {after : Store}
    (done : store.setParameter scope name value binding = (.ok result, after)) :
    result = value ∧ ∃ type, value.typeName? = some type ∧ ∃ id outer, scope = id :: outer ∧
      after = store.put id name (.record ⟨value, type, binding⟩) := by
  cases scope with
  | nil => cases done
  | cons id outer =>
      unfold setParameter bindRecord recordFor at done
      cases typed : value.typeName? with
      | none =>
          simp only [typed] at done
          cases done
      | some type =>
          simp only [typed] at done
          cases done
          exact ⟨rfl, type, rfl, id, outer, rfl, rfl⟩

/-- A variable is set by reassigning the one that is found, or by defining one. -/
theorem set_ok {value result : Value} {binding : Option String} {after : Store}
    (done : store.set scope name value binding = (.ok result, after)) :
    (binding = none ∧ ∃ id old, store.get scope name = .ok (id, .record old) ∧
        store.update id name old value = (.ok result, after)) ∨
      (binding ≠ none ∧ store.setParameter scope name value binding = (.ok result, after)) := by
  unfold set at done
  split at done
  · rename_i id outer search
    split at done
    · cases done
    · rename_i reassigned
      split at done
      · rename_i old bound
        split at done
        · cases done
        · exact Or.inl ⟨by simpa using reassigned, id, old, get_of_find search bound, done⟩
      · cases done
  · split at done
    · cases done
    · rename_i defined
      refine Or.inr ⟨?_, done⟩
      rintro rfl
      exact defined rfl

end Store

namespace Operation

variable {op : Operation} {name : String} {value result : Value} {binding : Option String}
  {scope : Scope} {machine after : Machine}

/-- What a successful operation on a variable puts into the store, and where. -/
theorem apply_ok {store after : Store}
    (sets : op = .assign name value binding ∨ op = .bindParameter name value binding)
    (done : op.apply store scope = (.ok result, after)) :
    result = value ∧ ∃ type, value.typeName? = some type ∧
      ((op = .assign name value none ∧ ∃ id old, store.get scope name = .ok (id, .record old) ∧
          after = store.put id name (.record ⟨value, type, old.binding⟩)) ∨
        (op ≠ .assign name value none ∧ ∃ id outer, scope = id :: outer ∧
          after = store.put id name (.record ⟨value, type, binding⟩))) := by
  rcases sets with rfl | rfl
  · rcases Store.set_ok done with ⟨rfl, id, old, found, updated⟩ | ⟨defines, defined⟩
    · obtain ⟨same, type, typed, put⟩ := Store.update_ok updated
      exact ⟨same, type, typed, Or.inl ⟨rfl, id, old, found, put⟩⟩
    · obtain ⟨same, type, typed, put⟩ := Store.setParameter_ok defined
      refine ⟨same, type, typed, Or.inr ⟨?_, put⟩⟩
      intro reassigns
      cases reassigns
      exact defines rfl
  · obtain ⟨same, type, typed, put⟩ := Store.setParameter_ok done
    refine ⟨same, type, typed, Or.inr ⟨?_, put⟩⟩
    intro reassigns
    cases reassigns

/-- When a variable has been set from a scope, the name is read there with the value and its type. A
reassignment changes the record in the nearest frame that binds the name, keeps how it was bound, and
adds no name; a definition or a parameter changes only the innermost frame, and there only this name.
Any other name is read from any scope as before, also where that fails. -/
theorem sets_variable
    (sets : op = .assign name value binding ∨ op = .bindParameter name value binding)
    (made : ∀ id ∈ scope, id < machine.store.frames.size)
    (done : (op.perform scope).exec machine = (.ok result, after)) :
    result = value ∧
    (∃ id record, after.store.get scope name = .ok (id, .record record) ∧
      record.value = value ∧ value.typeName? = some record.type) ∧
    (op = .assign name value none → ∃ id old new, machine.store.Nearest scope name id ∧
      machine.store.binding? id name = some (.record old) ∧
      after.store.binding? id name = some (.record new) ∧
      new.value = value ∧ value.typeName? = some new.type ∧ new.binding = old.binding ∧
      machine.store.ChangesOnly after.store id name ∧
      ∀ there, (after.store.frame? there).map Frame.names =
        (machine.store.frame? there).map Frame.names) ∧
    (op ≠ .assign name value none → ∃ id outer new, scope = id :: outer ∧
      after.store.binding? id name = some (.record new) ∧
      new.value = value ∧ value.typeName? = some new.type ∧ new.binding = binding ∧
      machine.store.ChangesOnly after.store id name) ∧
    ∀ (other : Scope) (wanted : String), wanted ≠ name →
      after.store.get other wanted = machine.store.get other wanted := by
  have performed := perform_store op scope machine
  rw [done] at performed
  have applied : op.apply machine.store scope = (.ok result, after.store) :=
    Prod.ext performed.1.symm performed.2.symm
  obtain ⟨same, type, typed, reassigned | defined⟩ := apply_ok sets applied
  · obtain ⟨reassigns, id, old, found, put⟩ := reassigned
    obtain ⟨nearest, bound⟩ := Store.get_nearest found
    obtain ⟨inner, outer, split, unbound⟩ := nearest.first
    have inside := Store.lt_size_of_binds nearest.binds
    rw [put]
    refine ⟨same, ⟨id, _, split ▸ Store.get_put_first inside unbound _, rfl, typed⟩, fun _ => ?_,
      fun defines => absurd reassigns defines,
      fun other wanted differs => Store.get_put_other differs _ other⟩
    refine ⟨id, old, ⟨value, type, old.binding⟩, nearest, bound, ?_, rfl, typed, rfl,
      Store.changesOnly_put _ _ _ _, Store.names_put_bound nearest.binds _⟩
    rw [Store.binding?_put, if_pos ⟨inside, rfl, rfl⟩]
  · obtain ⟨defines, id, outer, split, put⟩ := defined
    have inside : id < machine.store.frames.size := made id (split ▸ List.mem_cons_self)
    have read : (machine.store.put id name (.record ⟨value, type, binding⟩)).get ([] ++ id :: outer)
        name = .ok (id, .record ⟨value, type, binding⟩) :=
      Store.get_put_first inside (fun _ nowhere => absurd nowhere List.not_mem_nil) _
    rw [put]
    refine ⟨same, ⟨id, _, split ▸ read, rfl, typed⟩, fun reassigns => absurd reassigns defines,
      fun _ => ?_, fun other wanted differs => Store.get_put_other differs _ other⟩
    refine ⟨id, outer, ⟨value, type, binding⟩, split, ?_, rfl, typed, rfl,
      Store.changesOnly_put _ _ _ _⟩
    rw [Store.binding?_put, if_pos ⟨inside, rfl, rfl⟩]

/-- A machine with a variable in the outermost frame and two frames side by side in it. -/
def withSiblings : Machine :=
  ((Run.extend [0] none false).exec ((Run.extend [0] none false).exec withVariable).2).2

/-- From one of the frames the variable of the outermost frame is reassigned to a value of another
type, and stays a `let`. -/
theorem sets_variable_outer :
    (∀ id ∈ [1, 0], id < withSiblings.store.frames.size) ∧ ∃ after,
      ((assign "x" (.str "a") none).perform [1, 0]).exec withSiblings = (.ok (.str "a"), after) ∧
      (∃ id old new, withSiblings.store.Nearest [1, 0] "x" id ∧
        withSiblings.store.binding? id "x" = some (.record old) ∧
        after.store.binding? id "x" = some (.record new) ∧
        new.value = .str "a" ∧ Value.typeName? (.str "a") = some new.type ∧
        new.binding = old.binding) ∧
      after.store.get [2, 0] "print" = withSiblings.store.get [2, 0] "print" := by
  have size : withSiblings.store.frames.size = 3 := rfl
  have made : ∀ id ∈ [1, 0], id < withSiblings.store.frames.size := by
    rw [size]
    decide
  have done : ((assign "x" (.str "a") none).perform [1, 0]).exec withSiblings =
      (.ok (.str "a"), _) := rfl
  obtain ⟨-, -, reassigned, -, others⟩ := sets_variable (Or.inl rfl) made done
  obtain ⟨id, old, new, nearest, before, held, value, type, binding, -⟩ := reassigned rfl
  exact ⟨made, _, done, ⟨id, old, new, nearest, before, held, value, type, binding⟩,
    others [2, 0] "print" (by decide)⟩

end Operation

end Scriptlet
