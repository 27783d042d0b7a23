import Scriptlet.Store

set_option autoImplicit false

/-!
What the operations on the store do to the bindings of its frames. Every operation leaves the store
alone, makes an empty frame, or puts one binding into one frame; `Change` says which binding that can
be, and `set_change` and `defineFunction_change` that nothing else happens.
-/

namespace Scriptlet

namespace Frame

theorem find?_putEntry (name other : String) (binding : Binding)
    (entries : List (String × Binding)) :
    ((putEntry name binding entries).find? fun e => e.1 = other).map (·.2) =
      if name = other then some binding else (entries.find? fun e => e.1 = other).map (·.2) := by
  induction entries with
  | nil => by_cases same : name = other <;> simp [putEntry, same]
  | cons e rest ih =>
      obtain ⟨key, old⟩ := e
      by_cases here : key = name
      · subst here
        by_cases same : key = other <;> simp [putEntry, same]
      · simp only [putEntry, here, ↓reduceIte, List.find?_cons]
        by_cases wanted : key = other
        · have different : ¬ name = other := fun same => here (wanted.trans same.symm)
          simp [wanted, different]
        · simpa [wanted] using ih

theorem find?_put (frame : Frame) (name other : String) (binding : Binding) :
    (frame.put name binding).find? other =
      if name = other then some binding else frame.find? other :=
  find?_putEntry name other binding frame.entries

theorem names_put (frame : Frame) (name : String) (binding : Binding) :
    (frame.put name binding).names =
      if name ∈ frame.names then frame.names else frame.names ++ [name] := by
  have entries (l : List (String × Binding)) : (putEntry name binding l).map (·.1) =
      if name ∈ l.map (·.1) then l.map (·.1) else l.map (·.1) ++ [name] := by
    induction l with
    | nil => simp [putEntry]
    | cons e rest ih =>
        by_cases here : e.1 = name
        · simp [putEntry, here]
        · have other : ¬ name = e.1 := fun same => here same.symm
          simp only [putEntry, here, ↓reduceIte, List.map_cons, ih, List.mem_cons, other, false_or]
          split <;> rfl
  exact entries frame.entries

/-- A frame with something else in place of each binding. -/
def map (q : String → Binding → Binding) (frame : Frame) : Frame :=
  { frame with entries := frame.entries.map fun e => (e.1, q e.1 e.2) }

theorem find?_map (q : String → Binding → Binding) (frame : Frame) (name : String) :
    (frame.map q).find? name = (frame.find? name).map (q name) := by
  obtain ⟨label, traced, entries⟩ := frame
  simp only [find?, map]
  induction entries with
  | nil => rfl
  | cons e rest ih =>
      by_cases here : e.1 = name
      · simp [here]
      · simpa [here] using ih

end Frame

/-- The names of the types that variables can have. -/
def Value.typeNames : List String := ["int", "float", "string", "obj"]

theorem Value.typeName?_mem {v : Value} {type : String} (known : v.typeName? = some type) :
    type ∈ typeNames := by
  cases v <;> simp_all [typeName?, typeNames]

/-- Whether a value can be called. -/
def Value.isFunction : Value → Bool
  | .builtin _ | .function .. => true
  | _ => false

/-- A record has one of the types that variables can have, and a function is one. -/
def Binding.Typed : Binding → Prop
  | .record r => r.type ∈ Value.typeNames
  | .function f => f.isFunction = true

namespace Store

variable {store : Store} {scope : Scope} {id : Nat} {name : String}

/-- A name is bound in a frame. -/
def Binds (store : Store) (id : Nat) (name : String) : Prop := (store.binding? id name).isSome

/-- A scope is a chain of frames of the store, each made after those around it. -/
structure Holds (store : Store) (scope : Scope) : Prop where
  made : ∀ id ∈ scope, id < store.frames.size
  nested : scope.Pairwise (· > ·)

theorem lt_size_of_binds (bound : store.Binds id name) : id < store.frames.size := by
  rcases Nat.lt_or_ge id store.frames.size with made | outside
  · exact made
  · have missing : store.frame? id = none := Array.getElem?_eq_none outside
    simp [Binds, binding?, missing] at bound

@[simp] theorem size_put (store : Store) (id : Nat) (name : String) (binding : Binding) :
    (store.put id name binding).frames.size = store.frames.size :=
  Array.size_modify

@[simp] theorem size_extend (store : Store) (scope : Scope) (label : Option String) (traced : Bool) :
    (store.extend scope label traced).2.frames.size = store.frames.size + 1 :=
  Array.size_push _

theorem frame?_put (store : Store) (id : Nat) (name : String) (binding : Binding) (other : Nat) :
    (store.put id name binding).frame? other =
      if id = other then (store.frame? other).map (·.put name binding) else store.frame? other :=
  Array.getElem?_modify

theorem binding?_put (store : Store) (id : Nat) (name : String) (binding : Binding) (other : Nat)
    (wanted : String) :
    (store.put id name binding).binding? other wanted =
      if id < store.frames.size ∧ id = other ∧ name = wanted then some binding
      else store.binding? other wanted := by
  rw [binding?, frame?_put]
  by_cases here : id = other
  · subst here
    by_cases made : id < store.frames.size
    · have found : store.frame? id = some store.frames[id] := Array.getElem?_eq_getElem made
      simp [binding?, found, Frame.find?_put, made]
    · have missing : store.frame? id = none := Array.getElem?_eq_none (Nat.le_of_not_lt made)
      simp [binding?, missing, made]
  · simp [binding?, here]

/-- A frame that was just made binds nothing, as before it was made. -/
@[simp] theorem binding?_extend (store : Store) (scope : Scope) (label : Option String)
    (traced : Bool) (id : Nat) (name : String) :
    (store.extend scope label traced).2.binding? id name = store.binding? id name := by
  by_cases last : id = store.frames.size
  · subst last
    simp [binding?, frame?, extend, Frame.empty, Frame.find?]
  · simp [binding?, frame?, extend, Array.getElem?_push, last]

theorem binding?_of_size_le {store : Store} {id : Nat} (outside : store.frames.size ≤ id)
    (name : String) : store.binding? id name = none := by
  have missing : store.frame? id = none := Array.getElem?_eq_none outside
  simp [binding?, missing]

theorem binds_put {store : Store} {id other : Nat} {name wanted : String} {binding : Binding} :
    (store.put id name binding).Binds other wanted ↔
      store.Binds other wanted ∨ id < store.frames.size ∧ id = other ∧ name = wanted := by
  unfold Binds
  rw [binding?_put]
  split
  · rename_i here
    exact ⟨fun _ => Or.inr here, fun _ => rfl⟩
  · rename_i elsewhere
    simp only [elsewhere, or_false]

theorem find_eq_none : store.find scope name = none ↔ ∀ id ∈ scope, ¬ store.Binds id name := by
  induction scope with
  | nil => simp [find]
  | cons id outer ih =>
      by_cases bound : (store.binding? id name).isSome = true
      · simp only [find, bound, ↓reduceIte, reduceCtorEq, false_iff]
        intro unbound
        exact unbound id List.mem_cons_self bound
      · simp only [find, bound, Bool.false_eq_true, ↓reduceIte, ih, Binds, List.forall_mem_cons,
          not_false_eq_true, true_and]

/-- A name is found in a frame of the scope that binds it. -/
theorem find_eq_some {found : Scope} (search : store.find scope name = some found) :
    ∃ id outer, found = id :: outer ∧ id ∈ scope ∧ store.Binds id name := by
  induction scope with
  | nil => cases search
  | cons id outer ih =>
      by_cases bound : (store.binding? id name).isSome = true
      · simp only [find, bound, ↓reduceIte, Option.some.injEq] at search
        exact ⟨id, outer, search.symm, List.mem_cons_self, bound⟩
      · simp only [find, bound, Bool.false_eq_true, ↓reduceIte] at search
        obtain ⟨there, around, first, seen, binds⟩ := ih search
        exact ⟨there, around, first, List.mem_cons_of_mem id seen, binds⟩

/-- A search looks only at what the frames of its scope bind the name to. -/
theorem get_congr {other : Store}
    (same : ∀ id ∈ scope, other.binding? id name = store.binding? id name) :
    other.get scope name = store.get scope name := by
  have found : other.find scope name = store.find scope name := by
    induction scope with
    | nil => rfl
    | cons id outer ih =>
        rw [find, find, same id List.mem_cons_self,
          ih fun id seen => same id (List.mem_cons_of_mem _ seen)]
  rw [get, get, found]
  cases search : store.find scope name with
  | none => rfl
  | some there =>
      obtain ⟨id, outer, rfl, seen, -⟩ := find_eq_some search
      simp only [same id seen]

theorem binding?_congr {other : Store} (same : other.frame? id = store.frame? id) :
    other.binding? id name = store.binding? id name := by
  rw [binding?, binding?, same]

theorem get_extend (store : Store) (around scope : Scope) (label : Option String) (traced : Bool)
    (name : String) : (store.extend around label traced).2.get scope name = store.get scope name :=
  get_congr fun id _ => binding?_extend store around label traced id name

theorem frame?_extend (store : Store) (scope : Scope) (label : Option String) (traced : Bool)
    (id : Nat) :
    (store.extend scope label traced).2.frame? id =
      if id = store.frames.size then some (.empty label traced) else store.frame? id :=
  Array.getElem?_push

theorem untraced_extend (untraced : store.isTraced scope = false) (around : Scope)
    (label : Option String) :
    (store.extend around label false).2.isTraced scope = false := by
  cases scope with
  | nil => rfl
  | cons id outer =>
      rw [isTraced, frame?_extend]
      split
      · rfl
      · exact untraced

theorem find_append_of_unbound (inner : Scope) (unbound : ∀ id ∈ inner, ¬ store.Binds id name) :
    store.find (inner ++ scope) name = store.find scope name := by
  induction inner with
  | nil => rfl
  | cons id outer ih =>
      have here : ¬ (store.binding? id name).isSome = true := unbound id List.mem_cons_self
      rw [List.cons_append, find, if_neg here]
      exact ih fun other sees => unbound other (List.mem_cons_of_mem id sees)

theorem get_of_find {outer : Scope} {binding : Binding}
    (found : store.find scope name = some (id :: outer))
    (bound : store.binding? id name = some binding) : store.get scope name = .ok (id, binding) := by
  simp [get, found, bound]

theorem searchTrace_of_untraced (untraced : store.isTraced scope = false) (name : String) :
    store.searchTrace scope name = "" := by
  rw [searchTrace, untraced]
  rfl

/-- What an operation from a scope can do to the store. A variable keeps how it was bound, and a name is
defined only where no frame of the scope binds it. -/
inductive Change (scope : Scope) (store : Store) : Store → Prop
  | nothing : Change scope store store
  | frame (label : Option String) (traced : Bool) :
      Change scope store (store.extend scope label traced).2
  | reassign {id : Nat} {name : String} {old new : Record} (seen : id ∈ scope)
      (bound : store.binding? id name = some (.record old))
      (notConst : old.binding ≠ some "const") (kept : new.binding = old.binding)
      (typed : new.type ∈ Value.typeNames ∨ new.type = old.type) :
      Change scope store (store.put id name (.record new))
  | define {id : Nat} {outer : Scope} {name : String} {binding : Binding}
      (innermost : scope = id :: outer) (undefined : store.find scope name = none)
      (typed : binding.Typed) : Change scope store (store.put id name binding)

theorem recordFor_ok {value : Value} {binding : Option String} {r : Record}
    (made : recordFor value binding = .ok r) :
    r.binding = binding ∧ r.type ∈ Value.typeNames := by
  unfold recordFor at made
  split at made
  · rename_i type known
    cases made
    exact ⟨rfl, Value.typeName?_mem known⟩
  · cases made

/-- Binding a record in a frame puts one record there, or fails and leaves the store alone. -/
theorem bindRecord_cases (store : Store) (id : Nat) (name : String) (value : Value)
    (binding : Option String) :
    (∃ r, store.bindRecord id name value binding = (.ok value, store.put id name (.record r)) ∧
        r.binding = binding ∧ r.type ∈ Value.typeNames) ∨
      ∃ fault, store.bindRecord id name value binding = (.error fault, store) := by
  unfold bindRecord
  cases made : recordFor value binding with
  | ok r => exact Or.inl ⟨r, rfl, recordFor_ok made⟩
  | error fault => exact Or.inr ⟨fault, rfl⟩

theorem setParameter_change (store : Store) (scope : Scope) (name : String) (value : Value)
    (binding : Option String) (undefined : store.find scope name = none) :
    Change scope store (store.setParameter scope name value binding).2 := by
  cases scope with
  | nil => exact .nothing
  | cons id outer =>
      rcases bindRecord_cases store id name value binding with ⟨r, put, _, typed⟩ | ⟨fault, failed⟩
      · simp only [setParameter, put]
        exact .define rfl undefined typed
      · simp only [setParameter, failed]
        exact .nothing

theorem update_change {r : Record} (seen : id ∈ scope)
    (bound : store.binding? id name = some (.record r)) (notConst : r.binding ≠ some "const")
    (value : Value) : Change scope store (store.update id name r value).2 := by
  unfold update
  split
  · rename_i type known
    exact .reassign seen bound notConst rfl (Or.inl (Value.typeName?_mem known))
  · exact .reassign seen bound notConst rfl (Or.inr rfl)

theorem set_change (store : Store) (scope : Scope) (name : String) (value : Value)
    (binding : Option String) : Change scope store (store.set scope name value binding).2 := by
  unfold set
  split
  · rename_i id outer search
    obtain ⟨there, _, first, seen, _⟩ := find_eq_some search
    cases first
    split
    · exact .nothing
    · split
      · rename_i r bound
        split
        · exact .nothing
        · rename_i notConst
          exact update_change seen bound notConst value
      · exact .nothing
  · rename_i missing
    split
    · exact .nothing
    · refine setParameter_change store scope name value binding ?_
      cases search : store.find scope name with
      | none => rfl
      | some found =>
          obtain ⟨id, outer, first, _⟩ := find_eq_some search
          exact absurd (first ▸ search) (missing id outer)

theorem defineFunction_change (store : Store) (scope : Scope) (name : String) {f : Value}
    (function : f.isFunction = true) : Change scope store (store.defineFunction scope name f).2 := by
  unfold defineFunction
  split
  · exact .nothing
  · rename_i search
    exact .define rfl search function
  · exact .nothing

/-- Every binding of a store is typed. -/
def Typed (store : Store) : Prop :=
  ∀ id name binding, store.binding? id name = some binding → binding.Typed

theorem Typed.put {binding : Binding} (typed : store.Typed) (new : binding.Typed) :
    (store.put id name binding).Typed := by
  intro other wanted found bound
  rw [binding?_put] at bound
  split at bound
  · cases bound
    exact new
  · exact typed other wanted found bound

theorem Change.typed {after : Store} (change : Change scope store after) (typed : store.Typed) :
    after.Typed := by
  cases change with
  | nothing => exact typed
  | frame label traced =>
      intro id name binding bound
      rw [binding?_extend] at bound
      exact typed id name binding bound
  | @reassign id name old new seen bound notConst kept hasType =>
      refine typed.put ?_
      rcases hasType with known | same
      · exact known
      · have before : old.type ∈ Value.typeNames := typed id name _ bound
        rw [Binding.Typed, same]
        exact before
  | define _ _ hasType => exact typed.put hasType

section Map

/-- A store with something else in place of each binding. -/
def map (q : String → Binding → Binding) (store : Store) : Store := ⟨store.frames.map (·.map q)⟩

variable (q : String → Binding → Binding) (store : Store)

theorem frame?_map (id : Nat) : (store.map q).frame? id = (store.frame? id).map (·.map q) :=
  Array.getElem?_map

theorem binding?_map (id : Nat) (name : String) :
    (store.map q).binding? id name = (store.binding? id name).map (q name) := by
  rw [binding?, binding?, frame?_map]
  cases store.frame? id with
  | none => rfl
  | some frame => exact frame.find?_map q name

theorem isTraced_map (scope : Scope) : (store.map q).isTraced scope = store.isTraced scope := by
  cases scope with
  | nil => rfl
  | cons id outer =>
      rw [isTraced, isTraced, frame?_map]
      cases store.frame? id <;> rfl

theorem names_map (scope : Scope) : (store.map q).names scope = store.names scope := by
  cases scope with
  | nil => rfl
  | cons id outer =>
      rw [names, names, frame?_map]
      cases store.frame? id with
      | none => rfl
      | some frame => simp [Frame.names, Frame.map]

end Map

end Store

end Scriptlet
