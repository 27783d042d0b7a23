import Mathlib.Data.List.Forall2
import Scriptlet.Proofs.Evaluation.Operations
import Scriptlet.Proofs.Expr.Fitting

set_option autoImplicit false

/-!
What two runs of the same program have to share so that they go on alike. A `Link` says which names
they look for, which frames of the one store are partners of which frames of the other, how the numbers
of functions correspond, and how the outputs compare. The stores of two linked runs may differ in
everything else: in further frames, in bindings of other names, and in the numbers themselves.

The runs may also be those of one call that is made from different places. Such a link is `enclosed`.
The frames that the call makes are its own, in which it may bind any name and then look for it, while
the frames of its callers in the second run are passed by.
-/

namespace Scriptlet

/-- A binding with other numbers for the functions in it. -/
def Binding.renumber (f : Nat → Nat) : Binding → Binding
  | .record r => .record { r with value := r.value.renumber f }
  | .function v => .function (v.renumber f)

/-- Two outcomes with the same fault, or with related results. -/
inductive Outcomes {α : Type} (related : α → α → Prop) : Except Fault α → Except Fault α → Prop
  | ok {a b : α} (result : related a b) : Outcomes related (.ok a) (.ok b)
  | error (fault : Fault) : Outcomes related (.error fault) (.error fault)

/-- How two runs hang together. -/
structure Link where
  /-- The names that are looked for anywhere. -/
  known : String → Prop
  /-- The frames that hold the same. -/
  partners : Nat → Nat → Prop
  /-- The renumberings of the two runs under which functions are the same, when so many functions were
  made in the first one. -/
  numbering : Nat → (Nat → Nat) → (Nat → Nat) → Prop
  /-- What may have been written in both. -/
  heard : String → String → Prop
  /-- Whether what is written does not count. -/
  muted : Prop
  /-- What the names that are not looked for are bound to in the frames of the two runs. It stays. -/
  hidden : Nat → String → Option Binding
  hidden' : Nat → String → Option Binding
  /-- Whether modules may be found. They may look for any name. -/
  finds : Prop
  /-- How many frames there are at least. -/
  old : Nat
  /-- Whether the runs are those of one call. -/
  enclosed : Prop
  /-- The frames of the second run that a call passes by. -/
  passed : Nat → Prop
  partner_iff : ∀ {i i' j j' : Nat}, partners i j → partners i' j' → (i = i' ↔ j = j')
  partner_passed : ∀ {i j : Nat}, partners i j → ¬ passed j
  numbering_exists : ∀ n, ∃ f g, numbering n f g
  numbering_le : ∀ {n n' : Nat} {f g : Nat → Nat}, n ≤ n' → numbering n' f g → numbering n f g
  distinct_left : ∀ {n : Nat} {f g : Nat → Nat}, numbering n f g → Function.Injective f
  distinct_right : ∀ {n : Nat} {f g : Nat → Nat}, numbering n f g → Function.Injective g
  heard_append : ∀ {a b : String} (text : String), heard a b → heard (a ++ text) (b ++ text)
  heard_of_muted : muted → ∀ a b, heard a b
  known_of_finds : finds → ∀ name, known name

/-- Where frames of the first run were made: the scope around each. -/
abbrev Chain := Nat → Option Scope

/-- The next frame is made in a scope. -/
def Chain.extend (chain : Chain) (i : Nat) (s : Scope) : Chain :=
  fun k => if k = i then some s else chain k

namespace Link

/-- Where no module is found, nothing has to be known of it. -/
theorem known_of_none {known : String → Prop} (finds : False) (name : String) : known name :=
  finds.elim

variable (link : Link)

/-- Two values are the same, when so many functions were made. -/
def Same (n : Nat) (v w : Value) : Prop := ∀ f g, link.numbering n f g → v.renumber f = w.renumber g

/-- A value that a program brings along into both runs. -/
def Fixed (v : Value) : Prop := link.Same 0 v v

/-- A frame that the call has made itself. -/
def Own (i : Nat) : Prop := link.enclosed ∧ link.old ≤ i

/-- A name that is the same in a frame and its partner. -/
def Counts (i : Nat) (name : String) : Prop := link.known name ∨ link.Own i

/-- A name that a parameter may have. -/
def Admits (name : String) : Prop := link.known name ∨ link.enclosed

/-- A name that may be looked for from a scope: one that is looked for anywhere, or that the call has
bound itself. -/
def Knows (a : Store) (s : Scope) (name : String) : Prop :=
  link.known name ∨ ∃ k ∈ s, link.Own k ∧ a.Binds k name

/-- A name that may be looked for from every scope that a frame lies in. -/
def Sees (chain : Chain) (a : Store) (i : Nat) (name : String) : Prop :=
  link.known name ∨ link.Own i ∧ ∃ s, chain i = some s ∧ link.Knows a (i :: s) name

/-- An expression can be run in both from a scope. -/
def Fits (a : Store) (s : Scope) (imports : Bool) (e : Expr) : Prop :=
  Expr.Fits link.Admits link.Fixed (link.Knows a s) imports e

/-- A function can be called in both where some names may be looked for. -/
def Callable (knows : String → Prop) (f : Value) : Prop :=
  ∀ serial address name params body, f = .function serial address name params body →
    Expr.BodyFits link.Admits link.Fixed knows params body

/-- Two bindings are the same. -/
inductive Bound (n : Nat) : Binding → Binding → Prop
  | record {r s : Record} (value : link.Same n r.value s.value) (type : r.type = s.type)
      (binding : r.binding = s.binding) : Bound n (.record r) (.record s)
  | function {f g : Value} (same : link.Same n f g) : Bound n (.function f) (.function g)

/-- Two frames bind the names that count to the same. Where searches are traced and heard, they bind the
same names in the same order. The frames of a call are not traced. -/
structure Frames (n i : Nat) (a b : Frame) : Prop where
  traced : a.traced = b.traced
  silent : link.Own i → a.traced = false
  names : link.muted ∨ (a.traced = true → a.names = b.names)
  bindings : ∀ name, link.Counts i name → Option.Rel (link.Bound n) (a.find? name) (b.find? name)

/-- Two stores have the same in frames that are partners. Frames to be made are partners in the order
in which they will be made. -/
structure Stores (n : Nat) (chain : Chain) (a b : Store) : Prop where
  frames : ∀ i j, link.partners i j → Option.Rel (link.Frames n i) (a.frame? i) (b.frame? j)
  functions : ∀ i j name f, link.partners i j → link.Counts i name →
    a.binding? i name = some (.function f) → link.Callable (link.Sees chain a i) f
  fresh : ∀ t, link.partners (a.frames.size + t) (b.frames.size + t)
  hidden : ∀ i name, ¬ link.Counts i name → a.binding? i name = link.hidden i name
  hidden' : ∀ j name, ¬ link.known name → (∀ i, link.partners i j → ¬ link.Own i) →
    b.binding? j name = link.hidden' j name
  clear : ∀ j name, link.passed j → link.known name → ¬ b.Binds j name
  made : ∀ i s, chain i = some s → i < a.frames.size
  old : link.old ≤ a.frames.size

/-- Two scopes see partners, those of the call first. Between these and the others the second may see
frames that are passed by. -/
inductive Scopes (chain : Chain) : Scope → Scope → Prop
  | nil : Scopes chain [] []
  | cons {i j : Nat} {s t callers : Scope} (partners : link.partners i j)
      (made : link.Own i → chain i = some s) (order : ∀ k ∈ s, link.Own k → link.Own i)
      (between : callers = [] ∨
        link.Own i ∧ (∀ k ∈ s, ¬ link.Own k) ∧ ∀ k ∈ callers, link.passed k)
      (outer : Scopes chain s t) : Scopes chain (i :: s) (j :: (callers ++ t))

/-- Two texts are the same, or do not count. -/
def Texts (a b : String) : Prop := link.muted ∨ a = b

variable {link} {n n' : Nat} {v w v' w' : Value}

section Values

theorem Same.mono (same : link.Same n v w) (le : n ≤ n') : link.Same n' v w :=
  fun f g numbering => same f g (link.numbering_le le numbering)

theorem Fixed.same (fixed : link.Fixed v) : link.Same n v v := Same.mono fixed (Nat.zero_le n)

theorem fixed_of_unnumbered (unnumbered : v.Unnumbered) : link.Fixed v :=
  fun f g _ => (unnumbered f).trans (unnumbered g).symm

theorem same_of_unnumbered (unnumbered : v.Unnumbered) : link.Same n v v :=
  (fixed_of_unnumbered unnumbered).same

theorem same_str (s : String) : link.Same n (.str s) (.str s) :=
  same_of_unnumbered (Value.unnumbered_str s)

theorem same_null : link.Same n .null .null := same_of_unnumbered Value.unnumbered_null

/-- What does not depend on the numbers of functions is the same of two values that are the same. -/
theorem Same.congr {β : Type} {q : Value → β} (same : link.Same n v w)
    (blind : ∀ f v, q (Value.renumber f v) = q v) : q v = q w := by
  obtain ⟨f, g, numbering⟩ := link.numbering_exists n
  rw [← blind f v, same f g numbering, blind g w]

theorem Same.map {q : Value → Value} (same : link.Same n v w)
    (commutes : ∀ f v, q (Value.renumber f v) = (q v).renumber f) : link.Same n (q v) (q w) := by
  intro f g numbering
  rw [← commutes, ← commutes, same f g numbering]

/-- Outcomes that differ in the numbers of functions only. -/
theorem outcomes_of_map {α : Type} {q : (Nat → Nat) → α → α} {o o' : Except Fault α}
    (same : ∀ f g, link.numbering n f g → o.map (q f) = o'.map (q g)) :
    Outcomes (fun a b => ∀ f g, link.numbering n f g → q f a = q g b) o o' := by
  obtain ⟨f, g, numbering⟩ := link.numbering_exists n
  have alike := same f g numbering
  cases o with
  | error fault =>
      cases o' with
      | error fault' =>
          obtain rfl := Except.error.inj alike
          exact .error fault
      | ok b => cases alike
  | ok a =>
      cases o' with
      | error fault' => cases alike
      | ok b => exact .ok fun f g numbering => Except.ok.inj (same f g numbering)

theorem Same.outcomes {q : Value → Except Fault Value} (same : link.Same n v w)
    (commutes : ∀ f v, q (Value.renumber f v) = (q v).map (Value.renumber f)) :
    Outcomes (link.Same n) (q v) (q w) := by
  apply outcomes_of_map
  intro f g numbering
  rw [← commutes, ← commutes, same f g numbering]

theorem Same.apply (op : Operator) (left : link.Same n v w) (right : link.Same n v' w') :
    Outcomes (link.Same n) (op.apply v v') (op.apply w w') := by
  apply outcomes_of_map
  intro f g numbering
  rw [← op.apply_renumber (link.distinct_left numbering),
    ← op.apply_renumber (link.distinct_right numbering), left f g numbering, right f g numbering]

theorem same_items {items others : List Value} (each : List.Forall₂ (link.Same n) items others) :
    link.Same n (.list items) (.list others) := by
  intro f g numbering
  have mapped : items.map (Value.renumber f) = others.map (Value.renumber g) := by
    induction each with
    | nil => rfl
    | cons first rest ih => rw [List.map_cons, List.map_cons, first f g numbering, ih]
  rw [Value.renumber_list, Value.renumber_list, mapped]

theorem forall_same_of_map {items others : List Value}
    (same : ∀ f g, link.numbering n f g →
      items.map (Value.renumber f) = others.map (Value.renumber g)) :
    List.Forall₂ (link.Same n) items others := by
  obtain ⟨f, g, numbering⟩ := link.numbering_exists n
  induction items generalizing others with
  | nil =>
      have none := same f g numbering
      cases others with
      | nil => exact .nil
      | cons w others => cases none
  | cons v items ih =>
      cases others with
      | nil => cases same f g numbering
      | cons w others =>
          refine .cons (fun f g numbering => (List.cons.inj (same f g numbering)).1) (ih ?_)
          exact fun f g numbering => (List.cons.inj (same f g numbering)).2

theorem Same.items {items : List Value} (same : link.Same n (.list items) w) :
    ∃ others, w = .list others ∧ List.Forall₂ (link.Same n) items others := by
  obtain ⟨f, g, numbering⟩ := link.numbering_exists n
  have alike := same f g numbering
  cases w with
  | list others =>
      refine ⟨others, rfl, forall_same_of_map fun f g numbering => ?_⟩
      have inner := same f g numbering
      simpa using inner
  | _ => simp [Value.renumber] at alike

theorem Same.items_right {others : List Value} (same : link.Same n v (.list others)) :
    ∃ items, v = .list items := by
  obtain ⟨f, g, numbering⟩ := link.numbering_exists n
  have alike := same f g numbering
  cases v with
  | list items => exact ⟨items, rfl⟩
  | _ => simp [Value.renumber] at alike

/-- What is the same as a function is the function under a number that corresponds. -/
theorem Same.function {serial : Nat} {address name : String} {params : List Parameter}
    {body : List Expr} (same : link.Same n (.function serial address name params body) w) :
    ∃ serial', w = .function serial' address name params body := by
  obtain ⟨f, g, numbering⟩ := link.numbering_exists n
  have alike := same f g numbering
  cases w with
  | function serial' address' name' params' body' =>
      simp only [Value.renumber, Value.function.injEq] at alike
      obtain ⟨-, rfl, rfl, rfl, rfl⟩ := alike
      exact ⟨serial', rfl⟩
  | _ => simp [Value.renumber] at alike

theorem Same.builtin {f : Builtin} (same : link.Same n (.builtin f) w) : w = .builtin f := by
  obtain ⟨f', g, numbering⟩ := link.numbering_exists n
  have alike := same f' g numbering
  cases w <;> simp_all [Value.renumber]

end Values

/-- What was bound in a store still is, and what was made in a scope was made there. -/
structure Kept (chain chain' : Chain) (a b : Store) : Prop where
  binds : ∀ i name, a.Binds i name → b.Binds i name
  chain : ∀ i s, chain i = some s → chain' i = some s

section Names

variable {chain chain' chain₃ : Chain} {a b c : Store} {s t : Scope} {i : Nat} {name : String}

theorem Kept.refl (chain : Chain) (a : Store) : Kept chain chain a a :=
  ⟨fun _ _ bound => bound, fun _ _ made => made⟩

theorem Kept.trans (first : Kept chain chain' a b) (second : Kept chain' chain₃ b c) :
    Kept chain chain₃ a c :=
  ⟨fun i name bound => second.binds i name (first.binds i name bound),
    fun i s made => second.chain i s (first.chain i s made)⟩

theorem kept_put (chain : Chain) (a : Store) (i : Nat) (name : String) (x : Binding) :
    Kept chain chain a (a.put i name x) :=
  ⟨fun _ _ bound => Store.binds_put.mpr (Or.inl bound), fun _ _ made => made⟩

theorem kept_extend (chain : Chain) (a : Store) (s : Scope) (label : Option String)
    (made : ∀ i s, chain i = some s → i < a.frames.size) :
    Kept chain (chain.extend a.frames.size s) a (a.extend s label false).2 := by
  refine ⟨fun i name bound => ?_, fun i t before => ?_⟩
  · rw [Store.Binds, Store.binding?_extend]
    exact bound
  · rw [Chain.extend, if_neg (Nat.ne_of_lt (made i t before))]
    exact before

theorem Knows.kept (knows : link.Knows a s name) (kept : Kept chain chain' a b) :
    link.Knows b s name := by
  rcases knows with known | ⟨k, sees, own, bound⟩
  · exact Or.inl known
  · exact Or.inr ⟨k, sees, own, kept.binds k name bound⟩

theorem Knows.inward (knows : link.Knows a s name) (within : s <:+ t) : link.Knows a t name := by
  rcases knows with known | ⟨k, sees, own, bound⟩
  · exact Or.inl known
  · exact Or.inr ⟨k, within.subset sees, own, bound⟩

/-- Where there is no frame of the call, only what is known anywhere is known. -/
theorem Knows.known (knows : link.Knows a s name) (outside : ∀ k ∈ s, ¬ link.Own k) :
    link.known name := by
  rcases knows with known | ⟨k, sees, own, -⟩
  · exact known
  · exact absurd own (outside k sees)

theorem Sees.kept (sees : link.Sees chain a i name) (kept : Kept chain chain' a b) :
    link.Sees chain' b i name := by
  rcases sees with known | ⟨own, s, made, knows⟩
  · exact Or.inl known
  · exact Or.inr ⟨own, s, kept.chain i s made, knows.kept kept⟩

theorem Fits.kept {imports : Bool} {e : Expr} (fits : link.Fits a s imports e)
    (kept : Kept chain chain' a b) : link.Fits b s imports e :=
  fits.mono (fun _ => id) (fun _ => id) fun _ knows => knows.kept kept

theorem Callable.mono {knows knows' : String → Prop} {f : Value} (callable : link.Callable knows f)
    (le : ∀ x, knows x → knows' x) : link.Callable knows' f :=
  fun serial address name params body is =>
    (callable serial address name params body is).mono (fun _ => id) (fun _ => id) le

end Names

section Scopes

variable {chain chain' : Chain} {a b : Store} {s t outer : Scope} {i j : Nat} {name : String}

theorem Scopes.kept (scopes : link.Scopes chain s t) (kept : Kept chain chain' a b) :
    link.Scopes chain' s t := by
  induction scopes with
  | nil => exact .nil
  | cons partners made order between _ ih =>
      exact .cons partners (fun own => kept.chain _ _ (made own)) order between ih

theorem Scopes.eq_nil_iff (scopes : link.Scopes chain s t) : s = [] ↔ t = [] := by
  cases scopes <;> simp

/-- A scope without frames of the call has a partner at every place. -/
theorem Scopes.length_eq (scopes : link.Scopes chain s t) (outside : ∀ k ∈ s, ¬ link.Own k) :
    s.length = t.length := by
  induction scopes with
  | nil => rfl
  | cons partners made order between outer ih =>
      obtain ⟨here, further⟩ := List.forall_mem_cons.mp outside
      obtain rfl := between.resolve_right fun past => here past.1
      rw [List.length_cons, List.nil_append, List.length_cons, ih further]

theorem Scopes.inner (outer : link.Scopes chain s t) (partners : link.partners i j)
    (made : link.Own i → chain i = some s) (order : ∀ k ∈ s, link.Own k → link.Own i) :
    link.Scopes chain (i :: s) (j :: t) := by
  have scopes : link.Scopes chain (i :: s) (j :: ([] ++ t)) :=
    .cons partners made order (Or.inl rfl) outer
  exact scopes

/-- Outside of a call, scopes that see partners are all that is asked for. -/
theorem scopes_of_partners (unenclosed : ¬ link.enclosed) (partners : List.Forall₂ link.partners s t) :
    link.Scopes chain s t := by
  induction partners with
  | nil => exact .nil
  | cons first rest ih =>
      exact ih.inner first (fun own => absurd own.1 unenclosed) fun _ _ own => absurd own.1 unenclosed

theorem Scopes.tail (scopes : link.Scopes chain s t) (unenclosed : ¬ link.enclosed) :
    link.Scopes chain s.tail t.tail := by
  cases scopes with
  | nil => exact .nil
  | cons partners made order between outer =>
      obtain rfl := between.resolve_right fun past => unenclosed past.1.1
      exact outer

/-- What may be looked for from a scope counts in its innermost frame. -/
theorem Scopes.counts (scopes : link.Scopes chain (i :: outer) t)
    (knows : link.Knows a (i :: outer) name) : link.Counts i name := by
  cases scopes with
  | cons partners made order between rest =>
      rcases knows with known | ⟨k, sees, own, -⟩
      · exact Or.inl known
      · rcases List.mem_cons.mp sees with rfl | sees
        · exact Or.inr own
        · exact Or.inr (order k sees own)

theorem Scopes.sees_iff (scopes : link.Scopes chain (i :: outer) t) :
    link.Sees chain a i name ↔ link.Knows a (i :: outer) name := by
  have counts : link.Knows a (i :: outer) name → link.Counts i name := scopes.counts
  cases scopes with
  | cons partners made order between rest =>
      constructor
      · rintro (known | ⟨own, s, is, knows⟩)
        · exact Or.inl known
        · obtain rfl := Option.some.inj (is.symm.trans (made own))
          exact knows
      · intro knows
        rcases counts knows with known | own
        · exact Or.inl known
        · exact Or.inr ⟨own, _, made own, knows⟩

end Scopes

section Bindings

variable {chain : Chain} {a b : Store} {i j : Nat} {s t : Scope} {name : String}

/-- Bindings are the same if they are under all numbers that correspond. -/
theorem bound_iff {x y : Binding} :
    link.Bound n x y ↔ ∀ f g, link.numbering n f g → x.renumber f = y.renumber g := by
  constructor
  · intro bound f g numbering
    cases bound with
    | record value type binding =>
        simp only [Binding.renumber, value f g numbering, type, binding]
    | function same => simp only [Binding.renumber, same f g numbering]
  · intro same
    obtain ⟨f, g, numbering⟩ := link.numbering_exists n
    have equal := same f g numbering
    cases x with
    | record r =>
        cases y with
        | function w => cases equal
        | record s =>
            obtain ⟨-, type, binding⟩ := Record.mk.inj (Binding.record.inj equal)
            refine .record (fun f g numbering => ?_) type binding
            exact congrArg Record.value (Binding.record.inj (same f g numbering))
    | function v =>
        cases y with
        | record s => cases equal
        | function w => exact .function fun f g numbering => Binding.function.inj (same f g numbering)

theorem rel_bound_iff {x y : Option Binding} :
    Option.Rel (link.Bound n) x y ↔
      ∀ f g, link.numbering n f g → x.map (Binding.renumber f) = y.map (Binding.renumber g) := by
  constructor
  · intro related f g numbering
    cases related with
    | none => rfl
    | some bound => exact congrArg some (bound_iff.mp bound f g numbering)
  · intro same
    obtain ⟨f, g, numbering⟩ := link.numbering_exists n
    have equal := same f g numbering
    cases x with
    | none =>
        cases y with
        | none => exact .none
        | some y => cases equal
    | some x =>
        cases y with
        | none => cases equal
        | some y =>
            exact .some (bound_iff.mpr fun f g numbering => Option.some.inj (same f g numbering))

theorem Bound.mono {x y : Binding} (bound : link.Bound n x y) (le : n ≤ n') : link.Bound n' x y := by
  cases bound with
  | record value type binding => exact .record (value.mono le) type binding
  | function same => exact .function (same.mono le)

theorem Bound.toValue {x y : Binding} (bound : link.Bound n x y) :
    link.Same n x.toValue y.toValue := by
  cases bound with
  | function same => exact same
  | @record r s value type binding =>
      intro f g numbering
      have inner := value f g numbering
      simp only [Binding.toValue, Record.toValue, Value.renumber_obj, Value.renumberEntries, inner,
        type, binding, Value.renumber_str]
      cases s.binding <;> simp

theorem rel_imp {α : Type} {r r' : α → α → Prop} (weaken : ∀ a b, r a b → r' a b) {x y : Option α}
    (related : Option.Rel r x y) : Option.Rel r' x y := by
  cases related with
  | none => exact .none
  | some here => exact .some (weaken _ _ here)

theorem Frames.mono {a b : Frame} (frames : link.Frames n i a b) (le : n ≤ n') :
    link.Frames n' i a b :=
  { frames with
    bindings := fun name counts =>
      rel_imp (fun _ _ bound => bound.mono le) (frames.bindings name counts) }

theorem Stores.mono (stores : link.Stores n chain a b) (le : n ≤ n') : link.Stores n' chain a b :=
  { stores with
    frames := fun i j partners =>
      rel_imp (fun _ _ frames => frames.mono le) (stores.frames i j partners) }

theorem Stores.binding (stores : link.Stores n chain a b) (partners : link.partners i j)
    (counts : link.Counts i name) :
    Option.Rel (link.Bound n) (a.binding? i name) (b.binding? j name) := by
  have frames := stores.frames i j partners
  unfold Store.binding?
  generalize a.frame? i = x at frames
  generalize b.frame? j = y at frames
  cases frames with
  | none => exact .none
  | some frames => exact frames.bindings name counts

theorem isSome_eq {α : Type} {r : α → α → Prop} {x y : Option α} (related : Option.Rel r x y) :
    x.isSome = y.isSome := by
  cases related <;> rfl

/-- The parts of two scopes that begin where a name is bound. -/
inductive Seen (link : Link) (chain : Chain) (a : Store) (s : Scope) (name : String) :
    Scope → Scope → Prop
  | intro {i j : Nat} {outer outer' : Scope} (scopes : link.Scopes chain (i :: outer) (j :: outer'))
      (partners : link.partners i j) (within : i :: outer <:+ s) (counts : link.Counts i name)
      (bound : a.Binds i name) : Seen link chain a s name (i :: outer) (j :: outer')

/-- A name that may be looked for is found in partners, or in neither store. A search that leaves the
frames of the call is for a name that is known anywhere, which the callers do not bind. -/
theorem Stores.find (stores : link.Stores n chain a b) (scopes : link.Scopes chain s t)
    (knows : link.Knows a s name) :
    Option.Rel (link.Seen chain a s name) (a.find s name) (b.find t name) := by
  induction scopes with
  | nil => exact .none
  | @cons i j s t callers partners made order between outer ih =>
      have whole : link.Scopes chain (i :: s) (j :: (callers ++ t)) :=
        .cons partners made order between outer
      have counts := whole.counts knows
      have same := isSome_eq (stores.binding partners counts)
      rw [Store.find, Store.find, ← same]
      split
      · rename_i bound
        exact .some (.intro whole partners (List.suffix_refl _) counts bound)
      · rename_i unbound
        have further : link.Knows a s name := by
          rcases knows with known | ⟨k, sees, own, bound⟩
          · exact Or.inl known
          · rcases List.mem_cons.mp sees with rfl | sees
            · exact absurd bound unbound
            · exact Or.inr ⟨k, sees, own, bound⟩
        have passes : b.find (callers ++ t) name = b.find t name := by
          rcases between with rfl | ⟨-, outside, passed⟩
          · rfl
          · exact Store.find_append_of_unbound callers fun k sees =>
              stores.clear k name (passed k sees) (further.known outside)
        rw [passes]
        refine rel_imp (fun _ _ seen => ?_) (ih further)
        obtain ⟨scopes, partners, within, counts, bound⟩ := seen
        exact .intro scopes partners (within.trans (List.suffix_cons i s)) counts bound

/-- Two places where a name was found from a scope, with what it is bound to there. -/
structure Found (link : Link) (chain : Chain) (a : Store) (s : Scope) (name : String) (n : Nat)
    (x y : Nat × Binding) : Prop where
  partners : link.partners x.1 y.1
  counts : link.Counts x.1 name
  bound : link.Bound n x.2 y.2
  inside : ∃ outer t, link.Scopes chain (x.1 :: outer) t ∧ x.1 :: outer <:+ s
  callable : ∀ f, x.2 = .function f → link.Callable (link.Knows a s) f

/-- What a name stands for is the same, and can be called from where it was looked for. -/
theorem Stores.get (stores : link.Stores n chain a b) (scopes : link.Scopes chain s t)
    (knows : link.Knows a s name) :
    Outcomes (link.Found chain a s name n) (a.get s name) (b.get t name) := by
  have found := stores.find scopes knows
  unfold Store.get
  generalize a.find s name = x at found
  generalize b.find t name = y at found
  cases found with
  | none => exact .error _
  | some seen =>
      obtain @⟨i, j, outer, outer', scopes, partners, within, counts, -⟩ := seen
      have binding := stores.binding partners counts
      have functions := stores.functions i j name
      dsimp only
      generalize a.binding? i name = x at binding functions ⊢
      generalize b.binding? j name = y at binding ⊢
      cases binding with
      | none => exact .error _
      | some bound =>
          refine .ok ⟨partners, counts, bound, ⟨outer, _, scopes, within⟩, fun f is => ?_⟩
          refine (functions f partners counts (congrArg some is)).mono fun x sees => ?_
          exact (scopes.sees_iff.mp sees).inward within

end Bindings

section Traces

variable {chain : Chain} {a b : Store} {s t : Scope} {name : String}

theorem Stores.isTraced (stores : link.Stores n chain a b) (scopes : link.Scopes chain s t) :
    a.isTraced s = b.isTraced t := by
  cases scopes with
  | nil => rfl
  | @cons i j s t callers partners =>
      have frames := stores.frames i j partners
      simp only [Store.isTraced]
      generalize a.frame? i = x at frames ⊢
      generalize b.frame? j = y at frames ⊢
      cases frames with
      | none => rfl
      | some frames => exact frames.traced

/-- A traced scope lies outside of the call. -/
theorem Stores.outside (stores : link.Stores n chain a b) (scopes : link.Scopes chain s t)
    (traced : a.isTraced s = true) : ∀ k ∈ s, ¬ link.Own k := by
  cases scopes with
  | nil => exact List.forall_mem_nil _
  | @cons i j s t callers partners made order =>
      have foreign : ¬ link.Own i := by
        intro own
        have frames := stores.frames i j partners
        simp only [Store.isTraced] at traced
        generalize a.frame? i = x at frames traced
        generalize b.frame? j = y at frames
        cases frames with
        | none => cases traced
        | some frames => exact Bool.false_ne_true ((frames.silent own).symm.trans traced)
      exact List.forall_mem_cons.mpr ⟨foreign, fun k sees own => foreign (order k sees own)⟩

theorem Stores.names (stores : link.Stores n chain a b) (scopes : link.Scopes chain s t)
    (heard : ¬ link.muted) (traced : a.isTraced s = true) : a.names s = b.names t := by
  cases scopes with
  | nil => rfl
  | @cons i j s t callers partners =>
      have frames := stores.frames i j partners
      simp only [Store.isTraced] at traced
      simp only [Store.names]
      generalize a.frame? i = x at frames traced ⊢
      generalize b.frame? j = y at frames ⊢
      cases frames with
      | none => rfl
      | some frames => exact frames.names.resolve_left heard traced

theorem Stores.visits (stores : link.Stores n chain a b) (scopes : link.Scopes chain s t)
    (outside : ∀ k ∈ s, ¬ link.Own k) (known : link.known name) (seen : String) :
    a.visits seen s name = b.visits seen t name := by
  induction scopes with
  | nil => rfl
  | @cons i j s t callers partners made order between outer ih =>
      obtain ⟨here, further⟩ := List.forall_mem_cons.mp outside
      obtain rfl := between.resolve_right fun past => here past.1
      have depth : Scope.depth (i :: s) = Scope.depth (j :: t) := by
        simp only [Scope.depth, List.length_cons, outer.length_eq further]
      rw [List.nil_append, Store.visits, Store.visits, ih further, depth,
        isSome_eq (stores.binding partners (Or.inl known))]

/-- Searches are traced outside of the call only, where a name has to be known anywhere. -/
theorem Stores.searchTrace (stores : link.Stores n chain a b) (scopes : link.Scopes chain s t)
    (known : (∀ k ∈ s, ¬ link.Own k) → link.known name) :
    link.Texts (a.searchTrace s name) (b.searchTrace t name) := by
  by_cases muted : link.muted
  · exact Or.inl muted
  · refine Or.inr ?_
    unfold Store.searchTrace
    rw [← stores.isTraced scopes]
    split
    · rename_i traced
      have outside := stores.outside scopes traced
      rw [stores.names scopes muted traced, stores.visits scopes outside (known outside)]
    · rfl

theorem Texts.append {x y x' y' : String} (first : link.Texts x y) (second : link.Texts x' y') :
    link.Texts (x ++ x') (y ++ y') := by
  rcases first with muted | rfl
  · exact Or.inl muted
  · rcases second with muted | rfl
    · exact Or.inl muted
    · exact Or.inr rfl

theorem Stores.setTrace (stores : link.Stores n chain a b) (scopes : link.Scopes chain s t)
    (knows : link.Knows a s name) : link.Texts (a.setTrace s name) (b.setTrace t name) := by
  have found := stores.find scopes knows
  refine Texts.append (stores.searchTrace scopes knows.known) ?_
  generalize a.find s name = x at found ⊢
  generalize b.find t name = y at found ⊢
  cases found with
  | none => exact Or.inr rfl
  | some seen =>
      obtain ⟨scopes, partners, within, counts, bound⟩ := seen
      refine stores.searchTrace scopes fun outside => ?_
      exact counts.resolve_right (outside _ List.mem_cons_self)

theorem Stores.defineTrace (stores : link.Stores n chain a b) (scopes : link.Scopes chain s t)
    (knows : link.Knows a s name) : link.Texts (a.defineTrace s name) (b.defineTrace t name) := by
  have missing : (a.find s name).isNone = (b.find t name).isNone := by
    have found := stores.find scopes knows
    generalize a.find s name = x at found ⊢
    generalize b.find t name = y at found ⊢
    cases found <;> rfl
  refine Texts.append (stores.searchTrace scopes knows.known) (Or.inr ?_)
  rw [← stores.isTraced scopes, ← missing]
  cases traced : a.isTraced s with
  | false => rfl
  | true => simp only [Scope.depth, scopes.length_eq (stores.outside scopes traced)]

end Traces

section Changes

variable {chain : Chain} {a b : Store} {i j : Nat} {s t : Scope} {name : String}

theorem Frames.put {x y : Binding} {a b : Frame} (frames : link.Frames n i a b)
    (bound : link.Bound n x y) (name : String) : link.Frames n i (a.put name x) (b.put name y) where
  traced := frames.traced
  silent := frames.silent
  names := by
    rcases frames.names with muted | names
    · exact Or.inl muted
    · refine Or.inr fun traced => ?_
      rw [Frame.names_put, Frame.names_put, names traced]
  bindings other counts := by
    rw [Frame.find?_put, Frame.find?_put]
    split
    · exact .some bound
    · exact frames.bindings other counts

/-- The same is bound to a name that counts, in partners. A function is one that can be called from
wherever it will be found. -/
theorem Stores.put {x y : Binding} (stores : link.Stores n chain a b) (partners : link.partners i j)
    (counts : link.Counts i name) (bound : link.Bound n x y)
    (callable : ∀ f, x = .function f → link.Callable (link.Sees chain a i) f) :
    link.Stores n chain (a.put i name x) (b.put j name y) where
  frames i' j' partners' := by
    have frames := stores.frames i' j' partners'
    rw [Store.frame?_put, Store.frame?_put]
    by_cases here : i = i'
    · obtain rfl := here
      rw [if_pos rfl, if_pos ((link.partner_iff partners partners').mp rfl)]
      generalize a.frame? i = x' at frames ⊢
      generalize b.frame? j' = y' at frames ⊢
      cases frames with
      | none => exact .none
      | some frames => exact .some (frames.put bound name)
    · have there : ¬ j = j' := fun same => here ((link.partner_iff partners partners').mpr same)
      rw [if_neg here, if_neg there]
      exact frames
  functions i' j' name' f partners' counts' found := by
    have before : link.Callable (link.Sees chain a i') f := by
      rw [Store.binding?_put] at found
      split at found
      · rename_i here
        obtain ⟨-, rfl, -⟩ := here
        exact callable f (Option.some.inj found)
      · exact stores.functions i' j' name' f partners' counts' found
    exact before.mono fun x sees => sees.kept (kept_put chain a i name _)
  fresh := by simpa using stores.fresh
  hidden i' wanted other := by
    rw [Store.binding?_put, if_neg]
    · exact stores.hidden i' wanted other
    · rintro ⟨-, rfl, rfl⟩
      exact other counts
  hidden' j' wanted unknown foreign := by
    rw [Store.binding?_put, if_neg]
    · exact stores.hidden' j' wanted unknown foreign
    · rintro ⟨-, rfl, rfl⟩
      exact counts.elim unknown (foreign i partners)
  clear j' wanted passed known bound := by
    rcases Store.binds_put.mp bound with before | ⟨-, rfl, -⟩
    · exact stores.clear j' wanted passed known before
    · exact link.partner_passed partners passed
  made i' s before := by simpa using stores.made i' s before
  old := by simpa using stores.old

theorem Stores.extend (stores : link.Stores n chain a b) (s t : Scope) (label : Option String) :
    link.Stores n (chain.extend a.frames.size s) (a.extend s label false).2
      (b.extend t label false).2 where
  frames i j partners := by
    have last : a.frames.size = i ↔ b.frames.size = j := link.partner_iff (stores.fresh 0) partners
    rw [Store.frame?_extend, Store.frame?_extend]
    by_cases here : i = a.frames.size
    · have there := last.mp here.symm
      rw [if_pos here, if_pos there.symm]
      exact .some ⟨rfl, fun _ => rfl, Or.inr fun _ => rfl, fun name counts => .none⟩
    · have there : ¬ j = b.frames.size := fun same => here (last.mpr same.symm).symm
      rw [if_neg here, if_neg there]
      exact stores.frames i j partners
  functions i j name f partners counts found := by
    rw [Store.binding?_extend] at found
    refine (stores.functions i j name f partners counts found).mono fun x sees => ?_
    exact sees.kept (kept_extend chain a s label stores.made)
  fresh t := by
    rw [Store.size_extend, Store.size_extend, Nat.add_assoc, Nat.add_assoc]
    exact stores.fresh (1 + t)
  hidden i name other := by
    rw [Store.binding?_extend]
    exact stores.hidden i name other
  hidden' j name unknown foreign := by
    rw [Store.binding?_extend]
    exact stores.hidden' j name unknown foreign
  clear j name passed known := by
    rw [Store.Binds, Store.binding?_extend]
    exact stores.clear j name passed known
  made i s before := by
    rw [Store.size_extend]
    unfold Chain.extend at before
    split at before
    · rename_i last
      exact Nat.lt_succ_of_le (Nat.le_of_eq last)
    · exact Nat.lt_succ_of_lt (stores.made i s before)
  old := by
    rw [Store.size_extend]
    exact Nat.le_succ_of_le stores.old

/-- The frames that are made next see each other, inside of scopes that do. -/
theorem Stores.opened (stores : link.Stores n chain a b) (scopes : link.Scopes chain s t)
    (label : Option String) :
    link.Scopes (chain.extend a.frames.size s) (a.frames.size :: s) (b.frames.size :: t) := by
  have outer := scopes.kept (kept_extend chain a s label stores.made)
  exact outer.inner (stores.fresh 0) (fun _ => if_pos rfl) fun _ _ own => ⟨own.1, stores.old⟩

/-- The same is done to two stores, and with the same outcome. -/
structure Parallel {α : Type} (link : Link) (n : Nat) (chain : Chain) (a : Store)
    (related : α → α → Prop) (o o' : Except Fault α × Store) : Prop where
  outcome : Outcomes related o.1 o'.1
  stores : link.Stores n chain o.2 o'.2
  kept : Kept chain chain a o.2

theorem parallel_error {α : Type} {related : α → α → Prop} (stores : link.Stores n chain a b)
    (fault : Fault) : Parallel link n chain a related (.error fault, a) (.error fault, b) :=
  ⟨.error fault, stores, .refl chain a⟩

theorem parallel_put {α : Type} {related : α → α → Prop} {x y : Binding} {e e' : Except Fault α}
    (stores : link.Stores n chain a b) (partners : link.partners i j) (counts : link.Counts i name)
    (bound : link.Bound n x y)
    (callable : ∀ f, x = .function f → link.Callable (link.Sees chain a i) f)
    (outcome : Outcomes related e e') :
    Parallel link n chain a related (e, a.put i name x) (e', b.put j name y) :=
  ⟨outcome, stores.put partners counts bound callable, kept_put chain a i name x⟩

theorem parallel_putRecord {α : Type} {related : α → α → Prop} {r r' : Record}
    {e e' : Except Fault α} (stores : link.Stores n chain a b) (partners : link.partners i j)
    (counts : link.Counts i name) (bound : link.Bound n (.record r) (.record r'))
    (outcome : Outcomes related e e') :
    Parallel link n chain a related (e, a.put i name (.record r)) (e', b.put j name (.record r')) :=
  parallel_put stores partners counts bound (fun _ is => Binding.noConfusion is) outcome

theorem parallel_bindRecord (stores : link.Stores n chain a b) (partners : link.partners i j)
    (counts : link.Counts i name) (same : link.Same n v w) (binding : Option String) :
    Parallel link n chain a (link.Same n) (a.bindRecord i name v binding)
      (b.bindRecord j name w binding) := by
  have type : v.typeName? = w.typeName? := same.congr fun f v => Value.typeName?_renumber v
  unfold Store.bindRecord Store.recordFor
  rw [type]
  cases w.typeName? with
  | none => exact parallel_error stores _
  | some type => exact parallel_putRecord stores partners counts (.record same rfl rfl) (.ok same)

theorem parallel_update {r r' : Record} (stores : link.Stores n chain a b)
    (partners : link.partners i j) (counts : link.Counts i name) (same : link.Same n v w)
    (type : r.type = r'.type) (binding : r.binding = r'.binding) :
    Parallel link n chain a (link.Same n) (a.update i name r v) (b.update j name r' w) := by
  have named : v.typeName? = w.typeName? := same.congr fun f v => Value.typeName?_renumber v
  unfold Store.update
  rw [named]
  cases w.typeName? with
  | none => exact parallel_putRecord stores partners counts (.record same type binding) (.error _)
  | some type => exact parallel_putRecord stores partners counts (.record same rfl binding) (.ok same)

theorem parallel_setParameter (stores : link.Stores n chain a b) (scopes : link.Scopes chain s t)
    (counts : ∀ i outer, s = i :: outer → link.Counts i name) (same : link.Same n v w)
    (binding : Option String) :
    Parallel link n chain a (link.Same n) (a.setParameter s name v binding)
      (b.setParameter t name w binding) := by
  cases scopes with
  | nil => exact parallel_error stores _
  | cons partners => exact parallel_bindRecord stores partners (counts _ _ rfl) same binding

/-- A name that may be looked for but is not found is known anywhere. -/
theorem Knows.known_of_missing (knows : link.Knows a s name) (missing : a.find s name = none) :
    link.known name := by
  rcases knows with known | ⟨k, sees, -, bound⟩
  · exact known
  · exact absurd bound (Store.find_eq_none.mp missing k sees)

theorem parallel_set (stores : link.Stores n chain a b) (scopes : link.Scopes chain s t)
    (knows : link.Knows a s name) (same : link.Same n v w) (binding : Option String) :
    Parallel link n chain a (link.Same n) (a.set s name v binding) (b.set t name w binding) := by
  have found := stores.find scopes knows
  have known := knows.known_of_missing
  unfold Store.set
  generalize a.find s name = x at found known ⊢
  generalize b.find t name = y at found ⊢
  cases found with
  | none =>
      dsimp only
      split
      · exact parallel_error stores _
      · exact parallel_setParameter stores scopes (fun _ _ _ => Or.inl (known rfl)) same binding
  | some seen =>
      obtain @⟨i, j, outer, outer', -, partners, -, counts, -⟩ := seen
      dsimp only
      split
      · exact parallel_error stores _
      · have bound := stores.binding partners counts
        generalize a.binding? i name = x at bound ⊢
        generalize b.binding? j name = y at bound ⊢
        cases bound with
        | none => exact parallel_error stores _
        | some bound =>
            cases bound with
            | function same => exact parallel_error stores _
            | record value type binding =>
                dsimp only
                rw [binding]
                split
                · exact parallel_error stores _
                · exact parallel_update stores partners counts same type binding

theorem parallel_defineFunction (stores : link.Stores n chain a b) (scopes : link.Scopes chain s t)
    (knows : link.Knows a s name) (same : link.Same n v w)
    (callable : link.Callable (link.Knows a s) v) :
    Parallel link n chain a (link.Same n) (a.defineFunction s name v) (b.defineFunction t name w) := by
  have found := stores.find scopes knows
  have known := knows.known_of_missing
  unfold Store.defineFunction
  generalize a.find s name = x at found known ⊢
  generalize b.find t name = y at found ⊢
  cases found with
  | some seen => exact parallel_error stores _
  | none =>
      cases scopes with
      | nil => exact parallel_error stores _
      | cons partners made order between outer =>
          refine parallel_put stores partners (Or.inl (known rfl)) (.function same) ?_ (.ok same)
          intro f is
          cases is
          have whole := Scopes.cons partners made order between outer
          exact callable.mono fun x knows => whole.sees_iff.mpr knows

end Changes

end Link

end Scriptlet
