import Scriptlet.Proofs.Evaluation.Operations
import Scriptlet.Proofs.Source.Path

set_option autoImplicit false

/-!
Objects that are kept in variables, and their properties. A variable keeps an object as it is written,
unless it has a key `value`: then the entry under that key is kept. Of a path of keys only the first one
counts when it is evaluated, and a keyword is never taken for a key.
-/

namespace Scriptlet

/-- The entry of a value at a path of keys. -/
def Value.at? : List String → Value → Option Value
  | [], v => some v
  | key :: rest, .obj entries => (Value.atKey? key entries).bind (at? rest)
  | _ :: _, _ => none

namespace Value

theorem sizeOf_atKey? {key : String} {entries : List (String × Value)} {v : Value}
    (found : atKey? key entries = some v) : sizeOf v < sizeOf entries := by
  induction entries with
  | nil => cases found
  | cons e rest ih =>
      obtain ⟨k, w⟩ := e
      rw [List.cons.sizeOf_spec, Prod.mk.sizeOf_spec]
      by_cases here : k = key
      · rw [atKey?, if_pos here] at found
        cases found
        omega
      · rw [atKey?, if_neg here] at found
        have smaller := ih found
        omega

/-- What is inside of a value is smaller. -/
theorem sizeOf_at? {path : List String} {v w : Value} (found : v.at? path = some w) :
    path = [] ∧ w = v ∨ sizeOf w < sizeOf v := by
  induction path generalizing v with
  | nil =>
      cases found
      exact .inl ⟨rfl, rfl⟩
  | cons key rest ih =>
      cases v with
      | obj entries =>
          obtain ⟨entry, inside, further⟩ := Option.bind_eq_some_iff.mp found
          have smaller := sizeOf_atKey? inside
          rw [Value.obj.sizeOf_spec]
          rcases ih further with ⟨-, rfl⟩ | deeper
          · exact .inr (by omega)
          · exact .inr (by omega)
      | _ => cases found

/-- The first key of a path leads to the end of the path only if there is no other key. -/
theorem at?_single_iff {key : String} {rest : List String} {v w : Value}
    (found : v.at? (key :: rest) = some w) : v.at? [key] = some w ↔ rest = [] := by
  constructor
  · intro single
    cases v with
    | obj entries =>
        obtain ⟨entry, inside, further⟩ := Option.bind_eq_some_iff.mp found
        obtain ⟨entry', inside', same⟩ := Option.bind_eq_some_iff.mp single
        rw [inside] at inside'
        cases inside'
        cases same
        rcases sizeOf_at? further with ⟨nothing, -⟩ | smaller
        · exact nothing
        · exact absurd smaller (Nat.lt_irrefl _)
    | _ => cases found
  · rintro rfl
    exact found

theorem mem_of_atKey? {key : String} {entries : List (String × Value)} {v : Value}
    (found : atKey? key entries = some v) : (key, v) ∈ entries := by
  induction entries with
  | nil => cases found
  | cons e entries ih =>
      rw [atKey?] at found
      split at found
      · rename_i here
        cases found
        subst here
        exact List.mem_cons_self
      · exact List.mem_cons_of_mem e (ih found)

/-- Every entry of an object was written. -/
theorem settled_subset (entries : List (String × Value)) : settled entries ⊆ entries := by
  induction entries with
  | nil => exact List.Subset.refl []
  | cons e entries ih =>
      rintro d member
      rcases List.mem_cons.mp member with rfl | member
      · cases later : atKey? e.1 (settled entries) with
        | none => exact List.mem_cons_self
        | some w => exact List.mem_cons_of_mem e (ih (mem_of_atKey? later))
      · exact List.mem_cons_of_mem e (ih (List.mem_of_mem_filter member))

theorem typeName?_obj {v : Value} : v.typeName? = some "obj" ↔ ∃ entries, v = .obj entries := by
  cases v <;> simp [typeName?]

end Value

namespace Run

variable {ev : Expr → Run Result} {machine : Machine} {name key : String} {frame : Nat}
  {outer : Scope} {r : Record} {index : Expr}

/-- Reads the entry of an object under a key. -/
def propertyOf (name key : String) (object : Value) : Run Result := do
  if ← liftM (object.contains key) then return .value (← liftM (object.subscript key))
  else throw (.noProperty name key)

theorem exec_propertyOf {entries : List (String × Value)} (name key : String) (v : Value)
    (machine : Machine) :
    ((propertyOf name key (.obj entries)).exec machine).1 = .ok (.value v) ↔
      Value.atKey? key entries = some v := by
  cases found : Value.atKey? key entries with
  | none => simp [propertyOf, Value.contains, found]
  | some w => simp [propertyOf, Value.contains, Value.subscript, found]

/-- Takes the object that a variable holds, for what reads it. -/
def indexed (name : String) (k : Value → Run Result) : Run Result := do
  let object ← snapshot (← evalName name)
  let type ← liftM (object.subscript "type")
  if !type.equal (.str "obj") then
    throw (.notIndexable name (← liftM type.text))
  k (← liftM (object.subscript "value"))

/-- Of what stands for the property only the first key counts. -/
theorem evalProperty_key (first : index = .ident key ∨ ∃ further, index = .property key further) :
    evalProperty ev name index = indexed name (propertyOf name key) := by
  rcases first with rfl | ⟨further, rfl⟩ <;> rfl

theorem evalProperty_other
    (other : index = .ret .missing ∨ ∃ parents part, index = .module parents part) :
    evalProperty ev name index = indexed name fun _ => return .value .null := by
  rcases other with rfl | ⟨parents, part, rfl⟩ <;> rfl

section Holding

variable (found : machine.store.find machine.scope name = some (frame :: outer))
  (bound : machine.store.binding? frame name = some (.record r))
include found bound

theorem exec_indexed : ∃ searched, ∀ k, (indexed name k).exec machine =
    if r.type = "obj" then (k r.value).exec searched
    else (.error (.notIndexable name r.type), searched) := by
  have named := exec_evalName_record (Store.get_of_find found bound)
  have shown : (Result.cell frame name).snapshot machine.store = r.toValue := by
    rw [Result.snapshot, bound]
    rfl
  have type : r.toValue.subscript "type" = .ok (.str r.type) := rfl
  have value : r.toValue.subscript "value" = .ok r.value := rfl
  have text : (Value.str r.type).text = .ok r.type := rfl
  refine ⟨{ machine with
    console := machine.console.write (machine.store.searchTrace machine.scope name) }, fun k => ?_⟩
  rw [indexed, exec_bind, named]
  by_cases object : r.type = "obj"
  · have equal : (Value.str r.type).equal (.str "obj") = true := by simp [Value.equal, object]
    simp only [exec_bind, exec_snapshot, shown, type, value, exec_lift, equal, Bool.not_true,
      Bool.false_eq_true, ↓reduceIte, if_pos object]
  · have equal : (Value.str r.type).equal (.str "obj") = false := by simp [Value.equal, object]
    simp only [exec_bind, exec_snapshot, shown, type, text, exec_lift, equal, Bool.not_false, ↓reduceIte,
      exec_throw, if_neg object]

/-- Of a variable that holds an object, the entry under the key is read; of any other none is. -/
theorem exec_evalProperty (typed : r.value.typeName? = some r.type)
    (first : index = .ident key ∨ ∃ further, index = .property key further) (v : Value) :
    ((evalProperty ev name index).exec machine).1 = .ok (.value v) ↔ r.value.at? [key] = some v := by
  obtain ⟨searched, ran⟩ := exec_indexed found bound
  rw [evalProperty_key first, ran]
  by_cases object : r.type = "obj"
  · obtain ⟨entries, holds⟩ := Value.typeName?_obj.mp (object ▸ typed)
    rw [if_pos object, holds, exec_propertyOf, Value.at?]
    cases Value.atKey? key entries <;> rfl
  · have other : r.value.at? [key] = none := by
      cases kept : r.value with
      | obj entries => exact absurd (Option.some.inj (by rw [← typed, kept]; rfl)) object
      | _ => rfl
    simp [object, other]

/-- Where something else than a key stands, an object gives nothing. -/
theorem exec_evalProperty_other
    (other : index = .ret .missing ∨ ∃ parents part, index = .module parents part) {v : Value}
    (given : ((evalProperty ev name index).exec machine).1 = .ok (.value v)) : v = .null := by
  obtain ⟨searched, ran⟩ := exec_indexed found bound
  rw [evalProperty_other other, ran] at given
  by_cases object : r.type = "obj"
  · have nothing : Value.null = v := by simpa [object] using given
    exact nothing.symm
  · simp [object] at given

theorem exec_access {fuel : Nat} {rest : List String} (typed : r.value.typeName? = some r.type)
    (v : Value) :
    ((eval (fuel + 1) (.access name (key :: rest))).exec machine).1 = .ok (.value v) ↔
      r.value.at? [key] = some v := by
  have first : Expr.access key rest = .ident key ∨
      ∃ further, Expr.access key rest = .property key further := by
    cases rest with
    | nil => exact .inl rfl
    | cons next rest => exact .inr ⟨_, rfl⟩
  exact exec_evalProperty found bound typed first v

end Holding

/-- A name that nothing in sight has is defined in the innermost frame. -/
theorem exec_assign_new {around : Scope} {v : Value} {type : String}
    (here : machine.scope = frame :: around)
    (unbound : machine.store.find machine.scope name = none) (typed : v.typeName? = some type) :
    ∃ after, (assign machine.scope name v (some "let")).exec machine = (.ok v, after) ∧
      after.scope = machine.scope ∧
      after.store = machine.store.put frame name (.record ⟨v, type, some "let"⟩) := by
  have set : machine.store.set machine.scope name v (some "let") =
      (.ok v, machine.store.put frame name (.record ⟨v, type, some "let"⟩)) := by
    rw [here] at unbound ⊢
    simp [Store.set, unbound, Store.setParameter, Store.bindRecord, Store.recordFor, typed]
  have ran : (assign machine.scope name v (some "let")).exec machine =
      ((machine.store.set machine.scope name v (some "let")).1,
        { machine with
          console := machine.console.write (machine.store.setTrace machine.scope name)
          store := (machine.store.set machine.scope name v (some "let")).2 }) :=
    rfl
  rw [set] at ran
  exact ⟨_, ran, rfl, rfl⟩

end Run

/-- What a variable keeps of an object. -/
def Value.kept (entries : List (String × Value)) : Value :=
  (atKey? "value" entries).getD (.obj entries)

theorem Value.kept_eq_iff (entries : List (String × Value)) :
    kept entries = .obj entries ↔ atKey? "value" entries = none := by
  unfold kept
  cases inside : atKey? "value" entries with
  | none => simp
  | some v =>
      have smaller := sizeOf_atKey? inside
      simp only [Option.getD_some, reduceCtorEq, iff_false]
      rintro rfl
      rw [Value.obj.sizeOf_spec] at smaller
      omega

namespace Run

theorem assignedValue_obj {entries : List (String × Value)} {type : String}
    (typed : (Value.kept entries).typeName? = some type) :
    assignedValue (.obj entries) = .ok (Value.kept entries) := by
  have present : (Value.kept entries).equal .null = false := by
    cases kept : Value.kept entries <;>
      simp_all [Value.typeName?, Value.equal, Value.equalNum, Value.num?]
  cases inside : Value.atKey? "value" entries with
  | none =>
      have same := (Value.kept_eq_iff entries).mpr inside
      rw [same] at present
      simp [assignedValue, Value.unwrap, inside, same, Except.map, present]
  | some v =>
      have same : Value.kept entries = v := by simp [Value.kept, inside]
      rw [same] at present
      simp [assignedValue, Value.unwrap, inside, same, Except.map, present]

/-- The definition of a variable with an object that is written out. -/
theorem exec_define_object {machine : Machine} {name : String} {frame : Nat} {around : Scope}
    {entries : List (String × Value)} {type : String} (fuel : Nat)
    (here : machine.scope = frame :: around)
    (unbound : machine.store.find machine.scope name = none)
    (typed : (Value.kept entries).typeName? = some type) :
    ∃ after,
      (eval (fuel + 2) (.assign (some "let") name (.datum (.obj entries)))).exec machine =
        (.ok (.value (Value.kept entries)), after) ∧
      after.scope = machine.scope ∧
      after.store = machine.store.put frame name (.record ⟨Value.kept entries, type, some "let"⟩) := by
  obtain ⟨after, ran, scope, store⟩ := exec_assign_new here unbound typed
  refine ⟨after, ?_, scope, store⟩
  have inside : machine.scope ≠ [] := by simp [here]
  simp only [eval, evalWith, exec_bind, exec_pure, exec_snapshot, Result.snapshot, exec_lift,
    assignedValue_obj typed, exec_demandScope inside, ran]

end Run

namespace Source

/-- The entries of an object that is written out are texts and objects. -/
theorem exists_of_mem : (entries : Entries) → {e : String × Value} → e ∈ entries.pairs →
    ∃ field : Field, e.2 = field.value
  | .none, _, member => by cases member
  | .more key field rest, e, member => by
      rcases List.mem_cons.mp member with rfl | member
      · exact ⟨field, rfl⟩
      · exact exists_of_mem rest member

theorem exists_of_atKey? {entries : Entries} {key : String} {v : Value}
    (found : Value.atKey? key entries.list = some v) : ∃ field : Field, v = field.value :=
  exists_of_mem entries (Value.settled_subset _ (Value.mem_of_atKey? found))

/-- At the end of a path there is a text or an object. -/
theorem exists_of_at? {path : List String} {field : Field} {v : Value}
    (found : field.value.at? path = some v) : ∃ field : Field, v = field.value := by
  induction path generalizing field with
  | nil =>
      cases found
      exact ⟨field, rfl⟩
  | cons key rest ih =>
      cases field with
      | text l => cases found
      | object entries =>
          obtain ⟨entry, inside, further⟩ := Option.bind_eq_some_iff.mp found
          have key : Value.atKey? key entries.list = some entry := inside
          obtain ⟨field, rfl⟩ := exists_of_atKey? key
          exact ih further

theorem field_ne_null (field : Field) : field.value ≠ .null := by
  cases field <;> simp [Field.value]

theorem kept_typed (entries : Entries) :
    ∃ type, (Value.kept entries.list).typeName? = some type := by
  unfold Value.kept
  cases inside : Value.atKey? "value" entries.list with
  | none => exact ⟨"obj", rfl⟩
  | some v =>
      obtain ⟨field, rfl⟩ := exists_of_atKey? inside
      cases field with
      | text l => exact ⟨"string", rfl⟩
      | object entries => exact ⟨"obj", rfl⟩

open Reading

/-- The words of two lines: the definition of a variable with an object, and a path of keys after it. -/
def propertyWords (name : Name) (entries : Entries) (path : List Key) : List Word :=
  (Statement.define .changing name (.object entries)).words ++
    newlineWord :: (name.key.words path ++ [newlineWord])

/-- The definition of a variable with an object. -/
def definition (name : Name) (entries : Entries) : Expr :=
  .assign (some "let") name.text (.datum (.obj entries.list))

theorem words_first (path : List Key) (name : Name) {tokens : List Token}
    (spelled : Token.Spelled tokens (name.key.words path)) :
    ∃ first others, tokens = first :: others ∧ first.kind = some .identifier := by
  cases path with
  | nil =>
      obtain ⟨first, others, rfl, spells, -⟩ := Token.spelled_cons.mp spelled
      exact ⟨first, others, rfl, spells.1⟩
  | cons key rest =>
      obtain ⟨first, others, rfl, spells, -⟩ := Token.spelled_cons.mp spelled
      exact ⟨first, others, rfl, spells.1⟩

/-- The first line is read as the definition, and the second one begins after it. -/
theorem lines_of_property {name : Name} {entries : Entries} {path : List Key} {tokens : List Token}
    (spelled : Token.Spelled tokens (propertyWords name entries path)) :
    ∃ d front newline t more last, tokens = d :: (front ++ newline :: t :: (more ++ [last])) ∧
      d.kind ≠ some .newline ∧ t.kind = some .identifier ∧ Breaks newline ∧ Breaks last ∧
      Token.Spelled (t :: more) (name.key.words path) ∧
      ReadsTo (readTop (fuelFor tokens)) tokens (definition name entries) newline
        (t :: (more ++ [last])) := by
  simp only [propertyWords, Token.spelled_append, Token.spelled_cons, Token.spelled_nil] at spelled
  obtain ⟨front, -, rfl, defines, newline, -, rfl, breaks, back, -, rfl, accesses, last, -, rfl, ends,
    rfl⟩ := spelled
  obtain ⟨t, more, rfl, kind⟩ := words_first path name accesses
  have follows : Follows (t :: (more ++ [last])) := by
    intro t' isFirst
    obtain rfl : t = t' := by simpa using isFirst
    simp [kind]
  have first := readsStatement_define .changing name (.object entries)
    (fuelFor (front ++ newline :: t :: (more ++ [last]))) front newline (t :: (more ++ [last]))
    defines breaks follows False.elim (by rw [fuelFor, List.length_append]; omega)
  obtain ⟨d, others, rfl, -, starts⟩ := statement_first _ defines
  have other : d.kind ≠ some .newline := ((starts []).1 d (by simp)).1
  exact ⟨d, others, newline, t, more, last, rfl, other, kind, breaks, ends, accesses, first⟩

/-- A path of names is read as properties inside of properties. -/
theorem ofTokens_property {name : Name} {entries : Entries} {path : List Key} {tokens : List Token}
    (named : ∀ k ∈ path, k.isName = true)
    (spelled : Token.Spelled tokens (propertyWords name entries path)) :
    Expr.ofTokens tokens =
      .ok [definition name entries, .access name.text (path.map Key.text)] := by
  obtain ⟨d, front, newline, t, more, last, rfl, starts, kind, breaks, ends, accesses, first⟩ :=
    lines_of_property spelled
  have enough : 8 * (t :: more).length + 2 ≤ fuelFor (t :: (more ++ [last])) := by
    simp only [fuelFor, List.length_cons, List.length_append]
    omega
  have names : ∀ k ∈ name.key :: path, k.isName = true := List.forall_mem_cons.mpr ⟨rfl, named⟩
  have second : (readTop (fuelFor (t :: (more ++ [last])))).run (t :: (more ++ [last])) =
      (.ok (.access name.text (path.map Key.text)), [last]) :=
    readTop_access path name.key names accesses ends enough
  exact ofTokens_ok_iff.mpr
    (.line starts breaks first (.line (by simp [kind]) ends (.inr second) .nil))

/-- Whatever is read, it is the definition first and then what the path leads to. -/
theorem ofTokens_leads {name : Name} {entries : Entries} {path : List Key} {tokens : List Token}
    {statements : List Expr} (spelled : Token.Spelled tokens (propertyWords name entries path))
    (read : Expr.ofTokens tokens = .ok statements) :
    ∃ e more, statements = definition name entries :: e :: more ∧ Leads (name.key :: path) e := by
  obtain ⟨d, front, newline, t, more, last, rfl, starts, kind, breaks, ends, accesses, first⟩ :=
    lines_of_property spelled
  obtain ⟨others, rfl, sequence⟩ := (ofTokens_ok_iff.mp read).first starts breaks first
  cases sequence with
  | newline wrong => simp [kind] at wrong
  | statement _ reads => exact ⟨_, _, rfl, (statement_leads path name.key accesses ends reads).1⟩

theorem scan_property (name : Name) (entries : Entries) (path : List Key) (cursor : Cursor) :
    ∃ tokens,
      (Token.scan (Token.textOf (propertyWords name entries path)) cursor).1 = .ok tokens ∧
      Token.Spelled tokens (propertyWords name entries path) := by
  have ending : ∀ w ∈ (propertyWords name entries path).getLast?, w.value ≠ "." := by
    intro w isLast
    rw [propertyWords, ← List.cons_append, ← List.append_assoc, List.getLast?_append] at isLast
    obtain rfl : newlineWord = w := by simpa using isLast
    decide
  have wellFormed : ∀ w ∈ propertyWords name entries path, w.wellFormed = true := by
    refine List.forall_mem_append.mpr ⟨statement_wellFormed _, List.forall_mem_cons.mpr ⟨rfl, ?_⟩⟩
    exact List.forall_mem_append.mpr
      ⟨Key.words_wellFormed path name.key, List.forall_mem_singleton.mpr rfl⟩
  exact Token.scan_textOf _ cursor wellFormed ending

section Giving

variable {machine : Machine} {name : String} {frame : Nat} {outer : Scope} {r : Record} {key : Key}
  {rest : List Key} {index : Expr}
  (found : machine.store.find machine.scope name = some (frame :: outer))
  (bound : machine.store.binding? frame name = some (.record r)) (leads : Leads (key :: rest) index)
include found bound leads

/-- A path that begins with a name gives the entry under that name. -/
theorem exec_leads (typed : r.value.typeName? = some r.type) (named : key.isName = true) (fuel : Nat)
    (v : Value) :
    ((Run.eval (fuel + 1) (.property name index)).exec machine).1 = .ok (.value v) ↔
      r.value.at? [key.text] = some v := by
  have first : index = .ident key.text ∨ ∃ further, index = .property key.text further := by
    cases leads with
    | name => exact .inl rfl
    | property => exact .inr ⟨_, rfl⟩
    | returning keyword => exact absurd (keyword.symm.trans named) Bool.false_ne_true
    | importing keyword => exact absurd (keyword.symm.trans named) Bool.false_ne_true
  exact Run.exec_evalProperty found bound typed first v

/-- A path that begins with a keyword gives nothing. -/
theorem exec_leads_keyword (keyword : key.isName = false) {fuel : Nat} {v : Value}
    (given : ((Run.eval (fuel + 1) (.property name index)).exec machine).1 = .ok (.value v)) :
    v = .null := by
  have other : index = .ret .missing ∨ ∃ parents part, index = .module parents part := by
    cases leads with
    | name named => exact absurd (keyword.symm.trans named) Bool.false_ne_true
    | property named => exact absurd (keyword.symm.trans named) Bool.false_ne_true
    | returning => exact .inl rfl
    | importing => exact .inr ⟨_, _, rfl⟩
  exact Run.exec_evalProperty_other found bound other given

end Giving

/-- A variable that is defined with an object keeps the object exactly if it has no key `value`, and else
the entry under that key. A path of names after it is read as properties inside of properties, but only
the first key counts: what is given is the entry of what was kept under the first key. Where a keyword
stands in the path, there may be nothing that is read. In any case the entry at the end of a path is given
for a path of one name only. -/
theorem object_reads_back (name : Name) (entries : Entries) {machine : Machine} {frame : Nat}
    {around : Scope} (here : machine.scope = frame :: around)
    (made : frame < machine.store.frames.size)
    (unbound : machine.store.find machine.scope name.text = none) (fuel : Nat) :
    ∃ type after, (Value.kept entries.list).typeName? = some type ∧
      (Run.eval (fuel + 2) (definition name entries)).exec machine =
        (.ok (.value (Value.kept entries.list)), after) ∧
      after.scope = machine.scope ∧
      after.store = machine.store.put frame name.text
        (.record ⟨Value.kept entries.list, type, some "let"⟩) ∧
      (Value.kept entries.list = .obj entries.list ↔ Value.atKey? "value" entries.list = none) ∧
      (∀ key rest v, ((Run.eval (fuel + 1) (.access name.text (key :: rest))).exec after).1 =
        .ok (.value v) ↔ (Value.kept entries.list).at? [key] = some v) ∧
      ∀ key rest cursor, ∃ tokens,
        (Token.scan (Token.textOf (propertyWords name entries (key :: rest))) cursor).1 = .ok tokens ∧
        ((∀ k ∈ key :: rest, k.isName = true) → Expr.ofTokens tokens =
          .ok [definition name entries, .access name.text ((key :: rest).map Key.text)]) ∧
        ∀ statements, Expr.ofTokens tokens = .ok statements →
          ∃ index more, statements = definition name entries :: .property name.text index :: more ∧
            (key.isName = true → ∀ v,
              ((Run.eval (fuel + 1) (.property name.text index)).exec after).1 = .ok (.value v) ↔
                (Value.kept entries.list).at? [key.text] = some v) ∧
            (key.isName = false → ∀ v,
              ((Run.eval (fuel + 1) (.property name.text index)).exec after).1 = .ok (.value v) →
                v = .null) ∧
            (Value.atKey? "value" entries.list = none →
              ∀ v, (Value.obj entries.list).at? ((key :: rest).map Key.text) = some v →
                (((Run.eval (fuel + 1) (.property name.text index)).exec after).1 = .ok (.value v) ↔
                  key.isName = true ∧ rest = [])) := by
  obtain ⟨type, typed⟩ := kept_typed entries
  obtain ⟨after, ran, scope, store⟩ := Run.exec_define_object fuel here unbound typed
  have bound : after.store.binding? frame name.text =
      some (.record ⟨Value.kept entries.list, type, some "let"⟩) := by
    rw [store, Store.binding?_put, if_pos ⟨made, rfl, rfl⟩]
  have found : after.store.find after.scope name.text = some (frame :: around) := by
    rw [scope, here, Store.find, if_pos]
    rw [bound]
    rfl
  have reads : ∀ key rest v, ((Run.eval (fuel + 1) (.access name.text (key :: rest))).exec after).1 =
      .ok (.value v) ↔ (Value.kept entries.list).at? [key] = some v := fun key rest v =>
    Run.exec_access found bound typed v
  refine ⟨type, after, typed, ran, scope, store, Value.kept_eq_iff _, reads, fun key rest cursor => ?_⟩
  obtain ⟨tokens, scanned, spelled⟩ := scan_property name entries (key :: rest) cursor
  refine ⟨tokens, scanned, fun named => ofTokens_property named spelled, fun statements read => ?_⟩
  obtain ⟨e, more, rfl, leads⟩ := ofTokens_leads spelled read
  cases leads with
  | returning keyword => cases keyword
  | importing keyword => cases keyword
  | property _ leads =>
      have gives := exec_leads found bound leads typed
      have nothing (keyword : key.isName = false) (v : Value)
          (given : ((Run.eval (fuel + 1) (.property name.text _)).exec after).1 = .ok (.value v)) :
          v = .null := exec_leads_keyword found bound leads keyword given
      refine ⟨_, more, rfl, fun named => gives named fuel, nothing, fun whole v led => ?_⟩
      cases named : key.isName with
      | true =>
          rw [gives named, (Value.kept_eq_iff _).mpr whole, Value.at?_single_iff led]
          simp
      | false =>
          have object : (Field.object entries).value.at? ((key :: rest).map Key.text) = some v := led
          obtain ⟨field, rfl⟩ := exists_of_at? object
          simp only [Bool.false_eq_true, false_and, iff_false]
          exact fun given => field_ne_null field (nothing named _ given)

/-- The object `{ a : z, a : { b : "c" }, "return" : "x" }`, in which a key is written twice. -/
def nestedEntries : Entries :=
  .more ⟨⟨.identifier, "a"⟩, by decide, .inr rfl⟩ (.text ⟨⟨.identifier, "z"⟩, by decide, .inr rfl⟩)
    (.more ⟨⟨.identifier, "a"⟩, by decide, .inr rfl⟩
      (.object (.more ⟨⟨.identifier, "b"⟩, by decide, .inr rfl⟩
        (.text ⟨⟨.string, "c"⟩, by decide, .inl rfl⟩) .none))
      (.more ⟨⟨.string, "return"⟩, by decide, .inl rfl⟩
        (.text ⟨⟨.string, "x"⟩, by decide, .inl rfl⟩) .none))

/-- One key of a path is followed, and the second is not. A key that is a keyword is not followed. -/
theorem object_reads_back_nested : ∃ after : Machine,
    (Run.eval 2 (definition ⟨"o", by decide⟩ nestedEntries)).exec
      (.fresh (.ofInput "" false) .none false) = (.ok (.value (.obj nestedEntries.list)), after) ∧
    nestedEntries.list = [("a", .obj [("b", .str "c")]), ("return", .str "x")] ∧
    ((Run.eval 1 (.access "o" ["a"])).exec after).1 = .ok (.value (.obj [("b", .str "c")])) ∧
    ((Run.eval 1 (.access "o" ["a", "b"])).exec after).1 ≠ .ok (.value (.str "c")) ∧
    ∃ tokens, (Token.scan (Token.textOf (propertyWords ⟨"o", by decide⟩ nestedEntries
        [⟨⟨.keyword, "return"⟩, by decide, .inr rfl⟩])) .start).1 = .ok tokens ∧
      ∀ statements, Expr.ofTokens tokens = .ok statements →
        ∃ index more,
          statements = definition ⟨"o", by decide⟩ nestedEntries :: .property "o" index :: more ∧
          ((Run.eval 1 (.property "o" index)).exec after).1 ≠ .ok (.value (.str "x")) := by
  obtain ⟨type, after, _, ran, _, _, _, reads, paths⟩ :=
    object_reads_back ⟨"o", by decide⟩ nestedEntries
      (rfl : (Machine.fresh (.ofInput "" false) .none false).scope = 0 :: []) (by decide) rfl 0
  obtain ⟨tokens, scanned, _, rest⟩ := paths ⟨⟨.keyword, "return"⟩, by decide, .inr rfl⟩ [] .start
  refine ⟨after, ran, rfl, (reads "a" [] _).mpr rfl, fun given => ?_, tokens, scanned, ?_⟩
  · have wrong : some (Value.obj [("b", .str "c")]) = some (.str "c") := (reads "a" ["b"] _).mp given
    cases wrong
  · intro statements read
    obtain ⟨index, more, same, _, _, leads⟩ := rest statements read
    exact ⟨index, more, same, fun given => absurd ((leads rfl (.str "x") rfl).mp given).1 (by decide)⟩

/-- The second key of a path is lost, and so is an object with the key `value`. A keyword after the point
is read as a return, which gives nothing, or not at all. -/
theorem object_not_read_back :
    ((Run.evalProgram 9 [.assign (some "let") "o" (.datum (.obj [("a", .obj [("b", .str "c")])])),
      .access "o" ["a", "b"]] [0] false none).exec (.fresh (.ofInput "" false) .none false)).1 =
        .ok [.value (.obj [("a", .obj [("b", .str "c")])]), .value (.obj [("b", .str "c")])] ∧
    ((Run.evalProgram 9 [.assign (some "let") "o" (.datum (.obj [("value", .str "x")]))] [0] false
      none).exec (.fresh (.ofInput "" false) .none false)).1 = .ok [.value (.str "x")] ∧
    ((Run.evalProgram 9 [.assign (some "let") "o" (.datum (.obj [("value", .str "x")])),
      .access "o" ["value"]] [0] false none).exec (.fresh (.ofInput "" false) .none false)).1 =
        .error (.notIndexable "o" "string") ∧
    Expr.ofTokens [⟨some .identifier, "o", 1, 1⟩, ⟨some .operator, ".", 1, 2⟩,
      ⟨some .keyword, "return", 1, 3⟩, ⟨some .newline, "newline", 1, 9⟩] =
        .ok [.property "o" (.ret .missing)] ∧
    ((Run.evalProgram 9 [.assign (some "let") "o" (.datum (.obj [("return", .str "x")])),
      .property "o" (.ret .missing)] [0] false none).exec (.fresh (.ofInput "" false) .none false)).1 =
        .ok [.value (.obj [("return", .str "x")]), .value .null] ∧
    Expr.ofTokens [⟨some .identifier, "o", 1, 1⟩, ⟨some .operator, ".", 1, 2⟩,
      ⟨some .keyword, "int", 1, 3⟩, ⟨some .newline, "newline", 1, 6⟩] =
        .error (.unexpected .keyword "int" 1) := by
  exact ⟨rfl, rfl, rfl, rfl, rfl, rfl⟩

end Source

end Scriptlet
