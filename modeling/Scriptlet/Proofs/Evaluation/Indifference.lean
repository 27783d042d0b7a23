import Scriptlet.Proofs.Evaluation.Placement
import Scriptlet.Proofs.Evaluation.Scoping
import Scriptlet.Proofs.Evaluation.Simulation

set_option autoImplicit false

/-!
What a run does not depend on. A program may be run in two pieces, each in the scope of the whole
(`evalProgram_pieces`). A name that occurs nowhere may be bound anywhere (`evalProgram_unused_name`),
though a traced search shows it (`evalProgram_traced_unused_name`).
-/

namespace Scriptlet

/-- An expression has no name `z` in it, and no import where it stands. -/
def Expr.Avoids (z : String) (e : Expr) : Prop := Fits (· ≠ z) (fun _ => True) (· ≠ z) false e

/-- A function has no name `z` in its body and its parameters. -/
def Expr.BodyAvoids (z : String) (params : List Parameter) (body : List Expr) : Prop :=
  BodyFits (· ≠ z) (fun _ => True) (· ≠ z) params body

/-- An expression has no import where it stands. -/
def Expr.ImportFree (e : Expr) : Prop := Fits (fun _ => True) (fun _ => True) (fun _ => True) false e

namespace Link

section Within

/-- Two runs on the same live frames, with functions of the same numbers and without modules. -/
def within (known : String → Prop) (live : Nat → Prop) (muted : Prop) (before before' : Store) :
    Link where
  known := known
  partners i j := i = j ∧ live i
  numbering _ f g := f = id ∧ g = id
  heard a b := muted ∨ a = b
  muted := muted
  hidden := before.binding?
  hidden' := before'.binding?
  finds := False
  old := 0
  enclosed := False
  passed _ := False
  partner_iff first second := by rw [first.1, second.1]
  partner_passed _ := id
  numbering_exists _ := ⟨id, id, rfl, rfl⟩
  numbering_le _ numbering := numbering
  distinct_left numbering := numbering.1 ▸ Function.injective_id
  distinct_right numbering := numbering.2 ▸ Function.injective_id
  heard_append text heard := heard.imp id (congrArg (· ++ text))
  heard_of_muted muted _ _ := Or.inl muted
  known_of_finds := known_of_none

variable {known : String → Prop} {live : Nat → Prop} {muted : Prop} {before before' : Store} {n i : Nat}
  {chain : Chain}

theorem same_within {v w : Value} : (within known live muted before before').Same n v w ↔ v = w := by
  constructor
  · intro same
    have equal := same id id ⟨rfl, rfl⟩
    rwa [Value.renumber_id, Value.renumber_id] at equal
  · rintro rfl f g ⟨rfl, rfl⟩
    rfl

theorem bound_within {x y : Binding} :
    (within known live muted before before').Bound n x y ↔ x = y := by
  constructor
  · intro bound
    cases bound with
    | @record r s value type binding =>
        obtain ⟨v, t, b⟩ := r
        obtain ⟨v', t', b'⟩ := s
        obtain rfl : v = v' := same_within.mp value
        obtain rfl : t = t' := type
        obtain rfl : b = b' := binding
        rfl
    | function same => rw [same_within.mp same]
  · rintro rfl
    cases x with
    | record r => exact .record (same_within.mpr rfl) rfl rfl
    | function f => exact .function (same_within.mpr rfl)

mutual

theorem related_within : ∀ {r s : Result},
    (within known live muted before before').Related n r s → r = s
  | _, _, .value same => by rw [same_within.mp same]
  | _, _, .cell partners _ => by rw [partners.1]
  | _, _, .block all => by rw [relatedAll_within all]

theorem relatedAll_within : ∀ {rs ss : List Result},
    (within known live muted before before').RelatedAll n rs ss → rs = ss
  | _, _, .nil => rfl
  | _, _, .cons first rest => by rw [related_within first, relatedAll_within rest]

end

theorem binding?_within {a b : Store} {name : String}
    (stores : (within known live muted before before').Stores n chain a b) (alive : live i)
    (knows : known name) : a.binding? i name = b.binding? i name := by
  have bound := stores.binding (i := i) (j := i) ⟨rfl, alive⟩ (Or.inl knows)
  generalize a.binding? i name = x at bound ⊢
  generalize b.binding? i name = y at bound ⊢
  cases bound with
  | none => rfl
  | some bound => rw [bound_within.mp bound]

theorem fixed_within (v : Value) : (within known live muted before before').Fixed v :=
  same_within.mpr rfl

/-- A frame holds the same as itself. -/
theorem frames_within (frame : Frame) :
    (within known live muted before before').Frames n i frame frame where
  traced := rfl
  silent own := own.1.elim
  names := Or.inr fun _ => rfl
  bindings name _ := by
    cases frame.find? name with
    | none => exact .none
    | some binding => exact .some (bound_within.mpr rfl)

/-- A name that is not looked for may be bound on one side. -/
theorem Frames.put_right {a b : Frame} {z : String}
    (frames : (within known live muted before before').Frames n i a b) (unknown : ¬ known z)
    (quiet : muted ∨ a.traced = false) (binding : Binding) :
    (within known live muted before before').Frames n i a (b.put z binding) where
  traced := frames.traced
  silent := frames.silent
  names := by
    rcases quiet with muted | untraced
    · exact Or.inl muted
    · exact Or.inr fun traced => by simp [untraced] at traced
  bindings name counts := by
    have known : known name := counts.resolve_right fun own => own.1
    have other : z ≠ name := fun same => unknown (same ▸ known)
    rw [Frame.find?_put, if_neg other]
    exact frames.bindings name counts

theorem scopes_within {scope : Scope} (alive : ∀ k ∈ scope, live k) :
    (within known live muted before before').Scopes chain scope scope :=
  scopes_of_partners id (List.forall₂_same.mpr fun k sees => ⟨rfl, alive k sees⟩)

end Within

/-- Two runs on the same store, in which any name may be looked for. -/
def whole (store : Store) : Link := within (fun _ => True) (fun _ => True) False store store

theorem fits_whole (store a : Store) (s : Scope) (e : Expr) : (whole store).Fits a s true e :=
  Expr.fits_any (fun _ => Or.inl trivial) fixed_within (fun _ => Or.inl trivial) e

theorem stores_whole (store : Store) (n : Nat) :
    (whole store).Stores n (fun _ => none) store store where
  frames i j partners := by
    obtain rfl : i = j := partners.1
    cases store.frame? i with
    | none => exact .none
    | some frame => exact .some (frames_within frame)
  functions i j name f _ _ _ serial address called params body _ := by
    have any (x : String) : (whole store).Sees (fun _ => none) store i x := Or.inl trivial
    refine ⟨fun p _ => ⟨Or.inl trivial, fixed_within _⟩, fun e _ => ?_⟩
    exact Expr.fits_any (fun _ => Or.inl trivial) fixed_within (fun x => Or.inl (any x)) e
  fresh t := ⟨rfl, trivial⟩
  hidden i name _ := rfl
  hidden' j name _ _ := rfl
  clear j name passed := passed.elim
  made i s before := by cases before
  old := Nat.zero_le _

/-- A machine is abreast of itself with another place of modules, where there are no imports or neither
finds a module. -/
theorem abreast_whole {imports : Bool} (m : Machine) (verbose : Bool) (folder : Option Path)
    (modules : imports = true → m.folder = none ∧ folder = none) :
    (whole m.store).Abreast imports m.scope m.scope (fun _ => none) m { m with verbose, folder } where
  stores := stores_whole m.store m.serial
  input := rfl
  interrupts := rfl
  output := Or.inr rfl
  supply t f g numbering := by rw [numbering.1, numbering.2]
  addresses t := rfl
  files _ := rfl
  encode _ := rfl
  hand := ⟨scopes_within fun _ _ => trivial, fun _ => ⟨rfl, rfl⟩⟩
  modules importing := Or.inl (modules importing)

end Link

/-- Two runs end alike: in the same results or fault, with the same written, the same left to read, and
the same bindings. -/
structure SameEnd (x y : Except Fault (List Result) × Machine) : Prop where
  outcome : x.1 = y.1
  output : x.2.console.output = y.2.console.output
  input : x.2.console.input = y.2.console.input
  bindings : ∀ id name, x.2.store.binding? id name = y.2.store.binding? id name

theorem SameEnd.refl (x : Except Fault (List Result) × Machine) : SameEnd x x :=
  ⟨rfl, rfl, rfl, fun _ _ => rfl⟩

theorem SameEnd.appended {r : Run (List Result)} {m m' : Machine}
    (same : SameEnd (r.exec m) (r.exec m')) (results : List Result) :
    SameEnd ((do return results ++ (← r) : Run (List Result)).exec m)
      ((do return results ++ (← r) : Run (List Result)).exec m') := by
  rw [Run.exec_bind, Run.exec_bind]
  generalize r.exec m = x at same ⊢
  generalize r.exec m' = y at same ⊢
  obtain ⟨o, after⟩ := x
  obtain ⟨o', after'⟩ := y
  obtain rfl : o = o' := same.outcome
  cases o with
  | error fault => exact same
  | ok more => exact ⟨rfl, same.output, same.input, same.bindings⟩

theorem Link.Agree.sameEnd {store : Store} {chain : Chain} {start : Machine} {imports : Bool}
    {s t : Scope} {x y : Except Fault (List Result) × Machine}
    (agree : (whole store).Agree chain start ((whole store).Abreast imports s t)
      (whole store).RelatedAll x y) : SameEnd x y := by
  obtain ⟨same, chain', linked⟩ := (agree.imp fun _ => relatedAll_within).ends
  exact
    { outcome := same, output := linked.output.resolve_left id, input := linked.input,
      bindings := fun id name => binding?_within linked.stores trivial trivial }

namespace Recorded

theorem evalAll_append (ev : Expr → Recorded Result) (first others : List Expr) :
    evalAll ev (first ++ others) = do
      let results ← evalAll ev first
      return results ++ (← evalAll ev others) := by
  induction first with
  | nil => simp [evalAll]
  | cons e first ih =>
      simp only [List.cons_append, evalAll, ih, bind_assoc, pure_bind, List.append_assoc]

end Recorded

namespace Run

/-- Runs a program in two pieces, of which the second is run if the first succeeds. -/
def evalPieces (fuel : Nat) (first second : List Expr) (scope : Scope) (verbose : Bool)
    (folder : Option Path) : Run (List Result) := do
  let results ← evalProgram fuel first scope verbose folder
  return results ++ (← evalProgram fuel second scope verbose folder)

/-- Where no function without a body is called, the first statements of a program end in the scope in
which they began. -/
theorem evalAll_restores_scope {fuel : Nat} {first second : List Expr} {scope : Scope}
    {verbose : Bool} {folder : Option Path} {machine after : Machine} {results : List Result}
    (holds : machine.store.Holds scope)
    (full : (history fuel (first ++ second) scope verbose folder machine).countP Event.isHollow = 0)
    (ran : (evalAll (eval fuel) first).exec { machine with scope, verbose, folder } =
      (.ok results, after)) :
    after.scope = scope := by
  have entered : Recorded.step (modify fun m => { m with scope, verbose, folder }) machine =
      ((.ok (), { machine with scope, verbose, folder }),
        [.state { machine with scope, verbose, folder }]) :=
    rfl
  have recorded := Recorded.evalAll_records (Recorded.eval_records fuel) first
    { machine with scope, verbose, folder }
  rw [ran] at recorded
  rcases went : Recorded.evalAll (Recorded.eval fuel) first
    { machine with scope, verbose, folder } with ⟨outcome, t⟩
  rw [went] at recorded
  obtain rfl : outcome = (.ok results, after) := recorded
  have begins : t ⊆ history fuel (first ++ second) scope verbose folder machine := by
    have whole : Recorded.evalProgram fuel (first ++ second) scope verbose folder machine = _ :=
      Recorded.bind_ok entered
    rw [history, whole, Recorded.evalAll_append, Recorded.bind_ok went]
    intro event early
    simp [early]
  have course : Course scope { machine with scope, verbose, folder } t .done after :=
    (Recorded.evalAll_follows (Recorded.eval_follows fuel) first).course went
  refine (course.restores holds rfl ?_).2
  intro event early
  simpa using List.countP_eq_zero.mp full event (begins early)

/-- No module is found while a program runs that is given none to find. -/
theorem evalAll_folder {fuel : Nat} {program : List Expr} {machine after : Machine}
    {results : List Result} (nowhere : machine.folder = none)
    (ran : (evalAll (eval fuel) program).exec machine = (.ok results, after)) :
    after.folder = none := by
  have placed := evalAll_placed fuel program machine
  rw [ran] at placed
  unfold Placed at placed
  split at placed
  · exact congrArg (·.2.1) placed
  · exact (congrArg (·.2.1) placed).trans nowhere

/-- Statements do the same wherever modules are looked for, if they import none or none is found. -/
theorem evalAll_sameEnd {fuel : Nat} {program : List Expr} (machine : Machine) (verbose : Bool)
    {folder : Option Path}
    (unmoved : machine.folder = none ∧ folder = none ∨ ∀ e ∈ program, e.ImportFree) :
    SameEnd ((evalAll (eval fuel) program).exec machine)
      ((evalAll (eval fuel) program).exec { machine with verbose, folder }) := by
  rcases unmoved with nowhere | free
  · have abreast := Link.abreast_whole machine verbose folder fun _ : true = true => nowhere
    exact (Link.agree_evalAll id abreast (fun e _ => Link.fits_whole _ _ _ e) fuel).sameEnd
  · have abreast := Link.abreast_whole machine verbose folder
      fun imports : false = true => absurd imports Bool.false_ne_true
    refine (Link.agree_evalAll id abreast (fun e sees => ?_) fuel).sameEnd
    exact (free e sees).mono (fun _ _ => Or.inl trivial) (fun v _ => Link.fixed_within v)
      fun _ _ => Or.inl trivial

/-- Running a program in two pieces, each in the scope of the whole, comes to the same as running it at
once, if no function without a body is called and the second piece imports nothing, or nothing could
be found. -/
theorem evalProgram_pieces (fuel : Nat) (first second : List Expr) (scope : Scope) (verbose : Bool)
    (folder : Option Path) (machine : Machine) (holds : machine.store.Holds scope)
    (full : (history fuel (first ++ second) scope verbose folder machine).countP Event.isHollow = 0)
    (unmoved : folder = none ∨ ∀ e ∈ second, e.ImportFree) :
    SameEnd ((evalProgram fuel (first ++ second) scope verbose folder).exec machine)
      ((evalPieces fuel first second scope verbose folder).exec machine) := by
  have once : (evalProgram fuel (first ++ second) scope verbose folder).exec machine =
      (evalAll (eval fuel) (first ++ second)).exec { machine with scope, verbose, folder } := rfl
  have pieces : (evalPieces fuel first second scope verbose folder).exec machine =
      (do
        let results ← evalAll (eval fuel) first
        return results ++ (← evalProgram fuel second scope verbose folder) : Run _).exec
          { machine with scope, verbose, folder } := rfl
  rw [once, pieces, evalAll_append, exec_bind, exec_bind]
  rcases ran : (evalAll (eval fuel) first).exec { machine with scope, verbose, folder } with
    ⟨fault | results, after⟩
  · exact .refl _
  · have here : after.scope = scope := evalAll_restores_scope holds full ran
    subst here
    have unmoved' : after.folder = none ∧ folder = none ∨ ∀ e ∈ second, e.ImportFree :=
      unmoved.imp_left fun nowhere => ⟨evalAll_folder nowhere ran, nowhere⟩
    exact (evalAll_sameEnd after verbose unmoved').appended results

/-- A function that calls itself is defined in the first piece and called in the second, where modules
could be found. -/
theorem evalProgram_pieces_recursive :
    let machine := Machine.fresh (.ofInput "" false) .none false
    let first : List Expr := [.assign (some "let") "x" (.int 1),
      .define "f" [.mk "a" (some "let") (.datum .null)]
        [.conditional "if" (.binary ">" (.ident "a") (.int 0))
          [.ret (.call "f" [.binary "-" (.ident "a") (.int 1)])] none, .ret (.ident "x")]]
    let second : List Expr := [.assign none "x" (.int 2), .call "f" [.ident "x"], .ident "x"]
    machine.store.Holds [0] ∧
      (history 9 (first ++ second) [0] true (some .here) machine).countP Event.isHollow = 0 ∧
      (∀ e ∈ second, e.ImportFree) ∧
      SameEnd ((evalProgram 9 (first ++ second) [0] true (some .here)).exec machine)
        ((evalPieces 9 first second [0] true (some .here)).exec machine) := by
  intro machine first second
  have holds : machine.store.Holds [0] := ⟨by decide, by decide⟩
  have full : (history 9 (first ++ second) [0] true (some .here) machine).countP Event.isHollow = 0 := by
    decide +kernel
  have free : ∀ e ∈ second, e.ImportFree := by
    refine List.forall_mem_cons.mpr ⟨.assign none trivial (.literal _ trivial), ?_⟩
    refine List.forall_mem_cons.mpr ⟨.call trivial ?_, List.forall_mem_singleton.mpr (.ident trivial)⟩
    exact List.forall_mem_singleton.mpr (.ident trivial)
  exact ⟨holds, full, free, evalProgram_pieces 9 first second [0] true (some .here) machine holds full
    (Or.inr free)⟩

end Run

section Unused

variable {z : String} {scope : Scope} {machine : Machine}

/-- A frame is seen from a scope, and searches that begin there are traced. -/
def Store.Shows (store : Store) (scope : Scope) (k : Nat) : Prop :=
  k ∈ scope ∧ store.isTraced [k] = true

/-- Two runs that differ in the binding of a name in a frame. -/
def Link.beside (z : String) (scope : Scope) (k : Nat) (before before' : Store) : Link :=
  within (· ≠ z) (fun i => i ∈ scope ∨ before.frames.size ≤ i) (before.Shows scope k) before before'

theorem Link.stores_beside {store : Store} (z : String) (k : Nat) (binding : Binding) (n : Nat)
    (functions : ∀ id ∈ scope, ∀ name serial address called params body,
      store.binding? id name = some (.function (.function serial address called params body)) →
        Expr.BodyAvoids z params body) :
    (beside z scope k store (store.put k z binding)).Stores n (fun _ => none) store
      (store.put k z binding) where
  frames i j partners := by
    obtain ⟨rfl, live⟩ := partners
    rw [Store.frame?_put]
    cases made : store.frame? i with
    | none => split <;> exact .none
    | some frame =>
        split
        · rename_i here
          subst here
          refine .some ((frames_within frame).put_right (fun other => other rfl) ?_ binding)
          cases traced : frame.traced with
          | false => exact Or.inr rfl
          | true =>
              refine Or.inl ⟨live.resolve_right fun outside => ?_, ?_⟩
              · exact absurd (made.symm.trans (Array.getElem?_eq_none outside)) (by simp)
              · simp only [Store.isTraced, made, Option.map_some, Option.getD_some, traced]
        · exact .some (frames_within frame)
  functions i j name f partners _ bound serial address called params body is := by
    have inside : i ∈ scope := by
      refine partners.2.resolve_right fun outside => ?_
      have missing : store.frame? i = none := Array.getElem?_eq_none outside
      rw [Store.binding?, missing] at bound
      cases bound
    exact (functions i inside name serial address called params body (is ▸ bound)).mono
      (fun _ => Or.inl) (fun v _ => fixed_within v) fun _ => Or.inl
  fresh t := by
    have sizes : (store.put k z binding).frames.size = store.frames.size := by simp
    rw [sizes]
    exact ⟨rfl, Or.inr (Nat.le_add_right _ _)⟩
  hidden i name _ := rfl
  hidden' j name _ _ := rfl
  clear j name passed := passed.elim
  made i s before := by cases before
  old := Nat.zero_le _

/-- A run with a further binding of a name ends as the run without it: in the same results, which have
the same values at the end, or in the same fault. What is written is the same unless it is watched. The
scopes differ in that binding only, and it stays. -/
structure EndsBeside (scope : Scope) (k : Nat) (z : String) (binding : Binding) (watched : Prop)
    (plain more : Except Fault (List Result) × Machine) : Prop where
  outcome : more.1 = plain.1
  values : ∀ results, plain.1 = .ok results →
    Result.snapshotAll more.2.store results = Result.snapshotAll plain.2.store results
  input : more.2.console.input = plain.2.console.input
  output : watched ∨ more.2.console.output = plain.2.console.output
  bindings : ∀ id ∈ scope, ∀ name, more.2.store.binding? id name =
    if id = k ∧ name = z then some binding else plain.2.store.binding? id name

theorem Link.snapshotAll_within {known : String → Prop} {live : Nat → Prop} {muted : Prop}
    {before before' a b : Store} {n : Nat} {chain : Chain} {rs ss : List Result}
    (related : (within known live muted before before').RelatedAll n rs ss)
    (stores : (within known live muted before before').Stores n chain a b) :
    Result.snapshotAll a rs = Result.snapshotAll b ss := by
  have each := related.snapshotAll stores
  generalize Result.snapshotAll a rs = vs at each ⊢
  generalize Result.snapshotAll b ss = ws at each ⊢
  induction each with
  | nil => rfl
  | cons first rest ih => rw [same_within.mp first, ih]

theorem Link.bindings_beside {store a b : Store} {k n : Nat} {binding : Binding} {chain : Chain}
    (made : k < store.frames.size)
    (stores : (beside z scope k store (store.put k z binding)).Stores n chain a b) {id : Nat}
    (inside : id ∈ scope) (name : String) :
    b.binding? id name = if id = k ∧ name = z then some binding else a.binding? id name := by
  by_cases same : name = z
  · subst same
    have left : a.binding? id name = store.binding? id name :=
      stores.hidden id name fun counts => counts.elim (fun other => other rfl) fun own => own.1
    have right : b.binding? id name = (store.put k name binding).binding? id name :=
      stores.hidden' id name (fun other => other rfl) fun _ _ own => own.1
    rw [left, right, Store.binding?_put]
    simp only [made, true_and, and_true, eq_comm]
  · rw [if_neg fun here => same here.2]
    exact (binding?_within stores (Or.inl inside) same).symm

theorem Link.Agree.endsBeside {k : Nat} {chain : Chain} {start : Machine} {binding : Binding}
    {imports : Bool} {s t : Scope} {store : Store} {x y : Except Fault (List Result) × Machine}
    (made : k < store.frames.size)
    (agree : (beside z scope k store (store.put k z binding)).Agree chain start
      ((beside z scope k store (store.put k z binding)).Abreast imports s t)
      (beside z scope k store (store.put k z binding)).RelatedAll x y) :
    EndsBeside scope k z binding (store.Shows scope k) x y := by
  cases agree with
  | @ok _ rs ss m m' later stands related =>
      obtain rfl : rs = ss := relatedAll_within related
      refine ⟨rfl, ?_, stands.input.symm, stands.output.imp_right Eq.symm, ?_⟩
      · intro results same
        obtain rfl : rs = results := Except.ok.inj same
        exact (snapshotAll_within related stands.stores).symm
      · exact fun id inside name => bindings_beside made stands.stores inside name
  | @error _ fault m m' later linked =>
      refine ⟨rfl, ?_, linked.input.symm, linked.output.imp_right Eq.symm, ?_⟩
      · intro results same
        cases same
      · exact fun id inside name => bindings_beside made linked.stores inside name

namespace Run

/-- A name that occurs neither in a program nor in the functions that are bound in its scope may be bound
in any frame. -/
theorem evalProgram_unused_name (fuel : Nat) (program : List Expr) (scope : Scope) (verbose : Bool)
    (folder : Option Path) (machine : Machine) (z : String) (k : Nat) (binding : Binding)
    (made : k < machine.store.frames.size) (free : ∀ e ∈ program, e.Avoids z)
    (functions : ∀ id ∈ scope, ∀ name serial address called params body,
      machine.store.binding? id name =
          some (.function (.function serial address called params body)) →
        Expr.BodyAvoids z params body) :
    EndsBeside scope k z binding (machine.store.Shows scope k)
      ((evalProgram fuel program scope verbose folder).exec machine)
      ((evalProgram fuel program scope verbose folder).exec
        { machine with store := machine.store.put k z binding }) := by
  let link := Link.beside z scope k machine.store (machine.store.put k z binding)
  have abreast : link.Abreast false scope scope (fun _ => none)
      { machine with scope, verbose, folder }
      { machine with store := machine.store.put k z binding, scope, verbose, folder } :=
    { stores := Link.stores_beside z k binding machine.serial functions
      input := rfl
      interrupts := rfl
      output := Or.inr rfl
      supply := fun t f g numbering => by rw [numbering.1, numbering.2]
      addresses := fun t => rfl
      files := fun _ => rfl
      encode := fun _ => rfl
      hand := ⟨Link.scopes_within fun _ sees => Or.inl sees, fun _ => ⟨rfl, rfl⟩⟩
      modules := fun imports => absurd imports Bool.false_ne_true }
  have fits (e : Expr) (sees : e ∈ program) : link.Fits machine.store scope false e :=
    (free e sees).mono (fun _ => Or.inl) (fun v _ => Link.fixed_within v) fun _ => Or.inl
  exact (Link.agree_evalAll id abreast fits fuel).endsBeside made

theorem insideCall_avoids {id serial : Nat} {name address called : String}
    {params : List Parameter} {body : List Expr} (inside : id ∈ [1, 0])
    (bound : insideCall.store.binding? id name =
      some (.function (.function serial address called params body))) :
    Expr.BodyAvoids "z" params body := by
  simp only [List.mem_cons, List.not_mem_nil, or_false] at inside
  rcases inside with rfl | rfl
  · cases bound
  · simp only [Store.binding?, Store.frame?, insideCall, Frame.find?] at bound
    by_cases f : "f" = name
    · subst f
      cases bound
      refine ⟨List.forall_mem_singleton.mpr ⟨by decide, trivial⟩, ?_⟩
      refine List.forall_mem_cons.mpr ⟨.assign _ (by decide) (.ident (by decide)), ?_⟩
      exact List.forall_mem_singleton.mpr (.ret (.ident (by decide)))
    · by_cases g : "g" = name
      · subst g
        cases bound
        exact ⟨List.forall_mem_nil _, List.forall_mem_nil _⟩
      · simp [f, g] at bound

/-- A constant is bound around the frame of a call, in which a function is called. -/
theorem evalProgram_unused_name_inside :
    let program : List Expr := [.assign (some "let") "c" (.call "f" [.int 7]), .ident "c"]
    let binding : Binding := .record ⟨.int 5, "int", some "const"⟩
    (∀ e ∈ program, e.Avoids "z") ∧
      (∀ id ∈ [1, 0], ∀ name serial address called params body,
        insideCall.store.binding? id name =
            some (.function (.function serial address called params body)) →
          Expr.BodyAvoids "z" params body) ∧
      EndsBeside [1, 0] 0 "z" binding (insideCall.store.Shows [1, 0] 0)
        ((evalProgram 9 program [1, 0] false none).exec insideCall)
        ((evalProgram 9 program [1, 0] false none).exec
          { insideCall with store := insideCall.store.put 0 "z" binding }) := by
  intro program binding
  have free : ∀ e ∈ program, e.Avoids "z" := by
    refine List.forall_mem_cons.mpr ⟨.assign _ (by decide) (.call (by decide) ?_), ?_⟩
    · exact List.forall_mem_singleton.mpr (.literal _ trivial)
    · exact List.forall_mem_singleton.mpr (.ident (by decide))
  have functions : ∀ id ∈ [1, 0], ∀ name serial address called params body,
      insideCall.store.binding? id name =
          some (.function (.function serial address called params body)) →
        Expr.BodyAvoids "z" params body :=
    fun id inside name serial address called params body bound => insideCall_avoids inside bound
  exact ⟨free, functions, evalProgram_unused_name 9 program [1, 0] false none insideCall "z" 0 binding
    (by decide) free functions⟩

/-- A machine whose outermost scope is traced, with one variable. -/
def tracing : Machine :=
  { Machine.fresh (.ofInput "" false) .none true with
    store := ⟨#[⟨none, true, [("x", .record ⟨.int 1, "int", some "let"⟩)]⟩]⟩ }

/-- Where searches are traced, a name that is not looked for is written out with the others. -/
theorem evalProgram_traced_unused_name :
    let binding : Binding := .record ⟨.int 5, "int", some "const"⟩
    Expr.Avoids "z" (.ident "x") ∧
      ((evalProgram 1 [.ident "x"] [0] false none).exec tracing).2.console.output ≠
        ((evalProgram 1 [.ident "x"] [0] false none).exec
          { tracing with store := tracing.store.put 0 "z" binding }).2.console.output := by
  intro binding
  refine ⟨.ident (by decide), ?_⟩
  decide +kernel

end Run

end Unused

end Scriptlet
