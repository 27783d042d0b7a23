import Scriptlet.Proofs.Evaluation.Link

set_option autoImplicit false

/-!
Linked machines step by step. `Link.Agree` says of the ends of two runs that they are alike: the same
fault, or results and machines that are linked again. An operation that only changes what the machines
hold keeps every `Steady` relation between them: that they are linked, and that they are abreast, whether
their scopes are nested, have run out or lie inside of a call.
-/

namespace Scriptlet

namespace Parameter

/-- The value of the default of a parameter, if there is one. -/
def filler (p : Parameter) : Except Fault Value :=
  if p.default.toValue.truthy then p.default.toValue.unwrap else .ok .null

/-- What a parameter is bound to: the argument at its place, or else the default. -/
def given (default : Value) : List Value → Value
  | arg :: _ => if !arg.isOpen then arg else if default.truthy then default else .str "null"
  | [] => if default.isOpen then .str "null" else default

/-- Binds a parameter, where a fault is that of the call. -/
def bind (function : String) (scope : Scope) (p : Parameter) (value : Value) : Run Unit :=
  tryCatch (do let _ ← Run.bindParameter scope p.name value p.binding)
    fun fault => throw (.badParameter fault.message function)

end Parameter

theorem Run.bindParameters_eq (function : String) (scope : Scope) (p : Parameter)
    (params : List Parameter) (args : List Value) :
    Run.bindParameters function scope (p :: params) args =
      (do
        let default ← liftM p.filler
        p.bind function scope (Parameter.given default args)
        Run.bindParameters function scope params args.tail) := by
  unfold Parameter.filler
  by_cases filled : p.default.toValue.truthy = true
  · simp only [Run.bindParameters, filled, ↓reduceIte]
    rfl
  · simp only [Run.bindParameters, filled, Bool.false_eq_true, ↓reduceIte]
    rfl

/-- A machine has the scope and the place of modules that another has. -/
def Machine.Stays (m n : Machine) : Prop := n.scope = m.scope ∧ n.place = m.place

namespace Link

variable (link : Link)

mutual

/-- Two results are the same. -/
inductive Related (n : Nat) : Result → Result → Prop
  | value {v w : Value} (same : link.Same n v w) : Related n (.value v) (.value w)
  | cell {i j : Nat} {name : String} (partners : link.partners i j) (counts : link.Counts i name) :
      Related n (.cell i name) (.cell j name)
  | block {rs ss : List Result} (all : RelatedAll n rs ss) : Related n (.block rs) (.block ss)

inductive RelatedAll (n : Nat) : List Result → List Result → Prop
  | nil : RelatedAll n [] []
  | cons {r s : Result} {rs ss : List Result} (first : Related n r s) (rest : RelatedAll n rs ss) :
      RelatedAll n (r :: rs) (s :: ss)

end

/-- Two machines with linked stores and the same left to read. Functions that will be made get numbers
that correspond and lie at the same addresses. -/
structure Machines (chain : Chain) (m m' : Machine) : Prop where
  stores : link.Stores m.serial chain m.store m'.store
  input : m.console.input = m'.console.input
  interrupts : m.console.interrupts = m'.console.interrupts
  output : link.heard m.console.output m'.console.output
  supply : ∀ t f g, link.numbering (m.serial + t + 1) f g → f (m.serial + t) = g (m'.serial + t)
  addresses : ∀ t, m.host.address (m.serial + t) = m'.host.address (m'.serial + t)
  files : link.finds → m.files = m'.files
  encode : link.finds → m.host.encode = m'.host.encode

/-- Modules come to the same in two machines: none is found, or the same are. -/
def Modules (m m' : Machine) : Prop :=
  m.folder = none ∧ m'.folder = none ∨
    link.finds ∧ m.folder = m'.folder ∧ m.verbose = m'.verbose

/-- Two scopes that are at hand see partners. Inside of a call they are the ones that were entered. -/
structure AtHand (chain : Chain) (s t a b : Scope) : Prop where
  scopes : link.Scopes chain a b
  here : link.enclosed → a = s ∧ b = t

/-- Two linked machines at the same place, which inside of a call is that of two scopes. -/
structure Abreast (imports : Bool) (s t : Scope) (chain : Chain) (m m' : Machine) : Prop
    extends link.Machines chain m m' where
  hand : link.AtHand chain s t m.scope m'.scope
  modules : imports = true → link.Modules m m'

/-- A machine is one that another has become. -/
structure Later (chain chain' : Chain) (m n : Machine) : Prop
    extends Kept chain chain' m.store n.store where
  serial : m.serial ≤ n.serial

/-- Two runs come out alike. When they end well, the machines stand in a relation, as do the results,
when so many functions were made. -/
inductive Agree {α : Type} (chain : Chain) (start : Machine)
    (stand : Chain → Machine → Machine → Prop) (results : Nat → α → α → Prop) :
    Except Fault α × Machine → Except Fault α × Machine → Prop
  | ok {chain' : Chain} {a b : α} {m m' : Machine} (later : Later chain chain' start m)
      (stands : stand chain' m m') (result : results m.serial a b) :
      Agree chain start stand results (.ok a, m) (.ok b, m')
  | error {chain' : Chain} {fault : Fault} {m m' : Machine} (later : Later chain chain' start m)
      (linked : link.Machines chain' m m') :
      Agree chain start stand results (.error fault, m) (.error fault, m')

/-- Results that are equal. -/
def Equal {α : Type} (_ : Nat) (a b : α) : Prop := a = b

/-- A relation between linked machines that stays when they change what they hold. -/
class Steady (stand : Chain → Machine → Machine → Prop) : Prop where
  machines {chain : Chain} {m m' : Machine} (stands : stand chain m m') : link.Machines chain m m'
  change {chain chain' : Chain} {m m' n n' : Machine} (stands : stand chain m m')
    (linked : link.Machines chain' n n') (kept : Kept chain chain' m.store n.store)
    (left : m.Stays n) (right : m'.Stays n') : stand chain' n n'

variable {link} {n n' : Nat} {chain chain' : Chain}

theorem Later.refl (chain : Chain) (m : Machine) : Later chain chain m m :=
  ⟨.refl chain m.store, Nat.le_refl _⟩

theorem Later.trans {chain₃ : Chain} {m₁ m₂ m₃ : Machine} (first : Later chain chain' m₁ m₂)
    (second : Later chain' chain₃ m₂ m₃) : Later chain chain₃ m₁ m₃ :=
  ⟨first.toKept.trans second.toKept, Nat.le_trans first.serial second.serial⟩

theorem AtHand.kept {s t x y : Scope} {a b : Store} (hand : link.AtHand chain s t x y)
    (kept : Kept chain chain' a b) : link.AtHand chain' s t x y :=
  ⟨hand.scopes.kept kept, hand.here⟩

/-- What may be looked for from the scope that was entered may be looked for from the one at hand. -/
theorem AtHand.knows {s t x y : Scope} {a : Store} {name : String}
    (hand : link.AtHand chain s t x y) (knows : link.Knows a s name) : link.Knows a x name := by
  rcases knows with known | ⟨k, sees, own, bound⟩
  · exact Or.inl known
  · obtain ⟨rfl, -⟩ := hand.here own.1
    exact Or.inr ⟨k, sees, own, bound⟩

/-- And the other way round. -/
theorem AtHand.entered {s t x y : Scope} {a : Store} {name : String}
    (hand : link.AtHand chain s t x y) (knows : link.Knows a x name) : link.Knows a s name := by
  rcases knows with known | ⟨k, sees, own, bound⟩
  · exact Or.inl known
  · obtain ⟨rfl, -⟩ := hand.here own.1
    exact Or.inr ⟨k, sees, own, bound⟩

instance : link.Steady link.Machines := ⟨id, fun _ linked _ _ _ => linked⟩

instance {imports : Bool} {s t : Scope} : link.Steady (link.Abreast imports s t) where
  machines abreast := abreast.toMachines
  change {_ _ m m' n n'} abreast linked kept left right := by
    obtain ⟨scope, place⟩ := left
    obtain ⟨scope', place'⟩ := right
    have folder : n.folder = m.folder := congrArg (·.2.1) place
    have verbose : n.verbose = m.verbose := congrArg (·.2.2.1) place
    have folder' : n'.folder = m'.folder := congrArg (·.2.1) place'
    have verbose' : n'.verbose = m'.verbose := congrArg (·.2.2.1) place'
    refine { linked with hand := ?_, modules := ?_ }
    · rw [scope, scope']
      exact abreast.hand.kept kept
    · rw [Modules, folder, folder', verbose, verbose']
      exact abreast.modules

/-- Where modules come to the same, it does not matter whether there are imports. -/
theorem Abreast.any {imports : Bool} {s t : Scope} {m m' : Machine}
    (abreast : link.Abreast true s t chain m m') : link.Abreast imports s t chain m m' :=
  { abreast with modules := fun _ => abreast.modules rfl }

/-- Inside of a call the scopes that were entered are the given ones; outside of calls it does not matter
which those are. -/
theorem Abreast.moved {imports : Bool} {s t x y : Scope} {m m' : Machine}
    (abreast : link.Abreast imports s t chain m m') (same : link.enclosed → s = x ∧ t = y) :
    link.Abreast imports x y chain m m' := by
  refine { abreast with hand := ⟨abreast.hand.scopes, fun enclosed => ?_⟩ }
  obtain ⟨rfl, rfl⟩ := same enclosed
  exact abreast.hand.here enclosed

section Results

variable {r s : Result} {rs ss rs' ss' : List Result}

mutual

theorem Related.mono (le : n ≤ n') {r s : Result} : link.Related n r s → link.Related n' r s
  | .value same => .value (same.mono le)
  | .cell partners counts => .cell partners counts
  | .block all => .block (all.mono le)

theorem RelatedAll.mono (le : n ≤ n') {rs ss : List Result} :
    link.RelatedAll n rs ss → link.RelatedAll n' rs ss
  | .nil => .nil
  | .cons first rest => .cons (first.mono le) (rest.mono le)

end

theorem RelatedAll.append (first : link.RelatedAll n rs ss) (second : link.RelatedAll n rs' ss') :
    link.RelatedAll n (rs ++ rs') (ss ++ ss') := by
  induction rs generalizing ss with
  | nil =>
      cases first
      exact second
  | cons r rs ih =>
      cases first with
      | cons head rest => exact .cons head (ih rest)

theorem relatedAll_values {items others : List Value}
    (each : List.Forall₂ (link.Same n) items others) :
    link.RelatedAll n (items.map .value) (others.map .value) := by
  induction each with
  | nil => exact .nil
  | cons first rest ih => exact .cons (.value first) ih

theorem Related.spread (related : link.Related n r s) : link.RelatedAll n r.spread s.spread := by
  cases related with
  | cell partners counts => exact .cons (.cell partners counts) .nil
  | block all => exact all
  | @value v w same =>
      cases v with
      | list items =>
          obtain ⟨others, rfl, each⟩ := same.items
          exact relatedAll_values each
      | _ =>
          cases w with
          | list others =>
              obtain ⟨items, list⟩ := same.items_right
              cases list
          | _ => exact .cons (.value same) .nil

mutual

theorem Related.snapshot {a b : Store} (stores : link.Stores n chain a b) {r s : Result} :
    link.Related n r s → link.Same n (r.snapshot a) (s.snapshot b)
  | .value same => same
  | @Related.cell _ _ i j name partners counts => by
      have bound := stores.binding partners counts
      rw [Result.snapshot, Result.snapshot]
      generalize a.binding? i name = x at bound ⊢
      generalize b.binding? j name = y at bound ⊢
      cases bound with
      | none => exact same_null
      | some bound => exact bound.toValue
  | .block all => by
      rw [Result.snapshot, Result.snapshot]
      exact same_items (all.snapshotAll stores)

theorem RelatedAll.snapshotAll {a b : Store} (stores : link.Stores n chain a b)
    {rs ss : List Result} :
    link.RelatedAll n rs ss →
      List.Forall₂ (link.Same n) (Result.snapshotAll a rs) (Result.snapshotAll b ss)
  | .nil => .nil
  | .cons first rest => .cons (first.snapshot stores) (rest.snapshotAll stores)

end

end Results

section Ends

variable {α β : Type} {start between m m' : Machine} {stand stand' : Chain → Machine → Machine → Prop}

theorem Agree.since {results : Nat → α → α → Prop} {o o' : Except Fault α × Machine}
    (agree : link.Agree chain' between stand results o o') (before : Later chain chain' start between) :
    link.Agree chain start stand results o o' := by
  cases agree with
  | ok later stands result => exact .ok (before.trans later) stands result
  | error later linked => exact .error (before.trans later) linked

theorem Agree.imp {results results' : Nat → α → α → Prop} {o o' : Except Fault α × Machine}
    (agree : link.Agree chain start stand results o o')
    (weaken : ∀ {n a b}, start.serial ≤ n → results n a b → results' n a b) :
    link.Agree chain start stand results' o o' := by
  cases agree with
  | ok later stands result => exact .ok later stands (weaken later.serial result)
  | error later linked => exact .error later linked

theorem Agree.weaken {results : Nat → α → α → Prop} {o o' : Except Fault α × Machine}
    (agree : link.Agree chain start stand results o o')
    (weaken : ∀ {chain n n'}, stand chain n n' → stand' chain n n') :
    link.Agree chain start stand' results o o' := by
  cases agree with
  | ok later stands result => exact .ok later (weaken stands) result
  | error later linked => exact .error later linked

/-- What is so of the first run when it ends well can be added to how the machines stand. -/
theorem Agree.and {results : Nat → α → α → Prop} {o o' : Except Fault α × Machine}
    {fact : Machine → Prop} (agree : link.Agree chain start stand results o o')
    (holds : ∀ a n, o = (.ok a, n) → fact n) :
    link.Agree chain start (fun chain n n' => stand chain n n' ∧ fact n) results o o' := by
  cases agree with
  | ok later stands result => exact .ok later ⟨stands, holds _ _ rfl⟩ result
  | error later linked => exact .error later linked

/-- Nor is anything lost that was bound when the runs began. -/
theorem Agree.kept {results : Nat → α → α → Prop} {o o' : Except Fault α × Machine}
    (agree : link.Agree chain start stand results o o') :
    link.Agree chain start
      (fun chain' n n' => stand chain' n n' ∧ Kept chain chain' start.store n.store) results o o' := by
  cases agree with
  | ok later stands result => exact .ok later ⟨stands, later.toKept⟩ result
  | error later linked => exact .error later linked

theorem Agree.bind {results : Nat → α → α → Prop} {results' : Nat → β → β → Prop} {r s : Run α}
    {k l : α → Run β} (first : link.Agree chain m stand results (r.exec m) (s.exec m'))
    (next : ∀ {chain' a b n n'}, Later chain chain' m n → stand chain' n n' → results n.serial a b →
      link.Agree chain' n stand' results' ((k a).exec n) ((l b).exec n')) :
    link.Agree chain m stand' results' ((r >>= k).exec m) ((s >>= l).exec m') := by
  rw [Run.exec_bind, Run.exec_bind]
  generalize r.exec m = o at first ⊢
  generalize s.exec m' = o' at first ⊢
  cases first with
  | ok later stands result => exact (next later stands result).since later
  | error later linked => exact .error later linked

theorem Agree.bind_equal {results : Nat → β → β → Prop} {r s : Run α} {k l : α → Run β}
    (first : link.Agree chain m stand Equal (r.exec m) (s.exec m'))
    (next : ∀ {chain' a n n'}, Later chain chain' m n → stand chain' n n' →
      link.Agree chain' n stand' results ((k a).exec n) ((l a).exec n')) :
    link.Agree chain m stand' results ((r >>= k).exec m) ((s >>= l).exec m') := by
  apply Agree.bind first
  intro chain' a b n n' later stands same
  obtain rfl : a = b := same
  exact next later stands

theorem Agree.rethrow {results : Nat → α → α → Prop} {r s : Run α}
    (agree : link.Agree chain m stand results (r.exec m) (s.exec m')) (handle : Fault → Fault) :
    link.Agree chain m stand results
      ((tryCatch r fun fault => throw (handle fault) : Run α).exec m)
      ((tryCatch s fun fault => throw (handle fault) : Run α).exec m') := by
  rw [Run.exec_tryCatch, Run.exec_tryCatch]
  generalize r.exec m = o at agree ⊢
  generalize s.exec m' = o' at agree ⊢
  cases agree with
  | ok later stands result => exact .ok later stands result
  | error later linked => exact .error later linked

theorem agree_pure {results : Nat → α → α → Prop} {a b : α} (stands : stand chain m m')
    (result : results m.serial a b) :
    link.Agree chain m stand results ((pure a : Run α).exec m) ((pure b : Run α).exec m') :=
  .ok (.refl chain m) stands result

theorem agree_throw {results : Nat → α → α → Prop} (linked : link.Machines chain m m')
    (fault : Fault) :
    link.Agree chain m stand results ((throw fault : Run α).exec m)
      ((throw fault : Run α).exec m') :=
  .error (.refl chain m) linked

theorem outcomes_of_eq {e e' : Except Fault α} (same : e = e') : Outcomes (Equal n) e e' := by
  subst same
  cases e with
  | ok a => exact .ok rfl
  | error fault => exact .error fault

/-- Runs that agree come to equal ends, on linked machines. -/
theorem Agree.ends {x y : Except Fault α × Machine} [link.Steady stand]
    (agree : link.Agree chain start stand Equal x y) :
    x.1 = y.1 ∧ ∃ chain', link.Machines chain' x.2 y.2 := by
  cases agree with
  | ok later stands same => exact ⟨congrArg Except.ok same, _, Steady.machines stands⟩
  | error later linked => exact ⟨rfl, _, linked⟩

end Ends

section Steps

variable {stand : Chain → Machine → Machine → Prop} [steady : link.Steady stand] {m m' : Machine}
  (stands : stand chain m m')
include steady stands

/-- The machines have changed what they hold, and only the outcomes are left to be compared. -/
theorem agree_changed {α : Type} {results : Nat → α → α → Prop} {e e' : Except Fault α}
    {n n' : Machine} (linked : link.Machines chain n n') (later : Later chain chain m n)
    (left : m.Stays n) (right : m'.Stays n') (outcomes : Outcomes (results n.serial) e e') :
    link.Agree chain m stand results (e, n) (e', n') := by
  cases outcomes with
  | ok result => exact .ok later (steady.change stands linked later.toKept left right) result
  | error fault => exact .error later linked

theorem agree_lift {α : Type} {results : Nat → α → α → Prop} {e e' : Except Fault α}
    (outcomes : Outcomes (results m.serial) e e') :
    link.Agree chain m stand results ((liftM e : Run α).exec m) ((liftM e' : Run α).exec m') :=
  agree_changed stands (steady.machines stands) (.refl chain m) ⟨rfl, rfl⟩ ⟨rfl, rfl⟩ outcomes

theorem agree_lift_equal {α : Type} {e e' : Except Fault α} (same : e = e') :
    link.Agree chain m stand Equal ((liftM e : Run α).exec m) ((liftM e' : Run α).exec m') :=
  agree_lift stands (outcomes_of_eq same)

theorem agree_snapshot {r s : Result} (related : link.Related m.serial r s) :
    link.Agree chain m stand link.Same ((Run.snapshot r).exec m) ((Run.snapshot s).exec m') :=
  agree_pure stands (related.snapshot (steady.machines stands).stores)

theorem agree_snapshots {rs ss : List Result} (related : link.RelatedAll m.serial rs ss) :
    link.Agree chain m stand (fun n => List.Forall₂ (link.Same n)) ((Run.snapshots rs).exec m)
      ((Run.snapshots ss).exec m') :=
  agree_pure stands (related.snapshotAll (steady.machines stands).stores)

theorem agree_unwrap {r s : Result} (related : link.Related m.serial r s) :
    link.Agree chain m stand link.Same ((Run.unwrap r).exec m) ((Run.unwrap s).exec m') := by
  apply Agree.bind (agree_snapshot stands related)
  intro _ v w n n' _ stands same
  exact agree_lift stands (same.outcomes fun f v => Value.unwrap_renumber v)

theorem agree_argument {r s : Result} (related : link.Related m.serial r s) :
    link.Agree chain m stand link.Related ((Run.argument r).exec m) ((Run.argument s).exec m') := by
  have unwrapped := agree_unwrap stands related
  cases related with
  | block all => exact agree_pure stands (.block all)
  | value same =>
      apply Agree.bind unwrapped
      intro _ v w n n' _ stands same
      exact agree_pure stands (.value same)
  | cell partners counts =>
      apply Agree.bind unwrapped
      intro _ v w n n' _ stands same
      exact agree_pure stands (.value same)

omit steady stands in
theorem Machines.withOutput (linked : link.Machines chain m m') {text text' : String}
    (texts : link.Texts text text') :
    link.Machines chain { m with console := m.console.write text }
      { m' with console := m'.console.write text' } :=
  { linked with
    output := by
      rcases texts with muted | rfl
      · exact link.heard_of_muted muted _ _
      · exact link.heard_append text linked.output }

theorem agree_write {text text' : String} (texts : link.Texts text text') :
    link.Agree chain m stand Equal ((Run.write text).exec m) ((Run.write text').exec m') := by
  have linked := (steady.machines stands).withOutput texts
  exact agree_changed stands linked ⟨.refl chain m.store, Nat.le_refl _⟩ ⟨rfl, rfl⟩ ⟨rfl, rfl⟩
    (.ok rfl)

/-- Where modules are found, programs are listed alike before anything else is done. -/
theorem agree_listed {α : Type} {stand' : Chain → Machine → Machine → Prop}
    {results : Nat → α → α → Prop} {k l : Unit → Run α} (finds : link.finds) (program : List Expr)
    (next : ∀ {chain' n n'}, Later chain chain' m n → stand chain' n n' →
      link.Agree chain' n stand' results ((k ()).exec n) ((l ()).exec n')) :
    link.Agree chain m stand' results
      ((do k (← Run.write (← liftM ((← get).host.listing program))) : Run α).exec m)
      ((do l (← Run.write (← liftM ((← get).host.listing program))) : Run α).exec m') := by
  have listed : m.host.listing program = m'.host.listing program := by
    rw [Host.listing, Host.listing, (steady.machines stands).encode finds]
  rw [Run.exec_bind, Run.exec_bind, Run.exec_get, Run.exec_get]
  apply Agree.bind_equal (agree_lift_equal stands listed)
  intro _ text n n' later stands
  apply Agree.bind_equal (agree_write stands (Or.inr rfl))
  intro _ _ n n' later' stands
  exact next (later.trans later') stands

theorem agree_readLine :
    link.Agree chain m stand Equal (Run.readLine.exec m) (Run.readLine.exec m') := by
  have ran (machine : Machine) : Run.readLine.exec machine =
      (machine.console.readLine.1, { machine with console := machine.console.readLine.2 }) := rfl
  have linked := steady.machines stands
  rw [ran, ran]
  refine agree_changed stands ?_ ⟨.refl chain m.store, Nat.le_refl _⟩ ⟨rfl, rfl⟩ ⟨rfl, rfl⟩ ?_
  · simp only [Console.readLine, ← linked.input, ← linked.interrupts]
    split
    · exact { linked with input := rfl, interrupts := rfl }
    · exact { linked with input := rfl, interrupts := rfl }
  · simp only [Console.readLine, ← linked.input, ← linked.interrupts]
    split
    · exact .error _
    · exact .ok rfl

omit steady stands in
theorem mapM_congr {β : Type} {args args' : List Value} {q : Value → Except Fault β}
    (each : List.Forall₂ (link.Same n) args args') (blind : ∀ f v, q (Value.renumber f v) = q v) :
    args.mapM q = args'.mapM q := by
  induction each with
  | nil => rfl
  | cons first rest ih => rw [List.mapM_cons, List.mapM_cons, first.congr blind, ih]

omit steady stands in
theorem joinTexts_congr {args args' : List Value} (each : List.Forall₂ (link.Same n) args args') :
    Run.joinTexts 0 args = Run.joinTexts 0 args' := by
  obtain ⟨f, g, numbering⟩ := link.numbering_exists n
  have mapped := same_items each f g numbering
  rw [Value.renumber_list, Value.renumber_list] at mapped
  rw [← Run.joinTexts_renumber (f := f), Value.list.inj mapped, Run.joinTexts_renumber]

omit steady stands in
theorem same_texts (texts : List String) :
    link.Same n (.list (texts.map .str)) (.list (texts.map .str)) := by
  apply same_items
  induction texts with
  | nil => exact .nil
  | cons text texts ih => exact .cons (same_str text) ih

theorem agree_callBuiltin (f : Builtin) {args args' : List Value}
    (each : List.Forall₂ (link.Same m.serial) args args') :
    link.Agree chain m stand link.Same ((Run.callBuiltin f args).exec m)
      ((Run.callBuiltin f args').exec m') := by
  cases f with
  | print address =>
      have texts := mapM_congr each fun f v => Value.text_renumber v
      apply Agree.bind_equal (agree_lift_equal stands texts)
      intro _ texts n n' _ stands
      apply Agree.bind_equal (agree_write stands (Or.inr rfl))
      intro _ _ n n' _ stands
      exact agree_pure stands same_null
  | string address =>
      have texts := mapM_congr each fun f v => Run.shownText_renumber v
      apply Agree.bind_equal (agree_lift_equal stands texts)
      intro _ texts n n' _ stands
      split
      · exact agree_pure stands (same_str _)
      · exact agree_pure stands (same_texts _)
  | input address =>
      apply Agree.bind_equal (agree_lift_equal stands (joinTexts_congr each))
      intro _ texts n n' _ stands
      apply Agree.bind_equal (agree_write stands (Or.inr rfl))
      intro _ _ n n' _ stands
      apply Agree.bind_equal (agree_readLine stands)
      intro _ line n n' _ stands
      exact agree_pure stands (same_str line)
  | echo serial => exact agree_pure stands (same_items each)

theorem agree_firstResult {rs ss : List Result} (related : link.RelatedAll m.serial rs ss) :
    link.Agree chain m stand link.Same ((Run.firstResult rs).exec m)
      ((Run.firstResult ss).exec m') := by
  cases related with
  | nil => exact agree_throw (steady.machines stands) _
  | cons first rest =>
      apply Agree.bind (agree_snapshot stands first)
      intro _ v w n n' _ stands same
      cases v with
      | list items =>
          obtain ⟨others, rfl, each⟩ := same.items
          cases each with
          | nil => exact agree_pure stands same
          | cons head tail => exact agree_pure stands head
      | _ =>
          cases w with
          | list others =>
              obtain ⟨items, list⟩ := same.items_right
              cases list
          | _ => exact agree_pure stands same

theorem agree_applyUnary (operator : String) {r s : Result} (related : link.Related m.serial r s) :
    link.Agree chain m stand link.Related ((Run.applyUnary operator r).exec m)
      ((Run.applyUnary operator s).exec m') := by
  unfold Run.applyUnary
  split
  · exact agree_throw (steady.machines stands) _
  · rename_i op _
    apply Agree.bind (agree_unwrap stands related)
    intro _ v w n n' _ stands same
    apply Agree.bind (agree_lift stands (same.outcomes fun f v => op.apply_renumber v))
    intro _ v w n n' _ stands same
    exact agree_pure stands (.value (same.map fun f v => Value.orZero_renumber v))

theorem agree_applyBinary (operator : String) {l r l' r' : Result}
    (first : link.Related m.serial l l') (second : link.Related m.serial r r') :
    link.Agree chain m stand link.Related ((Run.applyBinary operator l r).exec m)
      ((Run.applyBinary operator l' r').exec m') := by
  unfold Run.applyBinary
  split
  · exact agree_throw (steady.machines stands) _
  · rename_i op _
    apply Agree.bind (agree_unwrap stands first)
    intro _ v w n n' later stands left
    apply Agree.bind (agree_unwrap stands (second.mono later.serial))
    intro _ v' w' n n' later stands right
    apply Agree.bind (agree_lift stands ((left.mono later.serial).apply op right))
    intro _ v w n n' _ stands same
    exact agree_pure stands (.value (same.map fun f v => Value.orZero_renumber v))

theorem agree_return {r s : Result} (related : link.Related m.serial r s) :
    link.Agree chain m stand link.Related
      ((do return .value (← Run.unwrap r).returned : Run Result).exec m)
      ((do return .value (← Run.unwrap s).returned : Run Result).exec m') := by
  apply Agree.bind (agree_unwrap stands related)
  intro _ v w n n' _ stands same
  exact agree_pure stands (.value (same.map fun f v => Value.returned_renumber v))

end Steps

section Names

variable {stand : Chain → Machine → Machine → Prop} [steady : link.Steady stand] {m m' : Machine}
  {s t : Scope} {name : String} (stands : stand chain m m') (scopes : link.Scopes chain s t)
include steady stands

/-- The same is written and done to the stores. -/
theorem agree_stored {α : Type} (related : Nat → α → α → Prop) {o o' : Except Fault α × Store}
    (parallel : Parallel link m.serial chain m.store (related m.serial) o o') {text text' : String}
    (texts : link.Texts text text') :
    link.Agree chain m stand related
      (o.1, { m with console := m.console.write text, store := o.2 })
      (o'.1, { m' with console := m'.console.write text', store := o'.2 }) := by
  have linked : link.Machines chain { m with console := m.console.write text, store := o.2 }
      { m' with console := m'.console.write text', store := o'.2 } :=
    { (steady.machines stands).withOutput texts with stores := parallel.stores }
  exact agree_changed stands linked ⟨parallel.kept, Nat.le_refl _⟩ ⟨rfl, rfl⟩ ⟨rfl, rfl⟩
    parallel.outcome

include scopes

theorem agree_lookup (knows : link.Knows m.store s name) :
    link.Agree chain m stand (link.Found chain m.store s name) ((Run.lookup s name).exec m)
      ((Run.lookup t name).exec m') := by
  have stores := (steady.machines stands).stores
  have parallel : Parallel link m.serial chain m.store (link.Found chain m.store s name m.serial)
      (m.store.get s name, m.store) (m'.store.get t name, m'.store) :=
    ⟨stores.get scopes knows, stores, .refl chain m.store⟩
  rw [Run.exec_lookup, Run.exec_lookup]
  exact agree_stored stands _ parallel (stores.searchTrace scopes knows.known)

theorem agree_assign {v w : Value} (knows : link.Knows m.store s name)
    (same : link.Same m.serial v w) (binding : Option String) :
    link.Agree chain m stand link.Same
      ((Run.assign s name v binding).exec m) ((Run.assign t name w binding).exec m') := by
  have ran (scope : Scope) (value : Value) (machine : Machine) :
      (Run.assign scope name value binding).exec machine =
        ((machine.store.set scope name value binding).1,
          { machine with
            console := machine.console.write (machine.store.setTrace scope name)
            store := (machine.store.set scope name value binding).2 }) :=
    rfl
  have stores := (steady.machines stands).stores
  rw [ran, ran]
  exact agree_stored stands link.Same (parallel_set stores scopes knows same binding)
    (stores.setTrace scopes knows)

theorem agree_defineFunction {v w : Value} (knows : link.Knows m.store s name)
    (same : link.Same m.serial v w) (callable : link.Callable (link.Knows m.store s) v) :
    link.Agree chain m stand link.Same
      ((Run.defineFunction s name v).exec m) ((Run.defineFunction t name w).exec m') := by
  have ran (scope : Scope) (f : Value) (machine : Machine) :
      (Run.defineFunction scope name f).exec machine =
        ((machine.store.defineFunction scope name f).1,
          { machine with
            console := machine.console.write (machine.store.defineTrace scope name)
            store := (machine.store.defineFunction scope name f).2 }) :=
    rfl
  have stores := (steady.machines stands).stores
  rw [ran, ran]
  exact agree_stored stands link.Same (parallel_defineFunction stores scopes knows same callable)
    (stores.defineTrace scopes knows)

end Names

section Parameters

variable {stand : Chain → Machine → Machine → Prop} [steady : link.Steady stand] {m m' : Machine}
  {i : Nat} {s t : Scope} {args args' : List Value} {v w : Value} {p : Parameter}

theorem same_given (same : link.Same n v w) (each : List.Forall₂ (link.Same n) args args') :
    link.Same n (Parameter.given v args) (Parameter.given w args') := by
  have opens : v.isOpen = w.isOpen := same.congr fun f v => Value.isOpen_renumber v
  have truths : v.truthy = w.truthy := same.congr fun f v => Value.truthy_renumber v
  cases each with
  | nil =>
      simp only [Parameter.given, opens]
      split
      · exact same_str _
      · exact same
  | @cons arg arg' rest rest' first others =>
      have closed : arg.isOpen = arg'.isOpen := first.congr fun f v => Value.isOpen_renumber v
      simp only [Parameter.given, closed, truths]
      split
      · exact first
      · split
        · exact same
        · exact same_str _

/-- A parameter is bound in the frame of a call, whatever its name inside of an enclosing call. -/
theorem agree_bindParameter {name : String} (stands : stand chain m m')
    (scopes : link.Scopes chain (i :: s) t) (counts : link.Counts i name)
    (same : link.Same m.serial v w) (binding : Option String) :
    link.Agree chain m stand link.Same ((Run.bindParameter (i :: s) name v binding).exec m)
      ((Run.bindParameter t name w binding).exec m') := by
  have ran (scope : Scope) (value : Value) (machine : Machine) :
      (Run.bindParameter scope name value binding).exec machine =
        ((machine.store.setParameter scope name value binding).1,
          { machine with
            console := machine.console.write (machine.store.searchTrace scope name)
            store := (machine.store.setParameter scope name value binding).2 }) :=
    rfl
  have stores := (steady.machines stands).stores
  have here (k : Nat) (outer : Scope) (is : i :: s = k :: outer) : link.Counts k name :=
    (List.cons.inj is).1 ▸ counts
  have texts : link.Texts (m.store.searchTrace (i :: s) name) (m'.store.searchTrace t name) :=
    stores.searchTrace scopes fun outside => counts.resolve_right (outside i List.mem_cons_self)
  rw [ran, ran]
  exact agree_stored stands link.Same (parallel_setParameter stores scopes here same binding) texts

theorem agree_bind (stands : stand chain m m') (scopes : link.Scopes chain (i :: s) t)
    (counts : link.Counts i p.name) (same : link.Same m.serial v w) (function : String) :
    link.Agree chain m stand Equal ((p.bind function (i :: s) v).exec m)
      ((p.bind function t w).exec m') := by
  apply Agree.rethrow
  apply Agree.bind (agree_bindParameter stands scopes counts same p.binding)
  intro _ _ _ n n' _ stands _
  exact agree_pure stands rfl

/-- A parameter is bound to its argument or its default, and in the frame of a call it then is bound. -/
theorem agree_bindOne (stands : stand chain m m') (scopes : link.Scopes chain (i :: s) t)
    (counts : link.Counts i p.name) (fixed : link.Fixed p.default.toValue)
    (each : List.Forall₂ (link.Same m.serial) args args') (function : String) :
    link.Agree chain m
      (fun chain n n' => stand chain n n' ∧ (link.Own i → n.store.Binds i p.name)) Equal
      ((Run.bindParameters function (i :: s) [p] args).exec m)
      ((Run.bindParameters function t [p] args').exec m') := by
  have filler : Outcomes (link.Same m.serial) p.filler p.filler := by
    unfold Parameter.filler
    split
    · exact fixed.same.outcomes fun f v => Value.unwrap_renumber v
    · exact .ok same_null
  apply Agree.and
  · rw [Run.bindParameters_eq, Run.bindParameters_eq]
    apply Agree.bind (agree_lift stands filler)
    intro _ v w n n' later stands same
    have each' := each.imp fun _ _ same => same.mono later.serial
    have scopes' := scopes.kept later.toKept
    apply Agree.bind_equal (agree_bind stands scopes' counts (same_given same each') function)
    intro _ _ l l' later' stands
    exact agree_pure stands rfl
  · intro _ n ended own
    have puts := Run.bindParameters_puts m function i s p args
    rw [ended] at puts
    have made : i < m.store.frames.size := by
      cases scopes with
      | cons partners made => exact (steady.machines stands).stores.made i s (made own)
    cases puts with
    | bound kept typed store scope place =>
        rw [store]
        exact Store.binds_put.mpr (Or.inr ⟨made, rfl, rfl⟩)

/-- All parameters are bound in the frame of a call. -/
theorem agree_bindParameters {params : List Parameter} (stands : stand chain m m')
    (scopes : link.Scopes chain (i :: s) t)
    (fits : ∀ p ∈ params, link.Counts i p.name ∧ link.Fixed p.default.toValue)
    (each : List.Forall₂ (link.Same m.serial) args args') (function : String) :
    link.Agree chain m
      (fun chain n n' => stand chain n n' ∧ (link.Own i → ∀ p ∈ params, n.store.Binds i p.name)) Equal
      ((Run.bindParameters function (i :: s) params args).exec m)
      ((Run.bindParameters function t params args').exec m') := by
  induction params generalizing chain m m' args args' with
  | nil => exact agree_pure ⟨stands, fun _ => List.forall_mem_nil _⟩ rfl
  | cons p params ih =>
      obtain ⟨⟨counts, fixed⟩, fits⟩ := List.forall_mem_cons.mp fits
      rw [Run.bindParameters_cons, Run.bindParameters_cons]
      apply Agree.bind_equal (agree_bindOne stands scopes counts fixed each function)
      intro _ _ n n' later stands
      obtain ⟨stands, bound⟩ := stands
      have tails : List.Forall₂ (link.Same n.serial) args.tail args'.tail := by
        cases each with
        | nil => exact .nil
        | cons first rest => exact rest.imp fun _ _ same => same.mono later.serial
      have others := ih stands (scopes.kept later.toKept) fits tails
      refine others.kept.weaken fun {_ l l'} stands => ⟨stands.1.1, fun own => ?_⟩
      exact List.forall_mem_cons.mpr ⟨stands.2.binds i p.name (bound own), stands.1.2 own⟩

end Parameters

section Scopes

variable {imports : Bool} {s t : Scope} {m m' : Machine} (abreast : link.Abreast imports s t chain m m')
include abreast

theorem agree_demandScope (member : String) :
    link.Agree chain m (link.Abreast imports s t) (fun _ => link.AtHand chain s t)
      ((Run.demandScope member).exec m) ((Run.demandScope member).exec m') := by
  have nil_iff := abreast.hand.scopes.eq_nil_iff
  by_cases outside : m.scope = []
  · have ran (machine : Machine) (none : machine.scope = []) :
        (Run.demandScope member).exec machine = (.error (.noAttribute "NoneType" member), machine) := by
      simp [Run.demandScope, none]
    rw [ran m outside, ran m' (nil_iff.mp outside)]
    exact .error (.refl chain m) abreast.toMachines
  · rw [Run.exec_demandScope outside, Run.exec_demandScope fun none => outside (nil_iff.mpr none)]
    exact .ok (.refl chain m) abreast abreast.hand

/-- A result that can be called from a scope, if it is a function. A variable is one that the scope
sees. -/
inductive Calls (link : Link) (chain : Chain) (a : Store) (s : Scope) : Result → Prop
  | value {v : Value} (callable : link.Callable (link.Knows a s) v) : Calls link chain a s (.value v)
  | cell {i : Nat} {name : String}
      (inside : link.enclosed → ∃ outer t, link.Scopes chain (i :: outer) t ∧ i :: outer <:+ s) :
      Calls link chain a s (.cell i name)

omit abreast in
theorem Calls.kept {a b : Store} {r : Result} (calls : link.Calls chain a s r)
    (kept : Kept chain chain' a b) : link.Calls chain' b s r := by
  cases calls with
  | value callable => exact .value (callable.mono fun x knows => knows.kept kept)
  | cell inside =>
      refine .cell fun enclosed => ?_
      obtain ⟨outer, t, scopes, within⟩ := inside enclosed
      exact ⟨outer, t, scopes.kept kept, within⟩

omit abreast in
theorem Calls.snapshot {a b : Store} {r r' : Result} (calls : link.Calls chain a s r)
    (related : link.Related n r r') (stores : link.Stores n chain a b) :
    link.Callable (link.Knows a s) (r.snapshot a) := by
  cases calls with
  | value callable =>
      rw [Result.snapshot]
      exact callable
  | @cell i name inside =>
      cases related with
      | @cell _ j _ partners counts =>
          rw [Result.snapshot]
          cases found : a.binding? i name with
          | none => exact fun serial address name params body is => Value.noConfusion is
          | some binding =>
              cases binding with
              | record r => exact fun serial address name params body is => Value.noConfusion is
              | function f =>
                  refine (stores.functions i j name f partners counts found).mono fun x sees => ?_
                  rcases id sees with known | ⟨own, -⟩
                  · exact Or.inl known
                  · obtain ⟨outer, t, scopes, within⟩ := inside own.1
                    exact (scopes.sees_iff.mp sees).inward within

theorem agree_evalName {name : String} (knows : link.Knows m.store s name) :
    link.Agree chain m (link.Abreast imports s t)
      (fun n r r' => link.Related n r r' ∧ link.Calls chain m.store s r)
      ((Run.evalName name).exec m) ((Run.evalName name).exec m') := by
  have hand := abreast.hand
  have nil_iff := hand.scopes.eq_nil_iff
  by_cases outside : m.scope = []
  · have ran (machine : Machine) (none : machine.scope = []) : (Run.evalName name).exec machine =
        (.error (.noAttribute "NoneType" "get_var"), machine) := by
      simp [Run.evalName, Run.demandScope, none]
    rw [ran m outside, ran m' (nil_iff.mp outside)]
    exact .error (.refl chain m) abreast.toMachines
  · unfold Run.evalName
    rw [Run.exec_bind, Run.exec_bind, Run.exec_demandScope outside,
      Run.exec_demandScope fun none => outside (nil_iff.mpr none)]
    apply Agree.bind (agree_lookup abreast hand.scopes (hand.knows knows))
    intro _ x y n n' _ abreast found
    obtain ⟨i, binding⟩ := x
    obtain ⟨j, binding'⟩ := y
    obtain ⟨partners, counts, bound, inside, callable⟩ := found
    cases bound with
    | record value type binding =>
        refine agree_pure abreast ⟨.cell partners counts, .cell fun enclosed => ?_⟩
        rw [← (hand.here enclosed).1]
        exact inside
    | function same =>
        refine agree_pure abreast ⟨.value same, .value ?_⟩
        exact (callable _ rfl).mono fun x knows => hand.entered knows

theorem agree_assignTo {name : String} {r r' : Result} (knows : link.Knows m.store s name)
    (related : link.Related m.serial r r') (binding : Option String) :
    link.Agree chain m (link.Abreast imports s t) link.Related
      ((Run.assignTo binding name r).exec m) ((Run.assignTo binding name r').exec m') := by
  apply Agree.bind (agree_snapshot abreast related)
  intro _ v w n n' later abreast same
  have knows := knows.kept later.toKept
  apply Agree.bind (agree_lift abreast (same.outcomes fun f v => Run.assignedValue_renumber v))
  intro _ v w n n' later abreast same
  have knows := knows.kept later.toKept
  apply Agree.bind (agree_demandScope abreast "set_var")
  intro _ x y n n' later abreast hand
  have knows := knows.kept later.toKept
  have hand := hand.kept later.toKept
  apply Agree.bind (agree_assign abreast hand.scopes (hand.knows knows) (same.mono later.serial) binding)
  intro _ v w n n' _ abreast same
  exact agree_pure abreast (.value same)

omit abreast in
/-- The functions that two machines make next get numbers that correspond, and lie at the same
address. -/
theorem Machines.counted (linked : link.Machines chain m m') :
    link.Machines chain { m with serial := m.serial + 1 } { m' with serial := m'.serial + 1 } :=
  { linked with
    stores := linked.stores.mono (Nat.le_succ _)
    supply := fun t f g numbering => by
      have next := linked.supply (t + 1) f g
      rw [← Nat.add_assoc, Nat.add_right_comm m.serial, ← Nat.add_assoc,
        Nat.add_right_comm m'.serial] at next
      exact next numbering
    addresses := fun t => by
      have next := linked.addresses (t + 1)
      rwa [← Nat.add_assoc, Nat.add_right_comm m.serial, ← Nat.add_assoc,
        Nat.add_right_comm m'.serial] at next }

theorem agree_define {name : String} {params : List Parameter} {body : List Expr}
    (knows : link.Knows m.store s name)
    (fits : Expr.BodyFits link.Admits link.Fixed (link.Knows m.store s) params body) :
    link.Agree chain m (link.Abreast imports s t) link.Related
      ((Run.eval 1 (.define name params body)).exec m)
      ((Run.eval 1 (.define name params body)).exec m') := by
  have ran (machine : Machine) : (Run.eval 1 (.define name params body)).exec machine =
      (do
        let scope ← Run.demandScope "def_func"
        return .value (← Run.defineFunction scope name (.function machine.serial
          (machine.host.address machine.serial) name params body)) : Run Result).exec
            { machine with serial := machine.serial + 1 } :=
    rfl
  have address : m.host.address m.serial = m'.host.address m'.serial := abreast.addresses 0
  have made : link.Same (m.serial + 1)
      (.function m.serial (m.host.address m.serial) name params body)
      (.function m'.serial (m'.host.address m'.serial) name params body) := by
    intro f g numbering
    have next : f m.serial = g m'.serial := abreast.supply 0 f g numbering
    rw [Value.renumber, Value.renumber, next, address]
  have counted : link.Abreast imports s t chain { m with serial := m.serial + 1 }
      { m' with serial := m'.serial + 1 } :=
    { abreast.toMachines.counted with hand := abreast.hand, modules := abreast.modules }
  rw [ran, ran]
  have begun : Later chain chain m { m with serial := m.serial + 1 } :=
    ⟨.refl chain m.store, Nat.le_succ m.serial⟩
  refine Agree.since ?_ begun
  apply Agree.bind (agree_demandScope counted "def_func")
  intro _ x y n n' later abreast hand
  have hand := hand.kept later.toKept
  have callable : link.Callable (link.Knows n.store x)
      (.function m.serial (m.host.address m.serial) name params body) := by
    intro serial address called params body is
    cases is
    exact fits.mono (fun _ => id) (fun _ => id) fun x knows => hand.knows (knows.kept later.toKept)
  apply Agree.bind (agree_defineFunction abreast hand.scopes (hand.knows (knows.kept later.toKept))
    (made.mono later.serial) callable)
  intro _ v w n n' _ abreast same
  exact agree_pure abreast (.value same)

/-- Frames are made for a call. They are partners, and not traced. -/
theorem agree_extend {around around' : Scope} (outer : link.Scopes chain around around')
    (label : Option String) :
    link.Agree chain m
      (fun chain n n' => link.Abreast imports s t chain n n' ∧
        link.Scopes chain (m.store.frames.size :: around) (m'.store.frames.size :: around'))
      (fun _ x y => x = m.store.frames.size :: around ∧ y = m'.store.frames.size :: around')
      ((Run.extend around label false).exec m) ((Run.extend around' label false).exec m') := by
  have stores := abreast.stores
  have kept := kept_extend chain m.store around label stores.made
  have extended : link.Abreast imports s t (chain.extend m.store.frames.size around)
      { m with store := (m.store.extend around label false).2 }
      { m' with store := (m'.store.extend around' label false).2 } :=
    { abreast with
      stores := stores.extend around around' label
      hand := abreast.hand.kept kept }
  exact .ok ⟨kept, Nat.le_refl _⟩ ⟨extended, stores.opened outer label⟩ ⟨rfl, rfl⟩

/-- Out of the scope of a call the machines come to the scopes around it. -/
theorem agree_leaveScope {i j : Nat} {around around' : Scope} (left : s = i :: around)
    (right : t = j :: around') (outer : link.Scopes chain around around') :
    link.Agree chain m (link.Abreast imports around around') Equal (Run.leaveScope.exec m)
      (Run.leaveScope.exec m') := by
  have hand := abreast.hand
  have nil_iff := hand.scopes.eq_nil_iff
  rw [Run.exec_leaveScope, Run.exec_leaveScope]
  by_cases outside : m.scope = []
  · rw [if_pos outside, if_pos (nil_iff.mp outside)]
    exact .error (.refl chain m) abreast.toMachines
  · rw [if_neg outside, if_neg fun none => outside (nil_iff.mpr none)]
    have tails : link.AtHand chain around around' m.scope.tail m'.scope.tail := by
      by_cases enclosed : link.enclosed
      · obtain ⟨here, here'⟩ := hand.here enclosed
        rw [here, here', left, right]
        exact ⟨outer, fun _ => ⟨rfl, rfl⟩⟩
      · exact ⟨hand.scopes.tail enclosed, fun enclosed' => absurd enclosed' enclosed⟩
    exact .ok ⟨.refl chain m.store, Nat.le_refl _⟩ { abreast with hand := tails } rfl

end Scopes

section Properties

variable {imports : Bool} {s t : Scope} {m m' : Machine} {v w : Value} {α : Type}

/-- Of an object that has no properties nothing is read. -/
theorem agree_indexed {stand : Chain → Machine → Machine → Prop} {results : Nat → α → α → Prop}
    {k l : Unit → Run α} (abreast : link.Abreast imports s t chain m m') (name : String)
    (same : link.Same m.serial v w)
    (others : link.Agree chain m stand results ((k ()).exec m) ((l ()).exec m')) :
    link.Agree chain m stand results
      ((if !v.equal (.str "obj") then do
        let text ← liftM v.text
        let u ← throw (.notIndexable name text)
        k u
      else k ()).exec m)
      ((if !w.equal (.str "obj") then do
        let text ← liftM w.text
        let u ← throw (.notIndexable name text)
        l u
      else l ()).exec m') := by
  have kinds : v.equal (.str "obj") = w.equal (.str "obj") :=
    same.congr (q := fun v => v.equal (.str "obj")) fun f v => Value.equal_str_renumber v "obj"
  have texts : v.text = w.text := same.congr fun f v => Value.text_renumber v
  rw [kinds, texts]
  split
  · apply Agree.bind_equal (agree_lift_equal abreast rfl)
    intro _ text n n' _ abreast
    rw [Run.exec_bind, Run.exec_bind]
    exact .error (.refl _ _) abreast.toMachines
  · exact others

theorem agree_entry (abreast : link.Abreast imports s t chain m m') (name property : String)
    (same : link.Same m.serial v w) :
    link.Agree chain m (link.Abreast imports s t) link.Related
      ((do
        if ← liftM (v.contains property) then
          return .value (← liftM (v.subscript property))
        else throw (.noProperty name property) : Run Result).exec m)
      ((do
        if ← liftM (w.contains property) then
          return .value (← liftM (w.subscript property))
        else throw (.noProperty name property) : Run Result).exec m') := by
  have contained : v.contains property = w.contains property :=
    same.congr fun f v => Value.contains_renumber property v
  apply Agree.bind_equal (agree_lift_equal abreast contained)
  intro _ has n n' later abreast
  split
  · have entries := (same.mono later.serial).outcomes fun f v => Value.subscript_renumber property v
    apply Agree.bind (agree_lift abreast entries)
    intro _ a b n n' _ abreast same
    exact agree_pure abreast (.value same)
  · exact agree_throw abreast.toMachines _

/-- A property that is not a call is read alike. -/
theorem agree_evalProperty {ev : Expr → Run Result} {name : String} {index : Expr}
    (abreast : link.Abreast imports s t chain m m') (knows : link.Knows m.store s name)
    (noCall : ∀ callee args, index ≠ .call callee args) :
    link.Agree chain m (link.Abreast imports s t) link.Related
      ((Run.evalProperty ev name index).exec m) ((Run.evalProperty ev name index).exec m') := by
  unfold Run.evalProperty
  split
  · exact (agree_evalName abreast knows).imp fun _ found => found.1
  · apply Agree.bind (agree_evalName abreast knows)
    intro _ r r' n n' _ abreast found
    apply Agree.bind (agree_snapshot abreast found.1)
    intro _ v w n n' _ abreast same
    apply Agree.bind (agree_lift abreast
      (same.outcomes fun f v => Value.subscript_renumber "type" v))
    intro _ type type' n n' later abreast types
    have objects := (same.mono later.serial).outcomes fun f v => Value.subscript_renumber "value" v
    split
    · apply agree_indexed abreast name types
      apply Agree.bind (agree_lift abreast objects)
      intro _ object object' n n' _ abreast same
      exact agree_entry abreast name _ same
    · apply agree_indexed abreast name types
      apply Agree.bind (agree_lift abreast objects)
      intro _ object object' n n' _ abreast same
      exact agree_entry abreast name _ same
    · exact absurd rfl (noCall _ _)
    · apply agree_indexed abreast name types
      apply Agree.bind (agree_lift abreast objects)
      intro _ object object' n n' _ abreast _
      exact agree_pure abreast (.value same_null)

end Properties

end Link

end Scriptlet
