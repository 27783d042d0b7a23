import Scriptlet.Proofs.Evaluation.History
import Scriptlet.Proofs.Evaluation.Lockstep

set_option autoImplicit false

/-!
Linked machines stay linked while the same program runs on both: first for one level of evaluation
(`evalWith_follows`), then for all of it (`eval_follows`). This holds for every link, so that a
statement about two runs is a choice of what links them. Inside of a call there is one condition: the
first run calls no function without a body, as that would take it out of a scope of its own. The runs
are recorded ones, so that the condition can be stated of what happens in them.
-/

namespace Scriptlet

/-- A value that can be called. -/
def Value.isCallable : Value → Bool
  | .function .. | .builtin _ => true
  | _ => false

@[simp] theorem Value.isCallable_renumber {f : Nat → Nat} (v : Value) :
    (v.renumber f).isCallable = v.isCallable := by
  cases v <;> simp [renumber, isCallable]

theorem Recorded.call_uncallable {ev : Expr → Recorded Result} {v : Value} {scope : Scope}
    {args : List Value} (refused : v.isCallable = false) :
    Recorded.call ev v scope args = Recorded.step (throw (.notCallable v.kind)) := by
  cases v with
  | function serial address name params body => cases refused
  | builtin f => cases refused
  | _ => rfl

namespace Link

variable {link : Link} {imports : Bool} {chain chain' : Chain} {s t : Scope} {m m' : Machine} {n : Nat}
  {v w : Value}

section Returning

/-- What two functions returned is the same, or none did. -/
abbrev Returns (link : Link) (n : Nat) : Option Value → Option Value → Prop :=
  Option.Rel (link.Same n)

theorem returns_of_map {x y : Option Value}
    (same : ∀ f g, link.numbering n f g → x.map (Value.renumber f) = y.map (Value.renumber g)) :
    link.Returns n x y := by
  obtain ⟨f, g, numbering⟩ := link.numbering_exists n
  have alike := same f g numbering
  cases x with
  | none =>
      cases y with
      | none => exact .none
      | some w => cases alike
  | some v =>
      cases y with
      | none => cases alike
      | some w => exact .some fun f g numbering => Option.some.inj (same f g numbering)

theorem same_returnedBy (same : link.Same n v w) :
    Outcomes (link.Returns n) (Run.returnedBy v) (Run.returnedBy w) := by
  have mapped : ∀ f g, link.numbering n f g →
      (Run.returnedBy v).map (Option.map (Value.renumber f)) =
        (Run.returnedBy w).map (Option.map (Value.renumber g)) := by
    intro f g numbering
    rw [← Run.returnedBy_renumber, ← Run.returnedBy_renumber, same f g numbering]
  have outcomes := outcomes_of_map (q := fun f => Option.map (Value.renumber f)) mapped
  generalize Run.returnedBy v = o at outcomes ⊢
  generalize Run.returnedBy w = o' at outcomes ⊢
  cases outcomes with
  | ok returned => exact .ok (returns_of_map returned)
  | error fault => exact .error fault

theorem same_functionResult {x y : Option Value} (same : link.Returns n x y) :
    Outcomes (link.Same n) (Value.functionResult x) (Value.functionResult y) := by
  apply outcomes_of_map
  intro f g numbering
  rw [← Value.functionResult_renumber, ← Value.functionResult_renumber]
  cases same with
  | none => rfl
  | some same => rw [Option.map_some, Option.map_some, same f g numbering]

end Returning

section Accord

variable {α β : Type} {stand stand' : Chain → Machine → Machine → Prop}

/-- Two recorded runs come out alike, unless they are those of one call and a function without a body is
called in the first. -/
def Accord (link : Link) (chain : Chain) (start : Machine)
    (stand : Chain → Machine → Machine → Prop) (results : Nat → α → α → Prop)
    (x y : (Except Fault α × Machine) × List Event) : Prop :=
  (link.enclosed → ∀ event ∈ x.2, event.isHollow = false) →
    link.Agree chain start stand results x.1 y.1

theorem accord_step {results : Nat → α → α → Prop} {r r' : Run α}
    (agree : link.Agree chain m stand results (r.exec m) (r'.exec m')) :
    link.Accord chain m stand results (Recorded.step r m) (Recorded.step r' m') :=
  fun _ => agree

theorem accord_pure {results : Nat → α → α → Prop} {a b : α} (stands : stand chain m m')
    (result : results m.serial a b) :
    link.Accord chain m stand results ((pure a : Recorded α) m) ((pure b : Recorded α) m') :=
  fun _ => .ok (.refl chain m) stands result

theorem Accord.bind {results : Nat → α → α → Prop} {results' : Nat → β → β → Prop}
    {r r' : Recorded α} {k l : α → Recorded β}
    (first : link.Accord chain m stand results (r m) (r' m'))
    (next : ∀ {chain' a b n n'}, Later chain chain' m n → stand chain' n n' → results n.serial a b →
      link.Accord chain' n stand' results' (k a n) (l b n')) :
    link.Accord chain m stand' results' ((r >>= k) m) ((r' >>= l) m') := by
  intro full
  rcases ran : r m with ⟨x, events⟩
  rcases ran' : r' m' with ⟨y, events'⟩
  rw [ran, ran'] at first
  have early : link.enclosed → ∀ event ∈ events, event.isHollow = false := by
    intro enclosed event sees
    refine full enclosed event ?_
    rcases x with ⟨fault | a, between⟩
    · rw [Recorded.bind_error ran]
      exact sees
    · rw [Recorded.bind_ok ran]
      exact List.mem_append_left _ sees
  cases first early with
  | error later linked =>
      rw [Recorded.bind_error ran, Recorded.bind_error ran']
      exact .error later linked
  | @ok chain' a b n n' later stands result =>
      rw [Recorded.bind_ok ran] at full ⊢
      rw [Recorded.bind_ok ran']
      have late : link.enclosed → ∀ event ∈ (k a n).2, event.isHollow = false :=
        fun enclosed event sees => full enclosed event (List.mem_append_right _ sees)
      exact (next later stands result late).since later

theorem Accord.bind_equal {results : Nat → β → β → Prop} {r r' : Recorded α} {k l : α → Recorded β}
    (first : link.Accord chain m stand Equal (r m) (r' m'))
    (next : ∀ {chain' a n n'}, Later chain chain' m n → stand chain' n n' →
      link.Accord chain' n stand' results (k a n) (l a n')) :
    link.Accord chain m stand' results ((r >>= k) m) ((r' >>= l) m') := by
  apply Accord.bind first
  intro chain' a b n n' later stands same
  obtain rfl : a = b := same
  exact next later stands

theorem Accord.weaken {results : Nat → α → α → Prop} {x y : (Except Fault α × Machine) × List Event}
    (accord : link.Accord chain m stand results x y)
    (weaken : ∀ {chain n n'}, stand chain n n' → stand' chain n n') :
    link.Accord chain m stand' results x y :=
  fun full => (accord full).weaken weaken

/-- An event is recorded first. In a call it is not that of a function without a body. -/
theorem Accord.noted {results : Nat → α → α → Prop} {k l : Unit → Recorded α} {event event' : Event}
    (next : (link.enclosed → event.isHollow = false) →
      link.Accord chain m stand results (k () m) (l () m')) :
    link.Accord chain m stand results ((Recorded.note event >>= k) m)
      ((Recorded.note event' >>= l) m') := by
  intro full
  refine next (fun enclosed => full enclosed event List.mem_cons_self) fun enclosed other sees => ?_
  exact full enclosed other (List.mem_cons_of_mem event sees)

/-- After a fault nothing is done. -/
theorem accord_throw {results : Nat → β → β → Prop} {k l : α → Recorded β}
    (linked : link.Machines chain m m') (fault : Fault) :
    link.Accord chain m stand results ((Recorded.step (throw fault) >>= k) m)
      ((Recorded.step (throw fault) >>= l) m') :=
  fun _ => .error (.refl chain m) linked

/-- The machines are read first. -/
theorem Accord.read {results : Nat → α → α → Prop} {k l : Machine → Recorded α}
    (next : link.Accord chain m stand results (k m m) (l m' m')) :
    link.Accord chain m stand results ((Recorded.step get >>= k) m) ((Recorded.step get >>= l) m') := by
  intro full
  exact next fun enclosed event sees => full enclosed event (List.mem_cons_of_mem _ sees)

end Accord

/-- Two results that are the same value. -/
def SameValue (link : Link) (n : Nat) (r r' : Result) : Prop :=
  ∃ v w, r = .value v ∧ r' = .value w ∧ link.Same n v w

theorem SameValue.related {r r' : Result} (same : link.SameValue n r r') : link.Related n r r' := by
  obtain ⟨v, w, rfl, rfl, same⟩ := same
  exact .value same

/-- An evaluator keeps machines abreast on every expression that can be run in both. -/
def Follows (link : Link) (ev : Expr → Recorded Result) : Prop :=
  ∀ {imports s t chain m m' e}, link.Abreast imports s t chain m m' → link.Fits m.store s imports e →
    link.Accord chain m (link.Abreast imports s t) link.Related (ev e m) (ev e m')

section Programs

/-- The same text of a module that two machines find. -/
def SameText (link : Link) (m m' : Machine) (_ : Nat) (text text' : String) : Prop :=
  text = text' ∧ link.finds ∧ m.folder = m'.folder ∧ m.verbose = m'.verbose

/-- The same program, read from tokens. -/
def SameProgram (_ : Nat) (program program' : List Expr) : Prop :=
  program = program' ∧ ∃ tokens, Expr.ofTokens tokens = .ok program

/-- The same program, which can be run in both from anywhere. -/
def SameFitting (link : Link) (_ : Nat) (program program' : List Expr) : Prop :=
  program = program' ∧ ∀ a s, ∀ e ∈ program, link.Fits a s true e

/-- What is read from a text is the same for both. -/
theorem agree_readProgram {stand : Chain → Machine → Machine → Prop} [steady : link.Steady stand]
    (stands : stand chain m m') (finds : link.finds) (text : String) (verbose : Bool) :
    link.Agree chain m stand SameProgram ((Run.readProgram text verbose).exec m)
      ((Run.readProgram text verbose).exec m') := by
  apply Agree.bind_equal (agree_lift_equal stands rfl)
  intro _ tokens n n' _ stands
  have parsed : Outcomes (SameProgram n.serial) (Expr.ofTokens tokens) (Expr.ofTokens tokens) := by
    cases read : Expr.ofTokens tokens with
    | error fault => exact .error fault
    | ok program => exact .ok ⟨rfl, tokens, read⟩
  apply Agree.bind (agree_lift stands parsed)
  intro _ program program' n n' _ stands same
  obtain ⟨rfl, read⟩ := same
  cases verbose with
  | false => exact agree_pure stands ⟨rfl, read⟩
  | true =>
      apply agree_listed stands finds program
      intro _ n n' _ stands
      exact agree_pure stands ⟨rfl, read⟩

/-- A program that was read is the same for both when it is folded, and can be run in both. -/
theorem same_folded {program : List Expr} (finds : link.finds) {tokens : List Token}
    (read : Expr.ofTokens tokens = .ok program) :
    Outcomes (SameFitting link n) (Expr.foldProgram program).1 (Expr.foldProgram program).1 := by
  cases ran : (Expr.foldProgram program).1 with
  | error fault => exact .error fault
  | ok folded =>
      refine .ok ⟨rfl, fun a s e sees => ?_⟩
      have any := link.known_of_finds finds
      exact (Expr.foldProgram_fits read ran e sees).mono (fun name _ => Or.inl (any name))
        (fun _ => fixed_of_unnumbered) fun name _ => Or.inl (any name)

end Programs

section Evaluators

variable {ev : Expr → Recorded Result} (follows : link.Follows ev)
include follows

theorem accord_evalAll {es : List Expr} (abreast : link.Abreast imports s t chain m m')
    (fits : ∀ e ∈ es, link.Fits m.store s imports e) :
    link.Accord chain m (link.Abreast imports s t) link.RelatedAll (Recorded.evalAll ev es m)
      (Recorded.evalAll ev es m') := by
  induction es generalizing chain m m' with
  | nil => exact accord_pure abreast .nil
  | cons e rest ih =>
      obtain ⟨first, others⟩ := List.forall_mem_cons.mp fits
      apply Accord.bind (follows abreast first)
      intro _ r r' n n' later abreast related
      apply Accord.bind (ih abreast fun e sees => (others e sees).kept later.toKept)
      intro _ rs ss n n' later abreast relatedAll
      exact accord_pure abreast ((related.mono later.serial).spread.append relatedAll)

/-- The machines go to a place, from wherever they stand. -/
theorem accord_evalIn {es : List Expr} {x y : Scope} {verbose verbose' : Bool}
    {folder folder' : Option Path}
    (abreast : link.Abreast imports s t chain { m with scope := x, verbose, folder }
      { m' with scope := y, verbose := verbose', folder := folder' })
    (fits : ∀ e ∈ es, link.Fits m.store s imports e) :
    link.Accord chain m (link.Abreast imports s t) link.RelatedAll
      (Recorded.evalIn ev es x verbose folder m) (Recorded.evalIn ev es y verbose' folder' m') := by
  have moved : link.Accord chain m (link.Abreast imports s t) Equal
      (Recorded.step (modify fun m => { m with scope := x, verbose, folder }) m)
      (Recorded.step (modify fun m => { m with scope := y, verbose := verbose', folder := folder' })
        m') :=
    fun _ => .ok ⟨.refl chain m.store, Nat.le_refl _⟩ abreast rfl
  apply Accord.bind_equal moved
  intro _ _ n n' later abreast
  exact accord_evalAll follows abreast fun e sees => (fits e sees).kept later.toKept

/-- Where no module is found, imports do not matter. -/
theorem accord_evalInside {es : List Expr} {x y : Scope} (linked : link.Machines chain m m')
    (hand : link.AtHand chain s t x y) (fits : ∀ e ∈ es, link.Fits m.store s true e) :
    link.Accord chain m (link.Abreast imports s t) link.RelatedAll
      (Recorded.evalInside ev es x m) (Recorded.evalInside ev es y m') := by
  have entered : link.Abreast true s t chain { m with scope := x, verbose := false, folder := none }
      { m' with scope := y, verbose := false, folder := none } :=
    { stores := linked.stores, input := linked.input, interrupts := linked.interrupts,
      output := linked.output, supply := linked.supply, addresses := linked.addresses,
      files := linked.files, encode := linked.encode, hand,
      modules := fun _ => Or.inl ⟨rfl, rfl⟩ }
  exact Accord.noted fun _ => (accord_evalIn follows entered fits).weaken Abreast.any

theorem accord_evalBlock {body : List Expr} (abreast : link.Abreast imports s t chain m m')
    (fits : ∀ e ∈ body, link.Fits m.store s true e) :
    link.Accord chain m (link.Abreast imports s t) link.RelatedAll (Recorded.evalBlock ev body m)
      (Recorded.evalBlock ev body m') :=
  Accord.read (accord_evalInside follows abreast.toMachines abreast.hand fits)

/-- The first statement of a body enters the scope of the call, from wherever the machines stand. -/
theorem accord_evalBody {body : List Expr} (linked : link.Machines chain m m')
    (scopes : link.Scopes chain s t)
    (hollow : body = [] → link.Abreast imports s t chain m m')
    (fits : ∀ e ∈ body, link.Fits m.store s true e) :
    link.Accord chain m (link.Abreast imports s t) link.Returns (Recorded.evalBody ev s body m)
      (Recorded.evalBody ev t body m') := by
  induction body generalizing chain m m' with
  | nil => exact accord_pure (hollow rfl) .none
  | cons e rest ih =>
      obtain ⟨first, others⟩ := List.forall_mem_cons.mp fits
      apply Accord.bind (accord_evalInside follows linked ⟨scopes, fun _ => ⟨rfl, rfl⟩⟩
        (List.forall_mem_singleton.mpr first))
      intro _ rs ss n₁ n₁' later₁ abreast related
      apply Accord.bind (accord_step (agree_firstResult abreast related))
      intro _ v w n₂ n₂' later₂ abreast same
      apply Accord.bind (accord_step (agree_lift abreast (same_returnedBy same)))
      intro _ x y n₃ n₃' later₃ abreast returned
      have later := (later₁.trans later₂).trans later₃
      cases returned with
      | some same => exact accord_pure abreast (.some same)
      | none =>
          exact ih abreast.toMachines (scopes.kept later.toKept) (fun _ => abreast)
            fun e sees => (others e sees).kept later.toKept

/-- A call of a function with its frames made. The machines stand as they do once they have left the
scope of the call. -/
theorem accord_callFunction {before stand : Chain → Machine → Machine → Prop} [link.Steady before]
    [link.Steady stand] {i j serial serial' : Nat} {address name : String} {params : List Parameter}
    {body : List Expr} {args args' : List Value} (stands : before chain m m')
    (scopes : link.Scopes chain (i :: s) (j :: t)) (own : link.enclosed → link.Own i)
    (fits : Expr.BodyFits link.Admits link.Fixed (link.Knows m.store s) params body)
    (each : List.Forall₂ (link.Same m.serial) args args')
    (hollow : body = [] → ¬ link.enclosed → ∀ {chain n n'}, before chain n n' →
      link.Abreast imports (i :: s) (j :: t) chain n n')
    (leave : ∀ {chain' n n'}, Later chain chain' m n →
      link.Abreast imports (i :: s) (j :: t) chain' n n' →
      link.Agree chain' n stand Equal (Run.leaveScope.exec n) (Run.leaveScope.exec n')) :
    link.Accord chain m stand link.SameValue
      (Recorded.call ev (.function serial address name params body) (i :: s) args m)
      (Recorded.call ev (.function serial' address name params body) (j :: t) args' m') := by
  apply Accord.noted
  intro filled
  have lengths : args.length = args'.length := each.length_eq
  have named : ∀ p ∈ params, link.Counts i p.name ∧ link.Fixed p.default.toValue :=
    fun p has => ⟨(fits.1 p has).1.imp_right own, (fits.1 p has).2⟩
  by_cases many : params.length < args'.length
  · simp only [lengths, many, ↓reduceIte]
    exact accord_throw (Steady.machines stands) _
  · simp only [lengths, many, ↓reduceIte]
    have binds : link.Accord chain m (fun chain n n' => before chain n n' ∧
        (link.Own i → ∀ p ∈ params, n.store.Binds i p.name)) Equal
        (Recorded.bindParameters name (i :: s) params args m)
        (Recorded.bindParameters name (j :: t) params args' m') := by
      intro _
      rw [Recorded.bindParameters_records, Recorded.bindParameters_records]
      exact agree_bindParameters stands scopes named each name
    apply Accord.bind_equal binds
    intro chain₁ _ n₁ n₁' later₁ stands
    obtain ⟨stands, bound⟩ := stands
    have inner : ∀ e ∈ body, link.Fits n₁.store (i :: s) true e := by
      intro e sees
      refine (fits.2 e sees).mono (fun _ => id) (fun _ => id) fun x knows => ?_
      rcases knows with knows | param
      · exact (knows.kept later₁.toKept).inward (List.suffix_cons i s)
      · obtain ⟨p, has, rfl⟩ := List.mem_map.mp param
        rcases (fits.1 p has).1 with known | enclosed
        · exact Or.inl known
        · exact Or.inr ⟨i, List.mem_cons_self, own enclosed, bound (own enclosed) p has⟩
    have start (none : body = []) : link.Abreast imports (i :: s) (j :: t) chain₁ n₁ n₁' := by
      refine hollow none (fun enclosed => ?_) stands
      have full := filled enclosed
      simp [Event.isHollow, none] at full
    apply Accord.bind (accord_evalBody follows (Steady.machines stands) (scopes.kept later₁.toKept)
      start inner)
    intro _ x y n₂ n₂' later₂ abreast returned
    apply Accord.bind_equal (accord_step (leave (later₁.trans later₂) abreast))
    intro _ _ n₃ n₃' later₃ stands
    have results := same_functionResult (rel_imp (fun _ _ same => same.mono later₃.serial) returned)
    apply Accord.bind (accord_step (agree_lift stands results))
    intro _ v w n₄ n₄' _ stands same
    exact accord_pure stands ⟨v, w, rfl, rfl, same⟩

theorem accord_call {i j : Nat} {around around' : Scope} {args args' : List Value}
    (abreast : link.Abreast imports s t chain m m') (hand : link.AtHand chain s t around around')
    (scopes : link.Scopes chain (i :: around) (j :: around')) (own : link.enclosed → link.Own i)
    (same : link.Same m.serial v w) (callable : link.Callable (link.Knows m.store s) v)
    (each : List.Forall₂ (link.Same m.serial) args args') :
    link.Accord chain m (link.Abreast imports s t) link.Related
      (Recorded.call ev v (i :: around) args m) (Recorded.call ev w (j :: around') args' m') := by
  have kinds : v.kind = w.kind := same.congr fun f v => Value.kind_renumber v
  have calls : v.isCallable = w.isCallable := same.congr fun f v => Value.isCallable_renumber v
  by_cases refused : v.isCallable = false
  · rw [Recorded.call_uncallable refused, Recorded.call_uncallable (calls ▸ refused), kinds]
    exact accord_step (agree_throw abreast.toMachines _)
  · cases v with
    | function serial address name params body =>
        obtain ⟨serial', rfl⟩ := same.function
        have fits := callable serial address name params body rfl
        have fits' := fits.mono (fun _ => id) (fun _ => id) fun x knows => hand.knows knows
        have hollow (_ : body = []) (unenclosed : ¬ link.enclosed) {chain : Chain} {n n' : Machine}
            (abreast : link.Abreast imports s t chain n n') :
            link.Abreast imports (i :: around) (j :: around') chain n n' :=
          abreast.moved fun enclosed => absurd enclosed unenclosed
        intro full
        refine (accord_callFunction follows abreast scopes own fits' each hollow ?_ full).imp
          fun _ same => same.related
        intro chain' n n' later abreast
        have outer := hand.scopes.kept later.toKept
        exact (agree_leaveScope abreast rfl rfl outer).weaken fun abreast => abreast.moved hand.here
    | builtin f =>
        obtain rfl := same.builtin
        apply accord_step
        apply Agree.bind (agree_callBuiltin abreast f each)
        intro _ v w n n' _ abreast same
        exact agree_pure abreast (.value same)
    | _ => exact absurd rfl refused

theorem accord_evalEach {es : List Expr} (abreast : link.Abreast imports s t chain m m')
    (fits : ∀ e ∈ es, link.Fits m.store s imports e) :
    link.Accord chain m (link.Abreast imports s t) link.RelatedAll (Recorded.evalEach ev es m)
      (Recorded.evalEach ev es m') := by
  induction es generalizing chain m m' with
  | nil => exact accord_pure abreast .nil
  | cons e rest ih =>
      obtain ⟨first, others⟩ := List.forall_mem_cons.mp fits
      apply Accord.bind (follows abreast first)
      intro _ r r' n n' later abreast related
      apply Accord.bind (accord_step (agree_argument abreast related))
      intro _ arg arg' l l' later' abreast argument
      have kept := later.toKept.trans later'.toKept
      apply Accord.bind (ih abreast fun e sees => (others e sees).kept kept)
      intro _ rs ss n n' later abreast relatedAll
      exact accord_pure abreast (.cons (argument.mono later.serial) relatedAll)

theorem accord_evalArguments {es : List Expr} (abreast : link.Abreast imports s t chain m m')
    (fits : ∀ e ∈ es, link.Fits m.store s imports e) :
    link.Accord chain m (link.Abreast imports s t) (fun n => List.Forall₂ (link.Same n))
      (Recorded.evalArguments ev es m) (Recorded.evalArguments ev es m') := by
  apply Accord.bind (accord_evalEach follows abreast fits)
  intro _ rs ss n n' _ abreast related
  exact accord_step (agree_snapshots abreast related)

theorem accord_evalCall {name : String} {args : List Expr}
    (abreast : link.Abreast imports s t chain m m') (knows : link.Knows m.store s name)
    (fits : ∀ e ∈ args, link.Fits m.store s imports e) :
    link.Accord chain m (link.Abreast imports s t) link.Related (Recorded.evalCall ev name args m)
      (Recorded.evalCall ev name args m') := by
  apply Accord.bind (accord_step (agree_demandScope abreast "extend"))
  intro _ around around' n₁ n₁' later₁ abreast hand
  have hand := hand.kept later₁.toKept
  have own (enclosed : link.enclosed) : link.Own n₁.store.frames.size := ⟨enclosed, abreast.stores.old⟩
  -- The frames are made first, but callee and arguments are evaluated around them.
  apply Accord.bind (accord_step (agree_extend abreast hand.scopes _))
  rintro _ _ _ n₂ n₂' later₂ ⟨abreast, scopes⟩ ⟨rfl, rfl⟩
  have kept := later₁.toKept.trans later₂.toKept
  apply Accord.bind (accord_step (agree_evalName abreast (knows.kept kept)))
  intro _ callee callee' n₃ n₃' later₃ abreast found
  have fits' (e : Expr) (sees : e ∈ args) := (fits e sees).kept (kept.trans later₃.toKept)
  apply Accord.bind (accord_evalArguments follows abreast fits')
  intro _ vs ws n₄ n₄' later₄ abreast each
  have related := found.1.mono later₄.serial
  have calls := found.2.kept (later₃.toKept.trans later₄.toKept)
  intro full
  have kept := (later₂.toKept.trans later₃.toKept).trans later₄.toKept
  exact accord_call follows abreast (hand.kept kept)
    (scopes.kept (later₃.toKept.trans later₄.toKept)) own (related.snapshot abreast.stores)
    (calls.snapshot related abreast.stores) each
    fun enclosed event sees => full enclosed event (List.mem_cons_of_mem _ sees)

/-- A call after the name of an object is made as if it stood alone. -/
theorem accord_evalProperty {name : String} {index : Expr}
    (abreast : link.Abreast imports s t chain m m') (knows : link.Knows m.store s name)
    (fits : ∀ callee args, index = .call callee args → link.Fits m.store s imports index) :
    link.Accord chain m (link.Abreast imports s t) link.Related (Recorded.evalProperty ev name index m)
      (Recorded.evalProperty ev name index m') := by
  unfold Recorded.evalProperty
  split
  · rename_i callee args
    apply Accord.bind (accord_step (agree_evalName abreast knows))
    intro _ r r' n₁ n₁' later₁ abreast found
    apply Accord.bind (accord_step (agree_snapshot abreast found.1))
    intro _ v w n₂ n₂' later₂ abreast same
    apply Accord.bind (accord_step (agree_lift abreast
      (same.outcomes fun f v => Value.subscript_renumber "type" v)))
    intro _ type type' n₃ n₃' later₃ abreast types
    have objects := (same.mono later₃.serial).outcomes fun f v => Value.subscript_renumber "value" v
    have kinds : type.equal (.str "obj") = type'.equal (.str "obj") :=
      types.congr (q := fun v => v.equal (.str "obj")) fun f v => Value.equal_str_renumber v "obj"
    have texts : type.text = type'.text := types.congr fun f v => Value.text_renumber v
    rw [kinds, texts]
    split
    · apply Accord.bind_equal (accord_step (agree_lift_equal abreast rfl))
      intro _ text n n' _ abreast
      exact accord_throw abreast.toMachines _
    · apply Accord.bind (accord_step (agree_lift abreast objects))
      intro _ object object' n₄ n₄' later₄ abreast _
      have later := ((later₁.trans later₂).trans later₃).trans later₄
      cases (fits callee args rfl).kept later.toKept with
      | call here each => exact accord_evalCall follows abreast here each
  · rename_i noCall
    exact accord_step (agree_evalProperty abreast knows noCall)

/-- A module that both machines find runs alike on them, whatever names it looks for. -/
theorem accord_foundModule {text : String} {folder : Option Path} {verbose : Bool} {x y : Scope}
    (abreast : link.Abreast true s t chain m m') (finds : link.finds)
    (hand : link.AtHand chain s t x y) :
    link.Accord chain m (link.Abreast true s t) link.Related
      ((do
        let program ← Recorded.step (Run.readProgram text verbose)
        let program ← Recorded.step (liftM (Expr.foldProgram program).1)
        return .block (← Recorded.evalIn ev program x verbose folder) : Recorded Result) m)
      ((do
        let program ← Recorded.step (Run.readProgram text verbose)
        let program ← Recorded.step (liftM (Expr.foldProgram program).1)
        return .block (← Recorded.evalIn ev program y verbose folder) : Recorded Result) m') := by
  apply Accord.bind (accord_step (agree_readProgram abreast finds text verbose))
  intro _ program program' n₁ n₁' later₁ abreast same
  obtain ⟨rfl, tokens, read⟩ := same
  apply Accord.bind (accord_step (agree_lift abreast (same_folded finds read)))
  intro _ program program' n n' later₂ abreast same
  obtain ⟨rfl, fits⟩ := same
  have entered : link.Abreast true s t _ { n with scope := x, verbose, folder }
      { n' with scope := y, verbose, folder } :=
    { stores := abreast.stores, input := abreast.input, interrupts := abreast.interrupts,
      output := abreast.output, supply := abreast.supply, addresses := abreast.addresses,
      files := abreast.files, encode := abreast.encode,
      hand := hand.kept (later₁.toKept.trans later₂.toKept)
      modules := fun _ => Or.inr ⟨finds, rfl, rfl⟩ }
  apply Accord.bind (accord_evalIn follows entered (fits _ _))
  intro _ rs ss n n' _ abreast related
  exact accord_pure abreast (.block related)

theorem accord_evalModule (abreast : link.Abreast true s t chain m m')
    (path : List (Option String)) :
    link.Accord chain m (link.Abreast true s t) link.Related (Recorded.evalModule ev path m)
      (Recorded.evalModule ev path m') := by
  apply Accord.read
  have texts : Outcomes (link.SameText m m' m.serial) (Run.moduleText m.files m.folder path)
      (Run.moduleText m'.files m'.folder path) := by
    rcases abreast.modules rfl with ⟨nowhere, nowhere'⟩ | ⟨finds, folder, verbose⟩
    · obtain ⟨fault, failed⟩ := Run.moduleText_none path
      rw [nowhere, nowhere', failed, failed]
      exact .error fault
    · have same : Run.moduleText m'.files m'.folder path = Run.moduleText m.files m.folder path := by
        rw [folder, abreast.files finds]
      rw [same]
      cases Run.moduleText m.files m.folder path with
      | error fault => exact .error fault
      | ok text => exact .ok ⟨rfl, finds, folder, verbose⟩
  have hand := abreast.hand
  apply Accord.bind (accord_step (agree_lift abreast texts))
  intro _ text text' n n' later abreast same
  obtain ⟨rfl, finds, folder, verbose⟩ := same
  rw [← folder, ← verbose]
  exact accord_foundModule follows abreast finds (hand.kept later.toKept)

theorem accord_conditional {keyword : String} {condition : Expr} {body : List Expr}
    {otherwise : Option (List Expr)} (abreast : link.Abreast imports s t chain m m')
    (test : link.Fits m.store s imports condition) (each : ∀ e ∈ body, link.Fits m.store s true e)
    (other : ∀ e rest, otherwise = some (e :: rest) → link.Fits m.store s imports e) :
    link.Accord chain m (link.Abreast imports s t) link.Related
      (Recorded.evalWith ev (.conditional keyword condition body otherwise) m)
      (Recorded.evalWith ev (.conditional keyword condition body otherwise) m') := by
  by_cases missing : condition = .datum .null
  · subst missing
    apply Accord.bind (accord_evalBlock follows abreast each)
    intro _ rs ss n n' _ abreast _
    exact accord_pure abreast (.value same_null)
  · rw [Recorded.evalWith_conditional missing]
    apply Accord.bind (follows abreast test)
    intro _ r r' n₁ n₁' later₁ abreast related
    apply Accord.bind (accord_step (agree_snapshot abreast related))
    intro _ v w n₂ n₂' later₂ abreast same
    apply Accord.bind (accord_step (agree_lift abreast
      (same.outcomes fun f v => Value.condition_renumber v)))
    intro _ v w n₃ n₃' later₃ abreast same
    have kept := ((later₁.trans later₂).trans later₃).toKept
    have words : v.isTruthWord = w.isTruthWord := same.congr fun f v => Value.isTruthWord_renumber v
    have truths : v.equal (.str "true") = w.equal (.str "true") :=
      same.congr (q := fun v => v.equal (.str "true")) fun f v => Value.equal_str_renumber v "true"
    rw [words, truths]
    split
    · exact accord_step (agree_throw abreast.toMachines _)
    · split
      · apply Accord.bind (accord_evalBlock follows abreast fun e sees => (each e sees).kept kept)
        intro _ rs ss n n' _ abreast related
        exact accord_pure abreast (.block related)
      · rcases otherwise with _ | (_ | ⟨e, rest⟩)
        · exact accord_pure abreast (.value same_null)
        · exact accord_pure abreast (.value same_null)
        · exact follows abreast ((other e rest rfl).kept kept)

omit follows in
theorem agree_literal (abreast : link.Abreast imports s t chain m m') (kind : LiteralKind)
    (fixed : link.Fixed v) :
    link.Agree chain m (link.Abreast imports s t) link.Related
      ((Run.eval 1 (.literal kind v)).exec m) ((Run.eval 1 (.literal kind v)).exec m') := by
  cases kind with
  | boolean =>
      have plain : (Value.bool (v.equal (.str "true"))).Unnumbered := fun f => by rw [Value.renumber]
      exact agree_pure abreast (.value (same_of_unnumbered plain))
  | null =>
      have plain : (Value.obj [("type", .str "null"), ("value", .str "null")]).Unnumbered := by
        intro f
        simp [Value.renumberEntries]
      exact agree_pure abreast (.value (same_of_unnumbered plain))
  | _ => exact agree_pure abreast (.value fixed.same)

omit follows in
theorem agree_datum (abreast : link.Abreast imports s t chain m m') (fixed : link.Fixed v) :
    link.Agree chain m (link.Abreast imports s t) link.Related
      ((Run.eval 1 (.datum v)).exec m) ((Run.eval 1 (.datum v)).exec m') := by
  cases v with
  | obj entries => exact agree_pure abreast (.value fixed.same)
  | _ => exact agree_pure abreast (.value same_null)

/-- The meaning of an expression keeps machines abreast if that of the expressions inside does. -/
theorem evalWith_follows : link.Follows (Recorded.evalWith ev) := by
  intro imports s t chain m m' e abreast fits
  cases fits with
  | datum value => exact accord_step (agree_datum abreast value)
  | literal kind value => exact accord_step (agree_literal abreast kind value)
  | ident here => exact accord_step ((agree_evalName abreast here).imp fun _ found => found.1)
  | property here inner => exact accord_evalProperty follows abreast here inner
  | unary operator inner =>
      apply Accord.bind (follows abreast inner)
      intro _ r r' n n' _ abreast related
      exact accord_step (agree_applyUnary abreast operator related)
  | binary operator first second =>
      apply Accord.bind (follows abreast first)
      intro _ l l' n n' later abreast left
      apply Accord.bind (follows abreast (Fits.kept second later.toKept))
      intro _ r r' n n' later abreast right
      exact accord_step (agree_applyBinary abreast operator (left.mono later.serial) right)
  | assign binding here inner =>
      apply Accord.bind (follows abreast inner)
      intro _ r r' n n' later abreast related
      exact accord_step (agree_assignTo abreast (Knows.kept here later.toKept) related binding)
  | call here each => exact accord_evalCall follows abreast here each
  | define here parameters each => exact accord_step (agree_define abreast here ⟨parameters, each⟩)
  | param p => exact accord_step (agree_pure abreast (.value same_null))
  | ret inner =>
      apply Accord.bind (follows abreast inner)
      intro _ r r' n n' _ abreast related
      exact accord_step (agree_return abreast related)
  | conditional keyword test each other => exact accord_conditional follows abreast test each other
  | module parents name => exact accord_evalModule follows abreast _

end Evaluators

theorem eval_follows (link : Link) (fuel : Nat) : link.Follows (Recorded.eval fuel) := by
  induction fuel with
  | zero =>
      intro imports s t chain m m' e abreast fits
      exact accord_step (agree_throw abreast.toMachines _)
  | succ fuel ih => exact evalWith_follows ih

/-- Outside of calls there is no condition, and nothing needs to be recorded. -/
theorem agree_evalAll {es : List Expr} (unenclosed : ¬ link.enclosed)
    (abreast : link.Abreast imports s t chain m m')
    (fits : ∀ e ∈ es, link.Fits m.store s imports e) (fuel : Nat) :
    link.Agree chain m (link.Abreast imports s t) link.RelatedAll
      ((Run.evalAll (Run.eval fuel) es).exec m) ((Run.evalAll (Run.eval fuel) es).exec m') := by
  have records := Recorded.evalAll_records (Recorded.eval_records fuel) es
  rw [← records m, ← records m']
  exact accord_evalAll (eval_follows link fuel) abreast fits
    fun enclosed => absurd enclosed unenclosed

end Link

end Scriptlet
