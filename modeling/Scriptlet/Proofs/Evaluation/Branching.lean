import Scriptlet.Proofs.Evaluation.Indifference
import Scriptlet.Proofs.Evaluation.Placement
import Scriptlet.Proofs.Evaluation.Returning
import Scriptlet.Proofs.Expr.Regular

set_option autoImplicit false

/-!
Conditionals and what continues them. Of a branching the conditions are evaluated up to the first that
holds, and then the statements of that branch, as if they stood there alone (`eval_branching_iff`). The
statements of a branch are run where no module is found; what imports nothing does not see the
difference (`eval_blind`).
-/

namespace Scriptlet

/-- The machine apart from where modules are looked for. -/
def Machine.unplaced (machine : Machine) : Machine := machine.enter machine.scope

theorem Machine.eq_relocate {m m' : Machine} (same : m.unplaced = m'.unplaced) :
    m' = m.relocate m.files m'.folder m'.verbose := by
  cases m
  cases m'
  simp only [unplaced, enter, Machine.mk.injEq] at same
  obtain ⟨rfl, rfl, rfl, rfl, -, -, rfl, rfl⟩ := same
  rfl

namespace Run

variable {α β : Type}

/-- Two runs end alike: with the same result or fault, and on the same machine apart from where modules
are looked for. -/
structure Matches (x y : Except Fault α × Machine) : Prop where
  outcome : x.1 = y.1
  machine : x.2.unplaced = y.2.unplaced

theorem exec_map_eq (f : α → β) (r : Run α) (m : Machine) :
    (f <$> r).exec m = ((r.exec m).1.map f, (r.exec m).2) := by
  rw [exec_map]
  rcases r.exec m with ⟨_ | _, _⟩ <;> rfl

theorem Matches.map {r s : Run α} {m m' : Machine} (f : α → β)
    (matched : Matches (r.exec m) (s.exec m')) : Matches ((f <$> r).exec m) ((f <$> s).exec m') := by
  rw [exec_map_eq, exec_map_eq]
  exact ⟨congrArg (Except.map f) matched.outcome, matched.machine⟩

/-- A computation ends alike wherever modules are looked for. -/
def Blind (r : Run α) : Prop :=
  ∀ ⦃m m' : Machine⦄, m.unplaced = m'.unplaced → Matches (r.exec m) (r.exec m')

theorem Unaware.blind {r : Run α} (unaware : Unaware r) : Blind r := by
  intro m m' same
  have moved := unaware m m.files m'.folder m'.verbose
  rw [← Machine.eq_relocate same] at moved
  rw [moved]
  have files : (r.exec m).2.files = m.files := (unaware.stays m).1
  refine ⟨rfl, ?_⟩
  rw [← files]
  rfl

theorem Quiet.blind {r : Run α} (quiet : Quiet r) : Blind r := quiet.unaware.blind

theorem blind_bind {r : Run α} {k : α → Run β} (first : Blind r) (others : ∀ a, Blind (k a)) :
    Blind (r >>= k) := by
  intro m m' same
  have matched := first same
  rw [exec_bind, exec_bind]
  generalize r.exec m = x at matched ⊢
  generalize r.exec m' = y at matched ⊢
  obtain ⟨o, after⟩ := x
  obtain ⟨o', after'⟩ := y
  obtain rfl : o = o' := matched.outcome
  cases o with
  | error fault => exact ⟨rfl, matched.machine⟩
  | ok a => exact others a matched.machine

theorem blind_ite {c : Prop} [Decidable c] {r s : Run α} (yes : Blind r) (no : Blind s) :
    Blind (if c then r else s) := by
  split
  · exact yes
  · exact no

theorem blind_throw (fault : Fault) {k : α → Run β} : Blind (throw fault >>= k) := fun _ _ same =>
  ⟨rfl, same⟩

section Changes

theorem unaware_extend (scope : Scope) (label : Option String) (traced : Bool) :
    Unaware (extend scope label traced) :=
  fun _ _ _ _ => rfl

theorem unaware_leaveScope : Unaware leaveScope :=
  unaware_bind (quiet_demandScope _).unaware fun _ _ _ _ _ => rfl

/-- An operation on the store, after what is written of its search. -/
theorem unaware_stored (trace : Store → String) (f : Store → Except Fault α × Store) :
    Unaware (do
      write (trace (← get).store)
      onStore f : Run α) :=
  unaware_reads (fun _ _ _ _ => rfl) fun _ => unaware_bind (quiet_write _).unaware fun _ _ _ _ _ => rfl

theorem unaware_tryCatch {r : Run α} {handle : Fault → Run α} (first : Unaware r)
    (others : ∀ fault, Unaware (handle fault)) : Unaware (tryCatch r handle) := by
  intro machine files folder verbose
  rw [exec_tryCatch, exec_tryCatch, first machine files folder verbose]
  rcases r.exec machine with ⟨fault | a, between⟩
  · exact others fault between files folder verbose
  · rfl

theorem unaware_bindParameters (function : String) (scope : Scope) (params : List Parameter)
    (args : List Value) : Unaware (bindParameters function scope params args) := by
  induction params generalizing args with
  | nil => exact (quiet_pure ()).unaware
  | cons p params ih =>
      rw [bindParameters_eq]
      refine unaware_bind (quiet_lift _).unaware fun default => unaware_bind ?_ fun _ => ih args.tail
      refine unaware_tryCatch ?_ fun _ => (quiet_throw _).unaware
      exact unaware_bind (unaware_stored (·.searchTrace scope p.name) _) fun _ => (quiet_pure ()).unaware

theorem unaware_assignTo (binding : Option String) (name : String) (result : Result) :
    Unaware (assignTo binding name result) := by
  refine unaware_bind (quiet_snapshot _).unaware fun _ => unaware_bind (quiet_lift _).unaware fun _ => ?_
  refine unaware_bind (quiet_demandScope _).unaware fun scope => ?_
  exact unaware_bind (unaware_stored (·.setTrace scope name) _) fun _ => (quiet_pure _).unaware

theorem unaware_define (name : String) (params : List Parameter) (body : List Expr) :
    Unaware (eval 1 (.define name params body)) := by
  intro machine files folder verbose
  have defines : Unaware (do
      let scope ← demandScope "def_func"
      let f := Value.function machine.serial (machine.host.address machine.serial) name params body
      return .value (← defineFunction scope name f) : Run Result) := by
    refine unaware_bind (quiet_demandScope _).unaware fun scope => ?_
    exact unaware_bind (unaware_stored (·.defineTrace scope name) _) fun _ => (quiet_pure _).unaware
  exact defines { machine with serial := machine.serial + 1 } files folder verbose

end Changes

section Evaluators

variable {ev : Expr → Run Result}

/-- Statements that are given a place do not see where they came from. -/
theorem blind_evalIn (program : List Expr) (scope : Scope) :
    Blind (evalIn ev program scope false none) := by
  intro m m' same
  have entered : ({ m with scope, verbose := false, folder := none } : Machine) =
      { m' with scope, verbose := false, folder := none } := by
    rw [Machine.eq_relocate same]
    rfl
  rw [evalIn, exec_bind, exec_bind, exec_modify, exec_modify]
  simp only [entered]
  exact ⟨rfl, rfl⟩

theorem blind_evalBlock (body : List Expr) : Blind (evalBlock ev body) := by
  intro m m' same
  have scopes : m.scope = m'.scope :=
    show m.unplaced.scope = m'.unplaced.scope from congrArg Machine.scope same
  rw [evalBlock, exec_bind, exec_bind, exec_get, exec_get]
  simp only [scopes]
  exact blind_evalIn body m'.scope same

theorem blind_evalBody (scope : Scope) (body : List Expr) : Blind (evalBody ev scope body) := by
  induction body with
  | nil => exact (quiet_pure none).blind
  | cons e rest ih =>
      refine blind_bind (blind_evalIn [e] scope) fun results => ?_
      refine blind_bind (quiet_firstResult results).blind fun result => ?_
      refine blind_bind (quiet_lift _).blind fun returned => ?_
      cases returned with
      | none => exact ih
      | some v => exact (quiet_pure (some v)).blind

theorem blind_call (callee : Value) (scope : Scope) (args : List Value) :
    Blind (call ev callee scope args) := by
  cases callee with
  | function serial address name params body =>
      refine blind_ite (blind_throw _) ?_
      refine blind_bind (unaware_bindParameters name scope params args).blind fun _ => ?_
      refine blind_bind (blind_evalBody scope body) fun returned => ?_
      refine blind_bind unaware_leaveScope.blind fun _ => ?_
      exact blind_bind (quiet_lift _).blind fun _ => (quiet_pure _).blind
  | builtin f => exact (quiet_call fun _ _ _ _ _ => Value.noConfusion).blind
  | _ => exact (quiet_throw _).blind

variable (blind : ∀ e, e.ImportFree → Blind (ev e))
include blind

theorem blind_evalAll {program : List Expr} (free : ∀ e ∈ program, e.ImportFree) :
    Blind (evalAll ev program) := by
  induction program with
  | nil => exact (quiet_pure []).blind
  | cons e rest ih =>
      obtain ⟨first, others⟩ := List.forall_mem_cons.mp free
      refine blind_bind (blind e first) fun _ => blind_bind (ih others) fun _ => ?_
      exact (quiet_pure _).blind

theorem blind_evalEach {args : List Expr} (free : ∀ e ∈ args, e.ImportFree) :
    Blind (evalEach ev args) := by
  induction args with
  | nil => exact (quiet_pure []).blind
  | cons e rest ih =>
      obtain ⟨first, others⟩ := List.forall_mem_cons.mp free
      refine blind_bind (blind e first) fun r => blind_bind (quiet_argument r).blind fun _ => ?_
      exact blind_bind (ih others) fun _ => (quiet_pure _).blind

theorem blind_evalArguments {args : List Expr} (free : ∀ e ∈ args, e.ImportFree) :
    Blind (evalArguments ev args) :=
  blind_bind (blind_evalEach blind free) fun results => (quiet_snapshots results).blind

theorem blind_evalCall (name : String) {args : List Expr} (free : ∀ e ∈ args, e.ImportFree) :
    Blind (evalCall ev name args) := by
  refine blind_bind (quiet_demandScope _).blind fun around => ?_
  refine blind_bind (unaware_extend around _ false).blind fun scope => ?_
  refine blind_bind (quiet_evalName name).blind fun callee => ?_
  refine blind_bind (blind_evalArguments blind free) fun args => ?_
  exact blind_bind (quiet_snapshot callee).blind fun value => blind_call value scope args

theorem blind_evalProperty (name : String) {index : Expr}
    (free : ∀ callee args, index = .call callee args → index.ImportFree) :
    Blind (evalProperty ev name index) := by
  cases index with
  | call callee args =>
      refine blind_bind (quiet_evalName name).blind fun result => ?_
      refine blind_bind (quiet_snapshot result).blind fun object => ?_
      refine blind_bind (quiet_lift _).blind fun type => ?_
      refine blind_ite ?_ ?_
      · exact blind_bind (quiet_lift _).blind fun _ => blind_throw _
      · refine blind_bind (quiet_lift _).blind fun _ => ?_
        cases free callee args rfl with
        | call _ each => exact blind_evalCall blind callee each
  | _ => exact (quiet_evalProperty fun _ _ => Expr.noConfusion).blind

theorem blind_conditional {keyword : String} {condition : Expr} {body : List Expr}
    {otherwise : Option (List Expr)} (test : condition.ImportFree)
    (other : ∀ e rest, otherwise = some (e :: rest) → e.ImportFree) :
    Blind (evalWith ev (.conditional keyword condition body otherwise)) := by
  by_cases missing : condition = .datum .null
  · subst missing
    exact blind_bind (blind_evalBlock body) fun _ => (quiet_pure _).blind
  · rw [evalWith_conditional missing]
    refine blind_bind (blind condition test) fun result => ?_
    refine blind_bind (quiet_snapshot result).blind fun value => ?_
    refine blind_bind (quiet_lift _).blind fun outcome => ?_
    refine blind_ite (quiet_throw _).blind (blind_ite ?_ ?_)
    · exact blind_bind (blind_evalBlock body) fun _ => (quiet_pure _).blind
    · rcases otherwise with _ | (_ | ⟨e, rest⟩)
      · exact (quiet_pure _).blind
      · exact (quiet_pure _).blind
      · exact blind e (other e rest rfl)

theorem blind_evalWith {e : Expr} (free : e.ImportFree) : Blind (evalWith ev e) := by
  cases free with
  | @datum _ _ v => cases v <;> exact (quiet_pure _).blind
  | param p => exact (quiet_pure _).blind
  | literal kind => cases kind <;> exact (quiet_pure _).blind
  | @ident _ _ name => exact (quiet_evalName name).blind
  | @property _ _ name _ _ inner => exact blind_evalProperty blind name inner
  | unary operator inner =>
      refine blind_bind (blind _ inner) fun r => ?_
      exact (quiet_applyUnary operator r).blind
  | binary operator first second =>
      refine blind_bind (blind _ first) fun l => blind_bind (blind _ second) fun r => ?_
      exact (quiet_applyBinary operator l r).blind
  | @assign _ _ name _ binding _ inner =>
      refine blind_bind (blind _ inner) fun r => ?_
      exact (unaware_assignTo binding name r).blind
  | @call _ _ name _ _ each => exact blind_evalCall blind name each
  | @define _ _ name params body => exact (unaware_define name params body).blind
  | ret inner =>
      refine blind_bind (blind _ inner) fun r => ?_
      exact blind_bind (quiet_unwrap r).blind fun _ => (quiet_pure _).blind
  | conditional keyword test _ other => exact blind_conditional blind test other

end Evaluators

/-- What imports nothing does the same wherever modules are looked for. -/
theorem eval_blind (fuel : Nat) {e : Expr} (free : e.ImportFree) : Blind (eval fuel e) := by
  induction fuel generalizing e with
  | zero => exact (quiet_throw _).blind
  | succ fuel ih => exact blind_evalWith (fun _ => ih) free

/-- What a computation comes to as the bound on its depth is raised. -/
def Settles (r : Nat → Run α) (m : Machine) (o : Except Fault α × Machine) : Prop :=
  o.1 ≠ .error .outOfFuel ∧ ∃ fuel, (r fuel).exec m = o

/-- With a higher bound a computation does the same, unless it met the lower one. -/
def Rises (r : Nat → Run α) : Prop := ∀ ⦃n k⦄, n ≤ k → Below (r n) (r k)

theorem Settles.steady {r : Nat → Run α} {m : Machine} {o : Except Fault α × Machine}
    (rises : Rises r) (settles : Settles r m o) :
    ∃ bound, ∀ fuel, bound ≤ fuel → (r fuel).exec m = o := by
  obtain ⟨finished, bound, rfl⟩ := settles
  refine ⟨bound, fun fuel le => ?_⟩
  rcases rises le m with stopped | same
  · exact absurd stopped finished
  · exact same.symm

theorem rises_eval (e : Expr) : Rises fun fuel => eval fuel e := fun _ _ le => eval_below le e

theorem rises_evalAll (program : List Expr) : Rises fun fuel => evalAll (eval fuel) program :=
  fun _ _ le => evalAll_below (each_same (eval_below le) program)

theorem rises_map {r : Nat → Run α} (f : α → β) (rises : Rises r) : Rises fun fuel => f <$> r fuel := by
  intro n k le
  simp only [← bind_pure_comp]
  exact below_bind_left (rises le)

/-- Two computations end alike with bounds as high as one likes. -/
def Meets (r s : Nat → Run α) (m m' : Machine) : Prop :=
  ∀ n, ∃ i j, n ≤ i ∧ n ≤ j ∧ Matches ((r i).exec m) ((s j).exec m')

theorem Meets.symm {r s : Nat → Run α} {m m' : Machine} (meets : Meets r s m m') :
    Meets s r m' m := by
  intro n
  obtain ⟨i, j, le, le', outcome, machine⟩ := meets n
  exact ⟨j, i, le', le, outcome.symm, machine.symm⟩

theorem Meets.settles {r s : Nat → Run α} {m m' left : Machine} {outcome : Except Fault α}
    (meets : Meets r s m m') (rises : Rises r)
    (settles : ∃ after, Settles r m (outcome, after) ∧ after.unplaced = left) :
    ∃ after, Settles s m' (outcome, after) ∧ after.unplaced = left := by
  obtain ⟨after, settles, rfl⟩ := settles
  obtain ⟨bound, steady⟩ := settles.steady rises
  obtain ⟨i, j, le, -, matched⟩ := meets bound
  rw [steady i le] at matched
  rcases ran : (s j).exec m' with ⟨outcome', after'⟩
  rw [ran] at matched
  obtain rfl : outcome = outcome' := matched.outcome
  exact ⟨after', ⟨settles.1, j, ran⟩, matched.machine.symm⟩

theorem Meets.settles_iff {r s : Nat → Run α} {m m' left : Machine} {outcome : Except Fault α}
    (meets : Meets r s m m') (rises : Rises r) (rises' : Rises s) :
    (∃ after, Settles r m (outcome, after) ∧ after.unplaced = left) ↔
      ∃ after, Settles s m' (outcome, after) ∧ after.unplaced = left :=
  ⟨meets.settles rises, meets.symm.settles rises'⟩

/-- An expression comes to an outcome. -/
def Comes (e : Expr) : Machine → Except Fault Result × Machine → Prop :=
  Settles fun fuel => eval fuel e

/-- Statements are evaluated one after another, up to the first that fails. -/
inductive InOrder : List Expr → Machine → Except Fault (List Result) × Machine → Prop
  | done (m : Machine) : InOrder [] m (.ok [], m)
  | failed {e : Expr} {rest : List Expr} {m left : Machine} {fault : Fault}
      (first : Comes e m (.error fault, left)) : InOrder (e :: rest) m (.error fault, left)
  | next {e : Expr} {rest : List Expr} {m between left : Machine} {r : Result}
      {outcome : Except Fault (List Result)} (first : Comes e m (.ok r, between))
      (others : InOrder rest between (outcome, left)) :
      InOrder (e :: rest) m (outcome.map (r.spread ++ ·), left)

theorem map_ne_outOfFuel {f : α → β} {o : Except Fault α} :
    o.map f ≠ .error .outOfFuel ↔ o ≠ .error .outOfFuel := by
  cases o <;> simp [Except.map]

section Statements

variable {ev : Expr → Run Result} {e : Expr} {m between left : Machine} {r : Result} {fault : Fault}

theorem exec_evalAll_failed (rest : List Expr) (ran : (ev e).exec m = (.error fault, left)) :
    (evalAll ev (e :: rest)).exec m = (.error fault, left) := by
  rw [evalAll, exec_bind, ran]

theorem exec_evalAll_next (rest : List Expr) (ran : (ev e).exec m = (.ok r, between)) :
    (evalAll ev (e :: rest)).exec m = (((evalAll ev rest).exec between).1.map (r.spread ++ ·),
      ((evalAll ev rest).exec between).2) := by
  rw [evalAll, exec_bind, ran]
  simp only [bind_pure_comp, exec_map_eq]

end Statements

theorem InOrder.settles {statements : List Expr} {m : Machine}
    {o : Except Fault (List Result) × Machine} (inOrder : InOrder statements m o) :
    Settles (fun fuel => evalAll (eval fuel) statements) m o := by
  induction inOrder with
  | done m => exact ⟨by simp, 0, rfl⟩
  | @failed e rest m left fault first =>
      obtain ⟨finished, fuel, ran⟩ := first
      exact ⟨by simpa using finished, fuel, exec_evalAll_failed rest ran⟩
  | @next e rest m between left r outcome first _ ih =>
      obtain ⟨bound, steady⟩ := first.steady (rises_eval e)
      obtain ⟨bound', steady'⟩ := ih.steady (rises_evalAll rest)
      refine ⟨map_ne_outOfFuel.mpr ih.1, max bound bound', ?_⟩
      refine (exec_evalAll_next rest (steady _ (Nat.le_max_left _ _))).trans ?_
      rw [steady' _ (Nat.le_max_right _ _)]

theorem Settles.inOrder {statements : List Expr} {m : Machine}
    {o : Except Fault (List Result) × Machine}
    (settles : Settles (fun fuel => evalAll (eval fuel) statements) m o) :
    InOrder statements m o := by
  induction statements generalizing m o with
  | nil =>
      obtain ⟨-, fuel, rfl⟩ := settles
      exact .done m
  | cons e rest ih =>
      obtain ⟨finished, fuel, ended⟩ := settles
      rcases ran : (eval fuel e).exec m with ⟨fault | r, between⟩
      · obtain rfl : _ = o := (exec_evalAll_failed rest ran).symm.trans ended
        exact .failed ⟨by simpa using finished, fuel, ran⟩
      · obtain rfl : _ = o := (exec_evalAll_next rest ran).symm.trans ended
        exact .next ⟨by simp, fuel, ran⟩ (ih ⟨map_ne_outOfFuel.mp finished, fuel, rfl⟩)

/-- A condition is evaluated and comes out true or false. -/
def Answers (condition : Expr) (m : Machine) (holds : Bool) (m' : Machine) : Prop :=
  ∃ result, Comes condition m (.ok result, m') ∧
    (result.snapshot m'.store).condition = .ok (.truth holds)

section Conditions

variable {condition : Expr} {m m' : Machine} {holds : Bool}

theorem Answers.asked (answers : Answers condition m holds m') : condition ≠ .datum .null := by
  rintro rfl
  obtain ⟨result, ⟨-, fuel, ran⟩, answered⟩ := answers
  cases fuel with
  | zero => cases ran
  | succ fuel =>
      -- a missing condition comes to nothing, which is neither true nor false
      cases ran
      cases answered

theorem Answers.decides (answers : Answers condition m holds m') :
    ∃ bound, ∀ fuel, bound ≤ fuel → (decides (eval fuel) condition).exec m = (.ok holds, m') := by
  obtain ⟨result, comes, answered⟩ := answers
  obtain ⟨bound, steady⟩ := comes.steady (rises_eval condition)
  refine ⟨bound, fun fuel le => ?_⟩
  simp only [Run.decides, exec_bind, steady fuel le, exec_snapshot, exec_lift, answered]
  cases holds <;> rfl

/-- A conditional whose condition holds runs its statements. -/
theorem Answers.taken (answers : Answers condition m true m') :
    ∃ bound, ∀ fuel, bound ≤ fuel → ∀ keyword body otherwise,
      (eval (fuel + 1) (.conditional keyword condition body otherwise)).exec m =
        (Result.block <$> evalBlock (eval fuel) body).exec m' := by
  obtain ⟨bound, decided⟩ := answers.decides
  refine ⟨bound, fun fuel le keyword body otherwise => ?_⟩
  rw [eval_conditional answers.asked, exec_bind, decided fuel le]
  simp only [↓reduceIte, bind_pure_comp]

/-- A conditional whose condition does not hold goes on with what continues it. -/
theorem Answers.passed (answers : Answers condition m false m') :
    ∃ bound, ∀ fuel, bound ≤ fuel → ∀ keyword body otherwise,
      (eval (fuel + 1) (.conditional keyword condition body otherwise)).exec m =
        (chained otherwise (eval fuel) (.value .null)).exec m' := by
  obtain ⟨bound, decided⟩ := answers.decides
  refine ⟨bound, fun fuel le keyword body otherwise => ?_⟩
  rw [eval_conditional answers.asked, exec_bind, decided fuel le]
  simp only [Bool.false_eq_true, ↓reduceIte]

end Conditions

end Run

/-- A condition and the statements that depend on it. -/
structure Branch where
  keyword : String
  condition : Expr
  body : List Expr

/-- A conditional and all that continues it: branches of which the first that holds is taken, and the
statements to run if none does. -/
structure Branching where
  first : Branch
  others : List Branch
  closing : Option (List Expr)

namespace Branching

/-- What continues a conditional. -/
def continued (closing : Option (List Expr)) : List Branch → List Expr
  | [] => closing.toList.map fun body => .conditional "else" .missing body none
  | b :: others => [.conditional b.keyword b.condition b.body (some (continued closing others))]

def expr (b : Branching) : Expr :=
  .conditional b.first.keyword b.first.condition b.first.body (some (continued b.closing b.others))

def branches (b : Branching) : List Branch := b.first :: b.others

/-- The statements that are run if the branch is taken, or if none is. -/
def statements (b : Branching) : Option Branch → List Expr
  | some branch => branch.body
  | none => b.closing.getD []

/-- The result of a conditional: only a branch that was taken for its condition gives one. -/
def result : Option Branch → List Result → Result
  | some _, results => .block results
  | none, _ => .value .null

end Branching

/-- Every conditional that is read is a branching, or the end of one. -/
theorem Reading.yields_branching (fuel : Nat) : Yields (readConditional fuel) fun e =>
    ∃ closing branches, [e] = Branching.continued closing branches := by
  induction fuel with
  | zero => exact yields_throw _
  | succ fuel ih =>
      rw [readConditional]
      refine yields_next fun _ => yields_next fun token => ?_
      split
      · rename_i closes
        exact yields_next fun body => yields_pure ⟨some body, [], by rw [closes]; rfl⟩
      · refine yields_next fun _ => yields_next fun condition => yields_next fun _ =>
          yields_next fun body => yields_next fun following => ?_
        have alone : Yields (pure (.conditional token.value condition body (some []))) fun e =>
            ∃ closing branches, [e] = Branching.continued closing branches :=
          yields_pure ⟨none, [⟨token.value, condition, body⟩], rfl⟩
        split
        · exact alone
        · split
          · refine yields_bind ih fun e continues => ?_
            obtain ⟨closing, branches, continues⟩ := continues
            refine yields_pure ⟨closing, ⟨token.value, condition, body⟩ :: branches, ?_⟩
            rw [continues]
            rfl
          · exact alone

namespace Run

open Branching (continued)

/-- The conditions of branches are evaluated in turn, and the first branch that holds is taken. -/
inductive Selects : List Branch → Machine → Option Branch → Machine → Prop
  | exhausted (m : Machine) : Selects [] m none m
  | taken {b : Branch} {others : List Branch} {m m' : Machine}
      (holds : Answers b.condition m true m') : Selects (b :: others) m (some b) m'
  | passed {b : Branch} {others : List Branch} {m between m' : Machine} {choice : Option Branch}
      (fails : Answers b.condition m false between) (later : Selects others between choice m') :
      Selects (b :: others) m choice m'

theorem matches_evalBlock (fuel : Nat) {body : List Expr} (free : ∀ e ∈ body, e.ImportFree)
    (m : Machine) :
    Matches ((evalBlock (eval fuel) body).exec m) ((evalAll (eval fuel) body).exec m) :=
  blind_evalAll (fun _ => eval_blind fuel) free (m := m.unplaced) rfl

theorem Selects.meets {b : Branching} {branches : List Branch} {m m' : Machine}
    {choice : Option Branch} (selects : Selects branches m choice m')
    (free : ∀ e ∈ b.statements choice, e.ImportFree) :
    Meets (fun fuel => chained (some (continued b.closing branches)) (eval fuel) (.value .null))
      (fun fuel => Branching.result choice <$> evalAll (eval fuel) (b.statements choice)) m m' := by
  -- Every conditional on the way takes one level of depth from what continues it.
  induction selects with
  | exhausted m =>
      obtain ⟨first, others, _ | body⟩ := b
      · exact fun n => ⟨n, n, Nat.le_refl n, Nat.le_refl n, rfl, rfl⟩
      · intro n
        refine ⟨n + 1, n, Nat.le_succ n, Nat.le_refl n, ?_⟩
        have closes : eval (n + 1) (.conditional "else" .missing body none) =
            Branching.result none <$> evalBlock (eval n) body := bind_pure_comp _ _
        simp only [continued, Option.toList_some, List.map_cons, List.map_nil, chained, closes]
        exact (matches_evalBlock n free m).map _
  | @taken branch others m m' holds =>
      intro n
      obtain ⟨bound, ran⟩ := holds.taken
      refine ⟨max n bound + 1, max n bound, by omega, Nat.le_max_left _ _, ?_⟩
      simp only [continued, chained]
      rw [ran _ (Nat.le_max_right _ _)]
      exact (matches_evalBlock _ free m').map (Branching.result (some branch))
  | @passed branch others m between m' choice fails _ ih =>
      intro n
      obtain ⟨bound, ran⟩ := fails.passed
      obtain ⟨i, j, le, le', matched⟩ := ih free (max n bound)
      refine ⟨i + 1, j, by omega, by omega, ?_⟩
      simp only [continued, chained]
      rw [ran i (by omega)]
      exact matched

/-- A conditional does what the conditions do up to the first that holds and then the statements of that
branch, one after another: with the same result or fault, and with the same machine apart from where
modules are looked for. -/
theorem eval_branching_iff (b : Branching) {m m' : Machine} {choice : Option Branch}
    (selects : Selects b.branches m choice m') (free : ∀ e ∈ b.statements choice, e.ImportFree)
    (outcome : Except Fault Result) (left : Machine) :
    (∃ after, Comes b.expr m (outcome, after) ∧ after.unplaced = left) ↔
      ∃ results after, InOrder (b.statements choice) m' (results, after) ∧
        results.map (Branching.result choice) = outcome ∧ after.unplaced = left := by
  have meets : Meets (fun fuel => eval fuel b.expr)
      (fun fuel => Branching.result choice <$> evalAll (eval fuel) (b.statements choice)) m m' :=
    selects.meets free
  rw [Comes, meets.settles_iff (rises_eval b.expr) (rises_map _ (rises_evalAll _))]
  constructor
  · rintro ⟨after, ⟨finished, fuel, ran⟩, rfl⟩
    simp only [exec_map_eq, Prod.mk.injEq] at ran
    obtain ⟨rfl, rfl⟩ := ran
    have settles : Settles (fun fuel => evalAll (eval fuel) (b.statements choice)) m' _ :=
      ⟨map_ne_outOfFuel.mp finished, fuel, rfl⟩
    exact ⟨_, _, settles.inOrder, rfl, rfl⟩
  · rintro ⟨results, after, inOrder, rfl, rfl⟩
    obtain ⟨finished, fuel, ran⟩ := inOrder.settles
    refine ⟨after, ⟨map_ne_outOfFuel.mpr finished, fuel, ?_⟩, rfl⟩
    simp only [exec_map_eq, ran]

/-- A machine that has a place to look for modules and lists what it reads. -/
def undecided : Machine :=
  { Machine.fresh (.ofInput "" false) .none false with
    scope := [0], verbose := true, folder := some .here }

/-- The second branch holds; the variable of the others is not bound. -/
def threeWays : Branching where
  first := ⟨"if", .binary "==" (.int 1) (.int 2), [.ident "y"]⟩
  others := [⟨"elseif", .binary "==" (.int 1) (.int 1),
    [.assign (some "let") "x" (.int 7), .ident "x"]⟩, ⟨"elseif", .ident "y", [.ident "y"]⟩]
  closing := some [.ident "y"]

/-- The conditions after the second one and the statements of the other branches are left out. -/
theorem eval_branching_threeWays :
    ∃ after, Comes threeWays.expr undecided (.ok (.block [.value (.int 7), .cell 0 "x"]), after) ∧
      after.unplaced.store.binding? 0 "x" = some (.record ⟨.int 7, "int", some "let"⟩) := by
  have fails : Answers (.binary "==" (.int 1) (.int 2)) undecided false undecided :=
    ⟨_, ⟨by simp, 2, rfl⟩, rfl⟩
  have holds : Answers (.binary "==" (.int 1) (.int 1)) undecided true undecided :=
    ⟨_, ⟨by simp, 2, rfl⟩, rfl⟩
  have free : ∀ e ∈ [.assign (some "let") "x" (.int 7), .ident "x"], Expr.ImportFree e :=
    List.forall_mem_cons.mpr ⟨.assign _ trivial (.literal _ trivial),
      List.forall_mem_singleton.mpr (.ident trivial)⟩
  have ran := eval_branching_iff threeWays (.passed fails (.taken holds)) free
    (.ok (.block [.value (.int 7), .cell 0 "x"]))
  obtain ⟨after, comes, same⟩ := (ran _).mpr ⟨_, _,
    .next ⟨by simp, 2, rfl⟩ (.next ⟨by simp, 1, rfl⟩ (.done _)), rfl, rfl⟩
  exact ⟨after, comes, by rw [same]; rfl⟩

end Run

end Scriptlet
