import Mathlib.Data.Nat.Fib.Basic
import Scriptlet.Fibonacci
import Scriptlet.Proofs.Arithmetic
import Scriptlet.Proofs.Evaluation.Parameters
import Scriptlet.Proofs.Evaluation.Returning
import Scriptlet.Proofs.Source.RoundTrip
import Scriptlet.Proofs.Token.Stream

set_option autoImplicit false

/-!
The program for Fibonacci numbers computes them, at any depth of recursion. A call of the function makes
frames, and leaves the scope and all earlier frames as they were; so the function is still found by the
second of the two calls in its body, and the parameter of the caller still has its value.
-/

namespace Scriptlet

theorem Run.eval_binary {fuel : Nat} {symbol : String} {op : Operator} {left right : Expr}
    {l r : Result} {v w result : Value} {machine between after : Machine}
    (known : Operator.ofSymbol? symbol = some op)
    (first : (eval fuel left).exec machine = (.ok l, between))
    (second : (eval fuel right).exec between = (.ok r, after))
    (leftValue : (l.snapshot after.store).unwrap = .ok v)
    (rightValue : (r.snapshot after.store).unwrap = .ok w)
    (applied : op.apply v w = .ok result) :
    (eval (fuel + 1) (.binary symbol left right)).exec machine =
      (.ok (.value result.orZero), after) := by
  rw [eval, evalWith]
  simp only [exec_bind, first, second, known, exec_unwrap, leftValue, rightValue, exec_lift, applied,
    exec_pure]

namespace Source

open Reading

theorem ends_of_closesBrace {t : Token} (closes : t.Spells ⟨.rbrace, "\x7d"⟩) : Ends t := by
  simp [Ends, closes.1, closes.2]

/-- The statements of a block on one line that returns a value. -/
theorem readStatements_returned (v : Term) {fuel : Nat} {close : Token} {tokens : List Token}
    (rest : List Token) (spelled : Token.Spelled tokens (Statement.ret (some v)).words)
    (closes : close.Spells ⟨.rbrace, "\x7d"⟩) (enough : 8 * tokens.length + 1 ≤ fuel) :
    (readStatements fuel).run (tokens ++ close :: rest) = (.ok [.ret v.expr], rest) := by
  obtain ⟨n, rfl⟩ : ∃ n, fuel = n + 1 := ⟨fuel - 1, by omega⟩
  have read := readTop_returned v rest spelled (ends_of_closesBrace closes) (by omega : _ ≤ n)
  obtain ⟨first, others, rfl, notBrace, -⟩ := statement_first _ spelled
  rw [List.length_cons] at enough
  obtain ⟨m, rfl⟩ : ∃ m, n = m + 1 := ⟨n - 1, by omega⟩
  exact readStatements_next notBrace read (dropNewlines_follows (apart_brace closes rest).1)
    (readStatements_close closes.2)

theorem readBlock_returned (v : Term) {fuel : Nat} {opening close : Token} {tokens : List Token}
    (rest : List Token) (opens : opening.Spells ⟨.lbrace, "\x7b"⟩)
    (spelled : Token.Spelled tokens (Statement.ret (some v)).words)
    (closes : close.Spells ⟨.rbrace, "\x7d"⟩) (enough : 8 * tokens.length + 2 ≤ fuel) :
    (readBlock fuel).run (opening :: (tokens ++ close :: rest)) = (.ok [.ret v.expr], rest) := by
  obtain ⟨n, rfl⟩ : ∃ n, fuel = n + 1 := ⟨fuel - 1, by omega⟩
  refine readBlock_opened opens ?_ (readStatements_returned v rest spelled closes (by omega))
  obtain ⟨first, others, rfl, -, starts⟩ := statement_first _ spelled
  exact dropNewlines_follows (starts _).1

end Source

namespace Fibonacci

/-- The Fibonacci numbers, where every number up to one stands for itself. -/
def number (n : Int) : Int := if n ≤ 1 then n else number (n - 2) + number (n - 1)
termination_by n.toNat

theorem number_of_le {n : Int} (small : n ≤ 1) : number n = n := by
  rw [number, if_pos small]

theorem number_of_lt {n : Int} (large : 1 < n) : number n = number (n - 2) + number (n - 1) := by
  rw [number, if_neg (by omega)]

theorem number_natCast (n : Nat) : number n = Nat.fib n := by
  induction n using Nat.strongRecOn with
  | ind n ih =>
      rcases n with _ | _ | n
      · exact number_of_le (by decide)
      · exact number_of_le (by decide)
      · have first := ih n (by omega)
        have second := ih (n + 1) (by omega)
        calc number ((n + 2 : Nat) : Int)
            = number n + number (n + 1 : Nat) := by
              rw [number_of_lt (by omega)]
              congr 2 <;> omega
          _ = Nat.fib (n + 2) := by rw [first, second, Nat.fib_add_two, Nat.cast_add]

def condition : Expr := .binary "<=" (.ident "n") (.int 1)

/-- A call of the function with the parameter less some number. -/
def before (k : Int) : Expr := .call "Fib" [.binary "-" (.ident "n") (.int k)]

def body : List Expr :=
  [.conditional "if" condition [.ret (.ident "n")] (some []),
    .ret (.binary "+" (before 2) (before 1))]

def parameters : List Parameter := [.mk "n" (some "let") .missing]

/-- The function as the first statement of the program defines it, at some address. -/
def function (address : String) : Value := .function 0 address "Fib" parameters body

/-- A machine on which the function can be called by its name. -/
structure Ready (address : String) (m : Machine) : Prop where
  holds : m.store.Holds m.scope
  untraced : m.store.isTraced m.scope = false
  found : ∃ id, m.store.get m.scope "Fib" = .ok (id, .function (function address))

/-- What a call leaves: frames were made, and nothing else has changed. -/
structure Grown (m m' : Machine) : Prop where
  scope : m'.scope = m.scope
  console : m'.console = m.console
  size : m.store.frames.size ≤ m'.store.frames.size
  frames : ∀ id < m.store.frames.size, m'.store.frame? id = m.store.frame? id

variable {m k k' : Machine} {v : Int} {address : String}

/-- A machine inside a call that was made on another one: a frame that binds the parameter lies inside
the scope of the caller. -/
structure Inside (v : Int) (m k : Machine) : Prop where
  scope : k.scope = m.store.frames.size :: m.scope
  console : k.console = m.console
  frame : k.store.frame? m.store.frames.size =
    some ⟨some "call_Fib", false, [("n", .record ⟨.int v, "int", some "let"⟩)]⟩
  frames : ∀ id < m.store.frames.size, k.store.frame? id = m.store.frame? id

theorem Inside.size (inside : Inside v m k) : m.store.frames.size < k.store.frames.size :=
  (Array.getElem?_eq_some_iff.mp inside.frame).1

theorem Inside.grown (inside : Inside v m k) (grown : Grown k k') : Inside v m k' where
  scope := grown.scope.trans inside.scope
  console := grown.console.trans inside.console
  frame := (grown.frames _ inside.size).trans inside.frame
  frames id old := (grown.frames id (old.trans inside.size)).trans (inside.frames id old)

theorem Inside.enter (inside : Inside v m k) : Inside v m (k.enter k.scope) :=
  ⟨inside.scope, inside.console, inside.frame, inside.frames⟩

/-- Stepping out of a call leads back to the caller. -/
theorem Inside.left (inside : Inside v m k) : Grown m { k with scope := k.scope.tail } where
  scope := by rw [inside.scope]; rfl
  console := inside.console
  size := inside.size.le
  frames := inside.frames

/-- The function can be called from inside a call of it. -/
theorem Inside.ready (ready : Ready address m) (inside : Inside v m k) : Ready address k := by
  obtain ⟨id, found⟩ := ready.found
  have same : ∀ id ∈ m.scope, k.store.frame? id = m.store.frame? id :=
    fun id seen => inside.frames id (ready.holds.made id seen)
  refine ⟨⟨?_, ?_⟩, ?_, id, ?_⟩
  · rw [inside.scope, List.forall_mem_cons]
    exact ⟨inside.size, fun id seen => (ready.holds.made id seen).trans inside.size⟩
  · rw [inside.scope]
    exact List.pairwise_cons.mpr ⟨ready.holds.made, ready.holds.nested⟩
  · rw [inside.scope, Store.isTraced, inside.frame]
    rfl
  · have unbound : k.store.binding? m.store.frames.size "Fib" = none := by
      rw [Store.binding?, inside.frame]
      rfl
    rw [inside.scope, ← found, ← Store.get_congr fun id seen => Store.binding?_congr (same id seen),
      Store.get, Store.find, unbound]
    rfl

theorem grown_opened (m : Machine) (name : String) : Grown m (m.opened name) where
  scope := rfl
  console := rfl
  size := by simp [Machine.opened, Store.extend]
  frames id old := by rw [Machine.opened, Store.frame?_extend, if_neg (by omega)]

/-- A call of the function with a number gives its Fibonacci number. -/
def Calls (address : String) (fuel : Nat) (v : Int) : Prop :=
  ∀ m, Ready address m → ∃ m',
    (Run.call (Run.eval fuel) (function address) (m.store.frames.size :: m.scope) [.int v]).exec
      (m.opened "Fib") = (.ok (.value (.int (number v))), m') ∧ Grown m m'

/-- A call by name, with an argument that evaluates to a number and changes nothing. -/
theorem Calls.eval {fuel : Nat} {argument : Expr} (calls : Calls address fuel v) (ready : Ready address m)
    (evaluates : (Run.eval fuel argument).exec (m.opened "Fib") =
      (.ok (.value (.int v)), m.opened "Fib")) :
    ∃ m', (Run.eval (fuel + 1) (.call "Fib" [argument])).exec m =
      (.ok (.value (.int (number v))), m') ∧ Grown m m' := by
  obtain ⟨id, found⟩ := ready.found
  obtain ⟨m', ran, grown⟩ := calls m ready
  refine ⟨m', ?_, grown⟩
  have given : (Run.evalArguments (Run.eval fuel) [argument]).exec (m.opened "Fib") =
      (.ok [.int v], m.opened "Fib") := by
    simp only [Run.evalArguments, Run.evalEach, Run.argument, Run.exec_bind, evaluates,
      Run.exec_unwrap, Result.snapshot, Result.snapshotAll, Value.unwrap, Run.exec_get, Run.exec_pure]
  change (Run.evalCall (Run.eval fuel) "Fib" [argument]).exec m = _
  rw [Run.exec_evalCall ready.untraced found given, ran]

section Statements

variable {fuel : Nat} {scope : Scope}

/-- The parameter as the result of looking it up. -/
def parameter (m : Machine) : Result := .cell m.store.frames.size "n"

theorem Inside.unwrap_parameter (inside : Inside v m k) :
    ((parameter m).snapshot k.store).unwrap = .ok (.int v) := by
  rw [parameter, Result.snapshot, Store.binding?, inside.frame]
  rfl

theorem Inside.eval_parameter (inside : Inside v m k) :
    (Run.eval (fuel + 1) (.ident "n")).exec k = (.ok (parameter m), k) := by
  have bound : k.store.binding? m.store.frames.size "n" =
      some (.record ⟨.int v, "int", some "let"⟩) := by
    rw [Store.binding?, inside.frame]
    rfl
  have found : k.store.find k.scope "n" = some (m.store.frames.size :: m.scope) := by
    rw [inside.scope, Store.find, bound]
    rfl
  have untraced : k.store.isTraced k.scope = false := by
    rw [inside.scope, Store.isTraced, inside.frame]
    rfl
  change (Run.evalName "n").exec k = _
  rw [Run.exec_evalName_record (Store.get_of_find found bound), Store.searchTrace_of_untraced untraced]
  simp [Console.write, parameter]

/-- An operator between the parameter and a number. -/
theorem Inside.eval_binary (inside : Inside v m k) {symbol : String} {op : Operator} {c : Int}
    {r : Value} (known : Operator.ofSymbol? symbol = some op)
    (applied : op.apply (.int v) (.int c) = .ok r) :
    (Run.eval (fuel + 2) (.binary symbol (.ident "n") (.int c))).exec k =
      (.ok (.value r.orZero), k) :=
  Run.eval_binary known inside.eval_parameter rfl inside.unwrap_parameter rfl applied

theorem related_atMost (a b : Int) : (Value.int a).related .atMost (.int b) = .ok (decide (a ≤ b)) := by
  change Except.ok (compare a b != .gt) = _
  have admitted : (compare a b != .gt) = decide (a ≤ b) := by
    rw [Bool.eq_iff_iff, bne_iff_ne, decide_eq_true_iff, ne_eq, compare_gt_iff_gt, not_lt]
  rw [admitted]

/-- The condition of the function decides between the two cases of the numbers. -/
theorem Inside.decides_condition (inside : Inside v m k) :
    (Run.decides (Run.eval (fuel + 2)) condition).exec k = (.ok (decide (v ≤ 1)), k) := by
  have compared : (Operator.relation .atMost).apply (.int v) (.int 1) =
      .ok (Value.truth (decide (v ≤ 1))) := by
    rw [Operator.apply, related_atMost]
    rfl
  have evaluated : (Run.eval (fuel + 2) condition).exec k =
      (.ok (.value (Value.truth (decide (v ≤ 1))).orZero), k) :=
    inside.eval_binary rfl compared
  rw [Run.decides]
  simp only [Run.exec_bind, evaluated, Run.exec_snapshot, Result.snapshot]
  by_cases small : v ≤ 1
  · rw [decide_eq_true small]
    rfl
  · rw [decide_eq_false small]
    rfl

/-- A call from inside of a call, with the parameter less some number. -/
theorem Inside.eval_before (inside : Inside v m k) (ready : Ready address m) (c : Int)
    (calls : Calls address (fuel + 2) (v - c)) :
    ∃ k', (Run.eval (fuel + 3) (before c)).exec k = (.ok (.value (.int (number (v - c)))), k') ∧
      Grown k k' := by
  refine calls.eval (inside.ready ready) ?_
  rw [← Arithmetic.orZero_int]
  exact (inside.grown (grown_opened k "Fib")).eval_binary rfl rfl

theorem Inside.eval_return (inside : Inside v m k) :
    (Run.eval (fuel + 2) (.ret (.ident "n"))).exec k = (.ok (.value (Value.int v).returned), k) := by
  have parameter : (Run.eval (fuel + 1) (.ident "n")).exec k = _ := inside.eval_parameter
  rw [Run.eval, Run.evalWith]
  simp only [Run.exec_bind, parameter, Run.exec_unwrap, inside.unwrap_parameter, Run.exec_pure]

/-- Up to one, the condition holds and the first statement returns the parameter. -/
theorem evalBody_small (inside : Inside v m (k.enter scope)) (small : v ≤ 1) :
    ∃ k', (Run.evalBody (Run.eval (fuel + 3)) scope body).exec k =
      (.ok (some (.int (number v))), k') ∧ Inside v m k' := by
  refine ⟨_, ?_, inside.enter⟩
  have decided : (Run.decides (Run.eval (fuel + 2)) condition).exec (k.enter scope) =
      (.ok true, k.enter scope) := by
    rw [inside.decides_condition, decide_eq_true small]
  have returned : (Run.eval (fuel + 2) (.ret (.ident "n"))).exec _ = _ := inside.enter.eval_return
  have block : (Run.evalBlock (Run.eval (fuel + 2)) [.ret (.ident "n")]).exec (k.enter scope) =
      (.ok [.value (Value.int v).returned], (k.enter scope).enter scope) := by
    rw [Run.evalBlock_eq, Run.enterBlock]
    simp only [Run.evalAll, Run.exec_bind, Run.exec_modify, returned, Run.exec_pure]
    rfl
  have taken : (Run.eval (fuel + 3) (.conditional "if" condition [.ret (.ident "n")] (some []))).exec
      (k.enter scope) =
        (.ok (.block [.value (Value.int v).returned]), (k.enter scope).enter scope) := by
    rw [Run.eval_conditional (by simp [condition]), Run.exec_bind, decided]
    simp only [↓reduceIte, Run.exec_bind, block, Run.exec_pure]
  rw [body, number_of_le small]
  exact Run.evalBody_returns taken rfl

/-- Beyond one, the condition fails, and the second statement returns what two more calls give. -/
theorem evalBody_large (inside : Inside v m (k.enter scope)) (ready : Ready address m) (large : 1 < v)
    (further : ∀ c, 0 < c → Calls address (fuel + 2) (v - c)) :
    ∃ k', (Run.evalBody (Run.eval (fuel + 5)) scope body).exec k =
      (.ok (some (.int (number v))), k') ∧ Inside v m k' := by
  have decided : (Run.decides (Run.eval (fuel + 4)) condition).exec (k.enter scope) =
      (.ok false, k.enter scope) := by
    rw [inside.decides_condition, decide_eq_false (by omega)]
  have passed : (Run.eval (fuel + 5) (.conditional "if" condition [.ret (.ident "n")] (some []))).exec
      (k.enter scope) = (.ok (.value .null), k.enter scope) := by
    rw [Run.eval_conditional (by simp [condition]), Run.exec_bind, decided]
    rfl
  obtain ⟨k₁, first, grown⟩ := inside.enter.eval_before ready 2 (further 2 (by decide))
  have between := inside.enter.grown grown
  obtain ⟨k₂, second, grown'⟩ := between.eval_before ready 1 (further 1 (by decide))
  refine ⟨k₂, ?_, between.grown grown'⟩
  have sum : (Run.eval (fuel + 4) (.binary "+" (before 2) (before 1))).exec
      ((k.enter scope).enter scope) = (.ok (.value (.int (number v))), k₂) := by
    rw [number_of_lt large, ← Arithmetic.orZero_int]
    exact Run.eval_binary rfl first second rfl rfl rfl
  have returned : (Run.eval (fuel + 5) (.ret (.binary "+" (before 2) (before 1)))).exec
      ((k.enter scope).enter scope) = (.ok (.value (Value.int (number v)).returned), k₂) := by
    rw [Run.eval, Run.evalWith]
    simp only [Run.exec_bind, sum, Run.exec_unwrap, Result.snapshot, Value.unwrap, Run.exec_pure]
  rw [body, Run.evalBody_continues passed]
  exact Run.evalBody_returns returned rfl

end Statements

/-- The parameter is bound in the frame of the call, and the body begins. -/
theorem call_inside (m : Machine) (v : Int) (ev : Expr → Run Result) :
    ∃ k, (Run.call ev (function address) (m.store.frames.size :: m.scope) [.int v]).exec (m.opened "Fib") =
        (Run.callBody ev (m.store.frames.size :: m.scope) body).exec k ∧
      Inside v m (k.enter (m.store.frames.size :: m.scope)) := by
  have made : (m.opened "Fib").store.frame? m.store.frames.size =
      some ⟨some "call_Fib", false, []⟩ := by
    rw [Machine.opened, Store.frame?_extend, if_pos rfl]
    rfl
  have plain : ∀ p ∈ parameters, p.Plain := List.forall_mem_singleton.mpr (.required "n" (some "let"))
  have proper : ∀ w ∈ [Value.int v], w.Proper := List.forall_mem_singleton.mpr ⟨rfl, Value.noConfusion⟩
  obtain ⟨store, added, binds, others, there, held⟩ :
      ∃ store added, (Run.bindParameters "Fib" (m.store.frames.size :: m.scope) parameters
          [.int v]).exec (m.opened "Fib") = (.ok (), { m.opened "Fib" with store }) ∧ _ :=
    Run.exec_bindParameters_fresh plain (by decide) proper made (fun _ _ => List.not_mem_nil)
  have bound : added = [("n", .record ⟨.int v, "int", some "let"⟩)] := by
    obtain ⟨type, typed, first⟩ := held.each 0 _ rfl
    cases typed
    have one : added.length = 1 := by simpa [parameters] using congrArg List.length held.names
    obtain ⟨entry, rfl⟩ := List.length_eq_one_iff.mp one
    exact congrArg (fun e => [e]) (Option.some.inj first)
  refine ⟨{ m.opened "Fib" with store }, Run.call_of_bound (Nat.le_refl 1) binds, rfl, rfl, ?_, ?_⟩
  · rw [bound] at there
    exact there
  · intro id old
    exact (others id (by omega)).trans ((grown_opened m "Fib").frames id old)

/-- A body that returns a number gives it to the caller. -/
theorem callBody_returns {ev : Expr → Run Result} {scope : Scope} {n : Int}
    (ran : (Run.evalBody ev scope body).exec k = (.ok (some (.int n)), k')) (inside : Inside v m k') :
    ∃ m', (Run.callBody ev scope body).exec k = (.ok (.value (.int n)), m') ∧ Grown m m' := by
  refine ⟨_, ?_, inside.left⟩
  have left : Run.leaveScope.exec k' = (.ok (), { k' with scope := k'.scope.tail }) := by
    rw [Run.exec_leaveScope, if_neg (by simp [inside.scope])]
  rw [Run.callBody]
  simp only [Run.exec_bind, ran, left, Value.functionResult, Run.exec_lift, Run.exec_pure]

/-- A call of the function gives the number of its argument. The induction is on the argument: beyond one,
the body calls the function with smaller ones, three levels further down. -/
theorem calls (v : Int) (fuel : Nat) (deep : 3 * v.toNat + 3 ≤ fuel) : Calls address fuel v := by
  induction size : v.toNat using Nat.strongRecOn generalizing v fuel with
  | ind _ ih =>
      intro m ready
      obtain ⟨k, begins, inside⟩ := call_inside m v (Run.eval fuel)
      rw [begins]
      rcases lt_or_ge 1 v with large | small
      · obtain ⟨rest, rfl⟩ : ∃ rest, fuel = rest + 5 := ⟨fuel - 5, by omega⟩
        obtain ⟨k', ran, inside'⟩ := evalBody_large inside ready large fun c positive =>
          ih (v - c).toNat (by omega) (v - c) (rest + 2) (by omega) rfl
        exact callBody_returns ran inside'
      · obtain ⟨rest, rfl⟩ : ∃ rest, fuel = rest + 3 := ⟨fuel - 3, by omega⟩
        obtain ⟨k', ran, inside'⟩ := evalBody_small inside small
        exact callBody_returns ran inside'

/-- The program with some argument in its call. -/
def program (argument : Expr) : List Expr :=
  [.define "Fib" parameters body, .call "Fib" [argument]]

/-- A number as it is read in a call. -/
def argument : Int → Expr
  | .ofNat k => .int k
  | .negSucc k => .unary "-" (.int (k + 1 : Nat))

section Program

variable (console : Console) (files : Files) (host : Host) (verbose : Bool) (folder : Option Path)
  {fuel : Nat}

/-- The machine after the definition of the function. -/
def defined : Machine :=
  { store := ⟨#[⟨none, false, [("Fib", .function (function (host.address 0)))]⟩]⟩, scope := [0],
    console, files, folder, verbose, serial := 1, host }

theorem eval_define :
    (Run.eval (fuel + 1) (.define "Fib" parameters body)).exec
      { Machine.fresh console files false host with scope := [0], verbose, folder } =
        (.ok (.value (function (host.address 0))), defined console files host verbose folder) := by
  have untraced : console.write "" = console := by simp [Console.write]
  have ran : (Run.defineFunction [0] "Fib" (function (host.address 0))).exec
      { Machine.fresh console files false host with scope := [0], verbose, folder, serial := 1 } =
        (.ok (function (host.address 0)), defined (console.write "") files host verbose folder) := rfl
  rw [untraced] at ran
  -- the function is counted first, and the outcome of the definition is given as a result
  exact congrArg (fun o => (o.1.map Result.value, o.2)) ran

theorem ready_defined : Ready (host.address 0) (defined console files host verbose folder) :=
  ⟨⟨by simp [defined], List.pairwise_singleton _ 0⟩, rfl, 0, rfl⟩

/-- In a fresh machine the program gives the function and the number of its argument. -/
theorem evalProgram_yields {argument : Expr} {n : Int}
    (evaluates : ∀ m, (Run.eval fuel argument).exec m = (.ok (.value (.int n)), m))
    (deep : 3 * n.toNat + 3 ≤ fuel) :
    ∃ after, (Run.evalProgram (fuel + 1) (program argument) [0] verbose folder).exec
        (.fresh console files false host) =
          (.ok [.value (function (host.address 0)), .value (.int (number n))], after) ∧
      Grown (defined console files host verbose folder) after := by
  obtain ⟨after, ran, grown⟩ :=
    (calls n fuel deep).eval (ready_defined console files host verbose folder) (evaluates _)
  refine ⟨after, ?_, grown⟩
  have first : (Run.eval (fuel + 1) (.define "Fib" parameters body)).exec _ = _ :=
    eval_define console files host verbose folder
  simp only [program, Run.evalProgram, Run.evalIn, Run.evalAll, Run.exec_bind, Run.exec_modify, first,
    ran, Run.exec_pure]
  rfl

end Program

section Text

open Source Reading

def functionName : Name := ⟨"Fib", by decide⟩

def parameterName : Name := ⟨"n", by decide⟩

def digit (d : Nat) (single : d < 10) : Term :=
  .number ⟨[⟨d, single⟩], by simp, by simp [Number.digitLimit]⟩

theorem connects : ∀ symbol ∈ ["<=", "-", "+"],
    symbol ∈ operators ∧ symbol ∉ [".", "=", "++", "--"] := by
  decide

def connective (symbol : String) (used : symbol ∈ ["<=", "-", "+"]) : Connective :=
  ⟨symbol, (connects symbol used).1, (connects symbol used).2⟩

def conditionTerm : Term :=
  .binary (connective "<=" (by simp)) (.name parameterName) (digit 1 (by decide))

def beforeTerm (d : Nat) (single : d < 10) : Term :=
  .call functionName
    (.last (.binary (connective "-" (by simp)) (.name parameterName) (digit d single)))

def sumTerm : Term :=
  .binary (connective "+" (by simp)) (beforeTerm 2 (by decide)) (beforeTerm 1 (by decide))

def param : Param := ⟨.changing, parameterName, none⟩

/-- The words of the definition, which stands on one line. -/
def definitionWords : List Word :=
  ⟨.keyword, "fun"⟩ :: functionName.word :: ⟨.lparen, "("⟩ :: (paramWords [param] ++
    ⟨.lbrace, "\x7b"⟩ :: ⟨.keyword, "if"⟩ :: ⟨.lparen, "("⟩ :: (conditionTerm.words ++
      ⟨.rparen, ")"⟩ :: ⟨.lbrace, "\x7b"⟩ :: ((Statement.ret (some (.name parameterName))).words ++
      ⟨.rbrace, "\x7d"⟩ :: ((Statement.ret (some sumTerm)).words ++ [⟨.rbrace, "\x7d"⟩]))))

theorem readTop_definition {tokens : List Token} (newline : Token) (rest : List Token) {fuel : Nat}
    (spelled : Token.Spelled tokens definitionWords) (enough : 8 * (tokens.length + 1) ≤ fuel) :
    (readTop fuel).run (tokens ++ newline :: rest) =
      (.ok (.define "Fib" parameters body), newline :: rest) := by
  simp only [definitionWords, Token.spelled_cons, Token.spelled_append, Token.spelled_nil] at spelled
  obtain ⟨t, -, rfl, ⟨kind, word⟩, name, -, rfl, named, opening, -, rfl, opens, front, -, rfl,
    spelledParams, brace, -, rfl, opensBody, isIf, -, rfl, ⟨ifKind, ifWord⟩, opening', -, rfl, opens',
    asked, -, rfl, spelledCondition, close, -, rfl, closes, brace', -, rfl, opensBranch, first, -, rfl,
    spelledFirst, closeBranch, -, rfl, closesBranch, second, -, rfl, spelledSecond, closeBody, -, rfl,
    closesBody, rfl⟩ := spelled
  simp only [List.length_cons, List.length_append, List.length_nil] at enough
  obtain ⟨n, rfl⟩ : ∃ n, fuel = n + 6 := ⟨fuel - 6, by omega⟩
  have follows : Follows (second ++ closeBody :: newline :: rest) := by
    obtain ⟨s, others, rfl, -, starts⟩ := statement_first _ spelledSecond
    exact (starts _).1
  have returnSum := readStatements_returned sumTerm (newline :: rest) spelledSecond closesBody
    (by omega : _ ≤ n + 2)
  have branch := readBlock_returned (.name parameterName) (second ++ closeBody :: newline :: rest)
    opensBranch spelledFirst closesBranch (by omega : _ ≤ n)
  have notElse : isIf.value ≠ "else" := by simp [ifWord]
  have conditional := readConditional_branch notElse opens' closes
    (readExpr_term conditionTerm _ spelledCondition (ends_of_closes closes) (by omega)) branch
    (.inl ⟨rfl, follows, dropNewlines_follows follows⟩)
  rw [← readTop_conditional ifKind ifWord, ifWord] at conditional
  have inside : (readBlock (n + 4)).run (brace :: isIf :: opening' :: (asked ++ close :: brace' ::
      (first ++ closeBranch :: (second ++ closeBody :: newline :: rest)))) =
        (.ok body, newline :: rest) := by
    refine readBlock_opened opensBody (dropNewlines_cons _ none (by simp [ifKind])) ?_
    exact readStatements_next (by simp [ifWord]) conditional (dropNewlines_follows follows) returnSum
  have params := readMoreParameters_params [param] (isIf :: opening' :: (asked ++ close :: brace' ::
    (first ++ closeBranch :: (second ++ closeBody :: newline :: rest)))) spelledParams opensBody.2
    (by omega : _ ≤ n + 3)
  have defined := readTop_function kind word named.1 opens params inside
  rw [named.2] at defined
  simp only [List.cons_append, List.append_assoc, List.nil_append]
  exact defined

theorem scan_definition : ∃ tokens between,
    Token.scan definition .start = (.ok tokens, between) ∧ Token.Spelled tokens definitionWords := by
  have scanned : (Token.scan definition .start).1.map (List.map fun t => (t.kind, t.value)) =
      .ok (definitionWords.map fun w => (some w.kind, w.value)) := by
    decide +kernel
  obtain ⟨tokens, ran, words⟩ := Fault.map_eq_ok.mp scanned
  exact ⟨tokens, _, Prod.ext ran rfl, Token.spelled_of_map words⟩

/-- The term of a number in the call, a negative one with its sign. -/
theorem exists_argument (n : Int) (small : n.natAbs < Nat.pow 10 Number.digitLimit) :
    ∃ t : Term, t.expr = argument n ∧
      ∀ {source : String} {rest : List Char} {words : List Word},
        Token.Scans source (')' :: rest) words →
        Token.Scans source ((toString n).toList ++ ')' :: rest) (t.words ++ words) := by
  have stop (rest : List Char) : ∀ c ∈ (')' :: rest).head?, Token.continuesNumber c = false := by
    intro c first
    obtain rfl : ')' = c := by simpa using first
    decide +kernel
  cases n with
  | ofNat k =>
      refine ⟨.number (.ofNat k small), ?_, fun others => ?_⟩
      · rw [Term.expr, Number.Numeral.value_ofNat]
        rfl
      · have digits := (Number.Numeral.ofNat k small).scans_numeral (stop _) others
        rw [Term.words]
        rw [Number.Numeral.text_ofNat] at digits ⊢
        exact digits
  | negSucc k =>
      refine ⟨.sign .minus (.number (.ofNat (k + 1) small)), ?_, fun others => ?_⟩
      · rw [Term.expr, Term.expr, Number.Numeral.value_ofNat]
        rfl
      · have written : (toString (Int.negSucc k)).toList = '-' :: (toString (k + 1)).toList := by
          change ("-" ++ toString (k + 1)).toList = _
          rw [String.toList_append]
          rfl
        have digits := (Number.Numeral.ofNat (k + 1) small).scans_negative (stop _) others
        rw [Term.words, Term.words, written]
        rw [Number.Numeral.text_ofNat] at digits ⊢
        exact digits

/-- The definition and a call with any number. -/
def source (n : Int) : String := s!"{definition}\nFib({n})\n"

/-- What stands after the definition. -/
def callChars (n : Int) : List Char :=
  '\n' :: 'F' :: 'i' :: 'b' :: '(' :: ((toString n).toList ++ [')', '\n'])

theorem source_chars (n : Int) : (source n).toList = definition.toList ++ callChars n := by
  change (definition ++ "\nFib(" ++ toString n ++ ")\n").toList = _
  simp only [String.toList_append, List.append_assoc]
  rfl

/-- After the definition a newline, the call and another newline are scanned. -/
theorem scans_call {t : Term} {n : Int} {source : String}
    (argument : ∀ {rest : List Char} {words : List Word}, Token.Scans source (')' :: rest) words →
      Token.Scans source ((toString n).toList ++ ')' :: rest) (t.words ++ words)) :
    Token.Scans source (callChars n)
      (newlineWord :: ((Statement.expression (.call functionName (.last t))).words ++ [newlineWord])) := by
  have stop : ∀ c ∈ ('(' :: ((toString n).toList ++ [')', '\n'])).head?,
      Token.continuesName c = false := by
    intro c first
    obtain rfl : '(' = c := by simpa using first
    decide +kernel
  have close : Token.Scans source [')', '\n'] [⟨.rparen, ")"⟩, newlineWord] :=
    Token.scans_step (Token.steps_punctuation source _ rfl)
      (Token.scans_step (Token.steps_newline source []) (Token.scans_nil source))
  have opening : Token.Scans source ('(' :: ((toString n).toList ++ [')', '\n']))
      (⟨.lparen, "("⟩ :: (t.words ++ [⟨.rparen, ")"⟩, newlineWord])) :=
    Token.scans_step (Token.steps_punctuation source _ rfl) (argument close)
  have name : Token.StepsTo source 'F' (['i', 'b'] ++ '(' :: ((toString n).toList ++ [')', '\n']))
      functionName.word ('(' :: ((toString n).toList ++ [')', '\n'])) :=
    Token.steps_name source (by decide) stop
  have words : (Statement.expression (.call functionName (.last t))).words ++ [newlineWord] =
      functionName.word :: ⟨.lparen, "("⟩ :: (t.words ++ [⟨.rparen, ")"⟩, newlineWord]) := by
    simp [Statement.words, Term.operandWords, Term.isPrimary, Word.bracketed, Term.words,
      Arguments.words]
  rw [words]
  exact Token.scans_step (Token.steps_newline source _) (Token.scans_step name opening)

/-- Tokens that spell the definition, a newline, a call and another newline are read as the program. -/
theorem ofTokens_program {t : Term} {tokens others : List Token}
    (spelled : Token.Spelled tokens definitionWords)
    (spelledCall : Token.Spelled others (newlineWord ::
      ((Statement.expression (.call functionName (.last t))).words ++ [newlineWord]))) :
    Expr.ofTokens (tokens ++ others) = .ok (program t.expr) := by
  simp only [Token.spelled_cons, Token.spelled_append, Token.spelled_nil] at spelledCall
  obtain ⟨newline, -, rfl, breaks, back, -, rfl, call, last, -, rfl, breaks', rfl⟩ := spelledCall
  have follows : Follows [] := by simp [Follows]
  have second := readsStatement_expression _ (fuelFor (back ++ [last])) back last [] call breaks' follows
    False.elim (by rw [fuelFor, List.length_append]; omega)
  have first := readTop_definition newline (back ++ [last]) spelled
    (by rw [fuelFor, List.length_append]; omega : _ ≤ fuelFor (tokens ++ newline :: (back ++ [last])))
  obtain ⟨t', more, rfl, -, starts⟩ := statement_first _ call
  obtain ⟨d, front, rfl, ⟨kind, -⟩, -⟩ := Token.spelled_cons.mp spelled
  have other : t'.kind ≠ some .newline := ((starts []).1 t' (by simp)).1
  exact ofTokens_ok_iff.mpr
    (.line (by simp [kind]) breaks (.inr first) (.line other breaks' second .nil))

/-- The text of the program is read as the definition of the function and the call. -/
theorem source_reads (n : Int) (small : n.natAbs < Nat.pow 10 Number.digitLimit) :
    ∃ tokens, Token.ofText (source n) = .ok tokens ∧
      Expr.ofTokens tokens = .ok (program (argument n)) := by
  obtain ⟨t, same, scans⟩ := exists_argument n small
  obtain ⟨tokens, between, scanned, spelled⟩ := scan_definition
  have call : Token.Scans (source n) (callChars n) _ := scans_call scans
  obtain ⟨others, after, scannedCall, spelledCall⟩ := call between
  have breaks : Token.BreaksLine (callChars n) := by simp [Token.BreaksLine, callChars]
  have kept : definition.toList.getLast? ≠ some '\\' := by decide
  have both : Token.scanFrom (source n) (definition.toList ++ callChars n) .start = _ :=
    (Token.scanned_of_scanFrom scanned).scanFrom_append breaks fun ends => absurd ends kept
  refine ⟨tokens ++ others, ?_, same ▸ ofTokens_program spelled spelledCall⟩
  rw [Token.ofText, Token.scan, source_chars, both, scannedCall]
  rfl

end Text

theorem fold_argument (n : Int) : (argument n).fold = (.ok (.int n), argument n) := by
  cases n with
  | ofNat k => rfl
  | negSucc k =>
      have literal : (Expr.int (k + 1 : Nat)).fold = (.ok (.int (k + 1 : Nat)), .int (k + 1 : Nat)) :=
        rfl
      rw [argument, Expr.fold, literal]
      simp only [Arithmetic.foldUnary_negate]
      rfl

theorem foldProgram_argument (n : Int) : (Expr.foldProgram (program (argument n))).1 =
    .ok (program (.int n)) := by
  simp [program, Expr.foldProgram, Expr.foldAll, Expr.fold, fold_argument, Expr.spread, Except.map]

theorem eval_argument (n : Int) (fuel : Nat) (m : Machine) :
    (Run.eval (fuel + 2) (argument n)).exec m = (.ok (.value (.int n)), m) := by
  cases n with
  | ofNat k => rfl
  | negSucc k =>
      have literal : (Run.eval (fuel + 1) (.int (k + 1 : Nat))).exec m = _ := rfl
      exact Arithmetic.eval_negate literal

theorem lt_pow {k limit : Nat} (many : 5 ≤ limit) (small : k < 100000) : k < Nat.pow 10 limit :=
  small.trans_le (Nat.pow_le_pow_right (n := 10) (by decide) many)

/-- The program computes the Fibonacci numbers. Its text is read as the definition of the function and
the call, if the number has few enough digits to be read; folding puts the number in the place of its
sign and digits. Both programs give the number of the argument when they are evaluated deep enough, in
the outermost scope of a fresh machine, and leave that scope with the function alone in its frame. -/
theorem program_yields_number (n : Int) (console : Console) (files : Files) (host : Host)
    (verbose : Bool) (folder : Option Path) {fuel : Nat} (deep : 3 * n.toNat + 4 ≤ fuel) :
    (n.natAbs < Nat.pow 10 Number.digitLimit → ∃ tokens, Token.ofText (source n) = .ok tokens ∧
      Expr.ofTokens tokens = .ok (program (argument n))) ∧
    (Expr.foldProgram (program (argument n))).1 = .ok (program (.int n)) ∧
    ∀ e, e = argument n ∨ e = .int n → ∃ after,
      (Run.evalProgram fuel (program e) [0] verbose folder).exec (.fresh console files false host) =
        (.ok [.value (function (host.address 0)), .value (.int (number n))], after) ∧
      after.scope = [0] ∧ after.console = console ∧
      after.store.frame? 0 = some ⟨none, false, [("Fib", .function (function (host.address 0)))]⟩ := by
  refine ⟨source_reads n, ?_, fun e either => ?_⟩
  · exact foldProgram_argument n
  · obtain ⟨rest, rfl⟩ : ∃ rest, fuel = rest + 3 := ⟨fuel - 3, by omega⟩
    have evaluates : ∀ m, (Run.eval (rest + 2) e).exec m = (.ok (.value (.int n)), m) := by
      rcases either with rfl | rfl
      · exact eval_argument n rest
      · exact fun _ => rfl
    obtain ⟨after, ran, grown⟩ :=
      evalProgram_yields console files host verbose folder evaluates (by omega)
    exact ⟨after, ran, grown.scope, grown.console, grown.frames 0 Nat.one_pos⟩

theorem program_yields_number_ten : 3 * (10 : Int).toNat + 4 ≤ 34 ∧
    ∃ tokens after, Token.ofText (source 10) = .ok tokens ∧
      Expr.ofTokens tokens = .ok (program (argument 10)) ∧
      (Run.evalProgram 34 (program (argument 10)) [0] false none).exec
        (.fresh (.ofInput "" false) .none false) =
          (.ok [.value (function Value.noAddress), .value (.int 55)], after) ∧
      after.scope = [0] := by
  have deep : 3 * (10 : Int).toNat + 4 ≤ 34 := by decide
  obtain ⟨read, -, evaluated⟩ :=
    program_yields_number 10 (.ofInput "" false) .none .plain false none deep
  obtain ⟨tokens, scanned, parsed⟩ := read (lt_pow (by decide) (by decide))
  obtain ⟨after, ran, scope, -⟩ := evaluated _ (.inl rfl)
  have value : number 10 = 55 := number_natCast 10
  rw [value] at ran
  exact ⟨deep, tokens, after, scanned, parsed, ran, scope⟩

/-- What the call of the program gives, where evaluation may nest deep enough for it. -/
theorem call_eq_fib (n : Nat) (deep : 3 * n + 4 ≤ Run.depthLimit) : call n = .ok (.int (Nat.fib n)) := by
  have small : n < 100000 := by
    rw [Run.depthLimit] at deep
    omega
  obtain ⟨tokens, scanned, parsed⟩ := source_reads n (lt_pow (by decide) small)
  have scannedText : Token.ofText (text n) = .ok tokens := scanned
  obtain ⟨rest, enough⟩ : ∃ rest, Run.depthLimit = rest + 3 := ⟨Run.depthLimit - 3, by omega⟩
  obtain ⟨after, ran, -⟩ := evalProgram_yields (.ofInput "" false) .none .plain false none
    (fun _ => rfl : ∀ m, (Run.eval (rest + 2) (.int n)).exec m = (.ok (.value (.int n)), m))
    (by rw [Int.toNat_natCast]; omega)
  have whole : (Run.runText (text n) [0] false none).exec (.fresh (.ofInput "" false) .none false) =
      (.ok [.value (function (Host.plain.address 0)), .value (.int (number n))], after) := by
    simp only [Run.runText, Run.readProgram, Run.exec_bind, Run.exec_lift, scannedText, parsed,
      Bool.false_eq_true, ↓reduceIte, Run.exec_pure, foldProgram_argument, enough, ran]
  rw [← number_natCast, call]
  simp only [Run.exec_bind, whole]
  rfl

end Fibonacci

end Scriptlet
