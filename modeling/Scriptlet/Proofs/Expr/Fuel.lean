import Scriptlet.Proofs.Expr.Derivation

set_option autoImplicit false

/-!
What can be derived is read, with fuel in proportion to the tokens that are taken. Few readers call each
other without a token taken in between, and the rank of a form counts how many more may follow.
-/

namespace Scriptlet.Reading

/-- How much fuel the reader of a form needs beyond that for the tokens it takes. -/
def Form.rank : Form → Nat
  | .path _ _ | .entry | .operators _ _ | .operand | .usage _ | .parameters | .conditional => 1
  | .entries _ | .expression _ => 2
  | .statement | .assignment _ _ => 3
  | .arguments | .block | .statements => 4

theorem Form.rank_pos (f : Form) : 0 < f.rank := by
  cases f <;> simp [Form.rank]

/-- The form is read from the tokens with fuel in proportion to those that are taken. -/
structure Runs (f : Form) (tokens : List Token) (a : f.Result) (rest : List Token) : Prop where
  reads : Reads f tokens a rest
  run : ∀ fuel, 8 * tokens.length + f.rank ≤ 8 * rest.length + fuel →
    (f.read fuel).run tokens = (.ok a, rest)

theorem Runs.le {f : Form} {tokens : List Token} {a : f.Result} {rest : List Token}
    (runs : Runs f tokens a rest) : rest.length ≤ tokens.length :=
  runs.reads.suffix.length_le

theorem Runs.lt {f : Form} {t : Token} {tokens : List Token} {a : f.Result} {rest : List Token}
    (runs : Runs f (t :: tokens) a rest) (takes : f.Takes) : rest.length ≤ tokens.length :=
  Nat.le_of_lt_succ (runs.reads.shorter (.inl takes) (by simp))

/-- The steps can be made one after another, and each part is read with fuel in proportion. -/
def Ran : List Symbol → List Token → List Token → Prop
  | [], tokens, rest => tokens = rest
  | .token t :: symbols, tokens, rest => ∃ left, tokens = t :: left ∧ Ran symbols left rest
  | .look p :: symbols, tokens, rest => p tokens.head? ∧ Ran symbols tokens rest
  | .newlines limit :: symbols, tokens, rest => Ran symbols (dropNewlines limit tokens) rest
  | .skip :: symbols, tokens, rest => Ran symbols tokens.tail rest
  | .part f a :: symbols, tokens, rest => ∃ left, Runs f tokens a left ∧ Ran symbols left rest

section Completeness

variable {symbols : List Symbol} {tokens rest : List Token} {n : Nat}

theorem ran_ahead {p : Token → Prop} : Ran (.ahead p :: symbols) tokens rest ↔
    ∃ t left, tokens = t :: left ∧ p t ∧ Ran symbols tokens rest := by
  cases tokens <;> simp [Symbol.ahead, Ran]

theorem ran_finish : Ran (.finish :: symbols) tokens rest ↔ tokens = [] ∧ Ran symbols [] rest := by
  cases tokens <;> simp [Symbol.finish, Ran]

theorem Runs.path {name : Option String} {parents : List (Option String)} {e : Expr}
    (runs : Runs (.path name parents) tokens e rest)
    (fuel : Nat) (enough : 8 * tokens.length + 1 ≤ 8 * rest.length + fuel) :
    (readModule fuel name parents).run tokens = (.ok e, rest) := runs.run fuel enough

theorem Runs.entries {before : List (String × Value)} {v : Value}
    (runs : Runs (.entries before) tokens v rest)
    (fuel : Nat) (enough : 8 * tokens.length + 2 ≤ 8 * rest.length + fuel) :
    (readEntries fuel before).run tokens = (.ok v, rest) := runs.run fuel enough

theorem Runs.entry {entry : String × Value} (runs : Runs .entry tokens entry rest)
    (fuel : Nat) (enough : 8 * tokens.length + 1 ≤ 8 * rest.length + fuel) :
    (readEntry fuel).run tokens = (.ok entry, rest) := runs.run fuel enough

theorem Runs.statement {e : Expr} (runs : Runs .statement tokens e rest)
    (fuel : Nat) (enough : 8 * tokens.length + 3 ≤ 8 * rest.length + fuel) :
    (readTop fuel).run tokens = (.ok e, rest) := runs.run fuel enough

theorem Runs.expression {least : Int} {e : Expr} (runs : Runs (.expression least) tokens e rest)
    (fuel : Nat) (enough : 8 * tokens.length + 2 ≤ 8 * rest.length + fuel) :
    (readExpr fuel least).run tokens = (.ok e, rest) := runs.run fuel enough

theorem Runs.operators {least : Int} {l e : Expr} (runs : Runs (.operators least l) tokens e rest)
    (fuel : Nat) (enough : 8 * tokens.length + 1 ≤ 8 * rest.length + fuel) :
    (readOperators fuel least l).run tokens = (.ok e, rest) := runs.run fuel enough

theorem Runs.operand {e : Expr} (runs : Runs .operand tokens e rest)
    (fuel : Nat) (enough : 8 * tokens.length + 1 ≤ 8 * rest.length + fuel) :
    (readPrimary fuel).run tokens = (.ok e, rest) := runs.run fuel enough

theorem Runs.usage {name : String} {e : Expr} (runs : Runs (.usage name) tokens e rest)
    (fuel : Nat) (enough : 8 * tokens.length + 1 ≤ 8 * rest.length + fuel) :
    (readName fuel name).run tokens = (.ok e, rest) := runs.run fuel enough

theorem Runs.assignment {binding : Option String} {name : String} {e : Expr}
    (runs : Runs (.assignment binding name) tokens e rest)
    (fuel : Nat) (enough : 8 * tokens.length + 3 ≤ 8 * rest.length + fuel) :
    (readAssignment fuel binding name).run tokens = (.ok e, rest) := runs.run fuel enough

theorem Runs.arguments {args : List Expr} (runs : Runs .arguments tokens args rest)
    (fuel : Nat) (enough : 8 * tokens.length + 4 ≤ 8 * rest.length + fuel) :
    (readMoreArguments fuel).run tokens = (.ok args, rest) := runs.run fuel enough

theorem Runs.parameters {params : List Parameter} (runs : Runs .parameters tokens params rest)
    (fuel : Nat) (enough : 8 * tokens.length + 1 ≤ 8 * rest.length + fuel) :
    (readMoreParameters fuel).run tokens = (.ok params, rest) := runs.run fuel enough

theorem Runs.conditional {e : Expr} (runs : Runs .conditional tokens e rest)
    (fuel : Nat) (enough : 8 * tokens.length + 1 ≤ 8 * rest.length + fuel) :
    (readConditional fuel).run tokens = (.ok e, rest) := runs.run fuel enough

theorem Runs.block {body : List Expr} (runs : Runs .block tokens body rest)
    (fuel : Nat) (enough : 8 * tokens.length + 4 ≤ 8 * rest.length + fuel) :
    (readBlock fuel).run tokens = (.ok body, rest) := runs.run fuel enough

theorem Runs.statements {body : List Expr} (runs : Runs .statements tokens body rest)
    (fuel : Nat) (enough : 8 * tokens.length + 4 ≤ 8 * rest.length + fuel) :
    (readStatements fuel).run tokens = (.ok body, rest) := runs.run fuel enough

theorem run_path {name : Option String} {parents : List (Option String)} {e : Expr}
    (production : Production (.path name parents) e symbols) (ran : Ran symbols tokens rest)
    (enough : 8 * tokens.length ≤ 8 * rest.length + n) :
    (readModule (n + 1) name parents).run tokens = (.ok e, rest) := by
  cases production with
  | pathOther =>
      simp only [ran_ahead, Ran] at ran
      obtain ⟨t, left, rfl, kind, rfl⟩ := ran
      simp [readModule, kind]
  | pathEnd last =>
      simp only [Ran] at ran
      obtain ⟨_, rfl, rfl⟩ := ran
      simp only [List.length_cons] at enough
      rcases last with last | last <;> simp [readModule, last, takeOneOf, separators]
  | pathMore step further =>
      simp only [ran_ahead, Ran] at ran
      obtain ⟨_, rfl, _, _, rfl, rfl, _, runs, rfl⟩ := ran
      have shorter := runs.le
      simp only [List.length_cons] at enough shorter
      have read := runs.path n (by simp only [List.length_cons]; omega)
      rcases step with step | step <;> rcases further with further | further <;>
        simpa [readModule, step, further] using read
  | pathLast step last =>
      simp only [Ran] at ran
      obtain ⟨_, rfl, _, rfl, rfl⟩ := ran
      simp only [List.length_cons] at enough
      rcases step with step | step <;> rcases last with last | last <;>
        simp [readModule, step, last, takeOneOf, separators]
  | pathStop step =>
      simp only [ran_ahead, Ran] at ran
      obtain ⟨_, rfl, t', _, rfl, ⟨stops, goes⟩, rfl⟩ := ran
      simp only [List.length_cons] at enough
      have other : ∀ k, t'.kind = some k → k ≠ .identifier ∧ k ≠ .operator ∧ k ≠ .newline ∧
          k ≠ .semicolon := by
        intro k kind
        simp only [InPath, Terminates, kind, Option.some.injEq, not_or] at stops goes
        exact ⟨stops.1, stops.2, goes⟩
      rcases step with step | step <;>
        simp only [readModule, run_bind, run_current, List.head?_cons, run_demand_some, step,
          run_next, List.tail_cons] <;>
        split <;> simp_all

theorem run_entries {before : List (String × Value)} {v : Value}
    (production : Production (.entries before) v symbols) (ran : Ran symbols tokens rest)
    (enough : 8 * tokens.length + 1 ≤ 8 * rest.length + n) :
    (readEntries (n + 1) before).run tokens = (.ok v, rest) := by
  cases production with
  | entriesNone =>
      simp only [ran_ahead, Ran] at ran
      obtain ⟨t, left, rfl, ⟨kind, brace⟩, rfl⟩ := ran
      simp [readEntries, kind, readEntries.closeObject, brace]
  | entriesLast =>
      simp only [ran_ahead, Ran] at ran
      obtain ⟨t, left, rfl, kind, after, entry, last, _, dropped, ⟨closes, brace⟩, rfl⟩ := ran
      have bound := (dropNewlines_suffix none after).length_le
      have read := entry.entry n (by omega)
      simp [readEntries, kind, read, dropped, closes, readEntries.closeObject, brace]
  | entriesMore comma =>
      simp only [ran_ahead, Ran] at ran
      obtain ⟨t, left, rfl, kind, after, entry, _, dropped, _, others, rfl⟩ := ran
      have bound := (dropNewlines_suffix none after).length_le
      have shorter := others.le
      rw [dropped, List.length_cons] at bound
      have read := entry.entry n (by omega)
      have more := others.entries n (by have := entry.le; omega)
      simp [readEntries, kind, read, dropped, comma, run_take _ comma, more]

theorem run_entry {entry : String × Value} (production : Production .entry entry symbols)
    (ran : Ran symbols tokens rest) (enough : 8 * tokens.length ≤ 8 * rest.length + n) :
    (readEntry (n + 1)).run tokens = (.ok entry, rest) := by
  cases production with
  | entryWord labels isColon isWord =>
      simp only [Ran] at ran
      obtain ⟨_, dropped, _, rfl, _, rfl, rfl⟩ := ran
      rcases labels with label | label <;> rcases isWord with word | word <;>
        simp [readEntry, dropped, takeOneOf, label, takeSpelled, isColon, word]
  | entryObject labels isColon opens closes =>
      simp only [Ran] at ran
      obtain ⟨_, dropped, _, rfl, _, rfl, _, others, _, rfl, rfl⟩ := ran
      have bound := (dropNewlines_suffix none tokens).length_le
      rw [dropped] at bound
      simp only [List.length_cons] at bound
      have shorter := others.le
      simp only [List.length_cons] at shorter
      have read := others.entries n (by simp only [List.length_cons]; omega)
      rcases labels with label | label <;>
        simp [readEntry, dropped, takeOneOf, label, takeSpelled, isColon, opens, run_take _ opens, read,
          run_take _ closes]

theorem run_statement {e : Expr} (production : Production .statement e symbols)
    (ran : Ran symbols tokens rest) (enough : 8 * tokens.length + 2 ≤ 8 * rest.length + n) :
    (readTop (n + 1)).run tokens = (.ok e, rest) := by
  cases production with
  | nothing =>
      simp only [ran_finish, Ran] at ran
      obtain ⟨rfl, rfl⟩ := ran
      simp [readTop]
  | expression =>
      simp only [ran_ahead, Ran] at ran
      obtain ⟨t, left, rfl, other, _, value, rfl⟩ := ran
      rw [readTop_expression other]
      exact value.expression n enough
  | imports word =>
      simp only [Ran] at ran
      obtain ⟨left, rfl, _, path, rfl⟩ := ran
      rw [readTop_import word]
      exact path.path _ (by unfold fuelFor; omega)
  | defines binds isName assigns =>
      simp only [Ran] at ran
      obtain ⟨_, rfl, _, rfl, _, rfl, _, value, rfl⟩ := ran
      simp only [List.length_cons] at enough
      have read := value.assignment n (by omega)
      have notImport := binds.notImport
      obtain ⟨isKeyword, word⟩ := binds
      rcases assigns with ⟨operator, equals⟩ | newline | semicolon
      · simp [readTop, isKeyword, notImport, word, run_take _ isName, operator, equals, read]
      · simp [readTop, isKeyword, notImport, word, run_take _ isName, newline, separators, read]
      · simp [readTop, isKeyword, notImport, word, run_take _ isName, semicolon, separators, read]
  | undefined binds isName =>
      simp only [ran_ahead, Ran] at ran
      obtain ⟨_, rfl, _, rfl, t', left, rfl, other, rfl⟩ := ran
      have notImport := binds.notImport
      obtain ⟨isKeyword, word⟩ := binds
      simp only [Assigns, Terminates, not_or] at other
      simp [readTop, isKeyword, notImport, word, run_take _ isName, separators, other]
  | function word isName opens =>
      simp only [Ran] at ran
      obtain ⟨_, rfl, _, rfl, _, rfl, _, parameters, _, block, rfl⟩ := ran
      have shorter := parameters.le
      have shortest := block.le
      simp only [List.length_cons] at enough
      obtain ⟨m, rfl⟩ : ∃ m, n = m + 2 := ⟨n - 2, by omega⟩
      simp [readTop, word.1, word.2, readFunction, run_take _ isName, readParameters, run_take _ opens,
        parameters.parameters m (by omega), block.block (m + 1) (by omega)]
  | returnsNothing word last =>
      simp only [Ran] at ran
      obtain ⟨_, rfl, _, rfl, rfl⟩ := ran
      obtain ⟨m, rfl⟩ : ∃ m, n = m + 1 := ⟨n - 1, by simp at enough; omega⟩
      simp [readTop, word.1, word.2, readReturn, last]
  | returnsLine word =>
      simp only [ran_ahead, Ran] at ran
      obtain ⟨_, rfl, _, _, rfl, newline, rfl⟩ := ran
      obtain ⟨m, rfl⟩ : ∃ m, n = m + 1 := ⟨n - 1, by simp at enough; omega⟩
      simp [readTop, word.1, word.2, readReturn, newline]
  | returnsValue word =>
      simp only [ran_ahead, Ran] at ran
      obtain ⟨_, rfl, _, _, rfl, other, _, value, rfl⟩ := ran
      have shorter := value.le
      simp only [List.length_cons] at enough shorter
      obtain ⟨m, rfl⟩ : ∃ m, n = m + 1 := ⟨n - 1, by omega⟩
      have read := value.expression m (by simp only [List.length_cons]; omega)
      obtain ⟨newline, semicolon⟩ := not_or.mp other
      rw [readTop_return word.1 word.2]
      exact readReturn_value ⟨newline, semicolon⟩ read
  | branches =>
      simp only [ran_ahead, Ran] at ran
      obtain ⟨_, _, rfl, word, _, conditional, rfl⟩ := ran
      rw [readTop_conditional word.1 word.2]
      exact conditional.conditional n (by omega)

theorem run_expression {least : Int} {e : Expr} (production : Production (.expression least) e symbols)
    (ran : Ran symbols tokens rest) (enough : 8 * tokens.length + 1 ≤ 8 * rest.length + n) :
    (readExpr (n + 1) least).run tokens = (.ok e, rest) := by
  cases production with
  | climbs =>
      simp only [Ran] at ran
      obtain ⟨left, operand, _, operators, rfl⟩ := ran
      have shorter := operand.le
      have shortest := operators.le
      rw [readExpr_primary (operand.operand n (by omega))]
      exact operators.operators n (by omega)

theorem run_operators {least : Int} {l e : Expr}
    (production : Production (.operators least l) e symbols) (ran : Ran symbols tokens rest)
    (enough : 8 * tokens.length ≤ 8 * rest.length + n) :
    (readOperators (n + 1) least l).run tokens = (.ok e, rest) := by
  cases production with
  | operatorsStop =>
      simp only [Symbol.endOr, Ran] at ran
      obtain ⟨stops, rfl⟩ := ran
      cases tokens with
      | nil => simp [readOperators]
      | cons t tokens =>
          obtain ⟨other, semicolon⟩ := stops t rfl
          have other : ¬ (t.kind = some .operator ∧ least ≤ precedence t) := other
          simp [readOperators, other, semicolon]
  | operatorsEnd last =>
      simp only [Ran] at ran
      obtain ⟨_, rfl, rfl⟩ := ran
      simp [readOperators, last, run_take _ last]
  | post operates doubled =>
      simp only [Ran] at ran
      obtain ⟨_, rfl, rfl⟩ := ran
      have spelled : _ = "++" ∨ _ = "--" := doubled
      simp [readOperators, operates.1, operates.2, spelled]
  | binary operates single =>
      simp only [Ran] at ran
      obtain ⟨_, rfl, left, right, _, operators, rfl⟩ := ran
      have shorter := right.le
      have shortest := operators.le
      simp only [List.length_cons] at enough
      have spelled : ¬ (_ = "++" ∨ _ = "--") := single
      have read := right.expression n (by omega)
      have more := operators.operators n (by omega)
      unfold tighter at read
      simp [readOperators, operates.1, operates.2, spelled, read, more]

theorem run_operand {e : Expr} (production : Production .operand e symbols)
    (ran : Ran symbols tokens rest) (enough : 8 * tokens.length ≤ 8 * rest.length + n) :
    (readPrimary (n + 1)).run tokens = (.ok e, rest) := by
  have bound := (dropNewlines_suffix none tokens).length_le
  cases production with
  | noOperand =>
      simp only [ran_finish, Ran] at ran
      obtain ⟨dropped, rfl⟩ := ran
      simp [readPrimary, dropped]
  | sign unary signed =>
      simp only [Ran] at ran
      obtain ⟨_, dropped, _, operand, rfl⟩ := ran
      rw [dropped, List.length_cons] at bound
      have sign : _ = "-" ∨ _ = "+" ∨ _ = "!" := signed
      simp [readPrimary, dropped, unary, sign, operand.operand n (by omega)]
  | double unary unsigned =>
      simp only [Ran] at ran
      obtain ⟨_, dropped, _, value, rfl⟩ := ran
      rw [dropped, List.length_cons] at bound
      have sign : ¬ (_ = "-" ∨ _ = "+" ∨ _ = "!") := unsigned
      simp [readPrimary, dropped, unary, sign, value.expression n (by omega)]
  | group opens closes =>
      simp only [Ran] at ran
      obtain ⟨_, dropped, _, value, _, rfl, rfl⟩ := ran
      rw [dropped, List.length_cons] at bound
      have read := value.expression n (by simp only [List.length_cons]; omega)
      obtain ⟨kind, opens⟩ := opens
      simp [readPrimary, dropped, isUnary, opens, run_take _ kind, read, run_take _ closes]
  | @object _ last v opens closes =>
      simp only [Ran] at ran
      obtain ⟨left, dropped, _, entries, after, rfl, rfl⟩ := ran
      have read : (fuelled readObject).run left = (.ok v, last :: after) := by
        rw [run_fuelled, readObject]
        exact entries.entries _ (by unfold fuelFor; omega)
      obtain ⟨kind, opens⟩ := opens
      simp [readPrimary, dropped, isUnary, opens, run_take _ kind, read, run_take _ closes,
        -run_fuelled]
  | number kind plain value =>
      simp only [Ran] at ran
      obtain ⟨_, dropped, rfl⟩ := ran
      obtain ⟨unary, opens, braces⟩ := plain
      simp [readPrimary, dropped, unary, opens, braces, kind, value]
  | string kind plain =>
      simp only [Ran] at ran
      obtain ⟨_, dropped, rfl⟩ := ran
      obtain ⟨unary, opens, braces⟩ := plain
      simp [readPrimary, dropped, unary, opens, braces, kind]
  | name kind plain =>
      simp only [Ran] at ran
      obtain ⟨_, dropped, _, usage, rfl⟩ := ran
      rw [dropped, List.length_cons] at bound
      obtain ⟨unary, opens, braces⟩ := plain
      simp [readPrimary, dropped, unary, opens, braces, kind, usage.usage n (by omega)]
  | truth kind word =>
      simp only [Ran] at ran
      obtain ⟨_, dropped, rfl⟩ := ran
      rcases word with word | word <;> simp [readPrimary, dropped, isUnary, kind, word]
  | keywordCall kind plain other opens =>
      simp only [Ran] at ran
      obtain ⟨_, dropped, _, rfl, _, arguments, rfl⟩ := ran
      rw [dropped] at bound
      simp only [List.length_cons] at bound
      have shorter := arguments.le
      obtain ⟨m, rfl⟩ : ∃ m, n = m + 1 := ⟨n - 1, by omega⟩
      obtain ⟨unary, notOpen, braces⟩ := plain
      simp [readPrimary, dropped, unary, notOpen, braces, kind, other, opens.2, readArguments,
        run_take _ opens.1, arguments.arguments m (by omega)]

theorem run_usage {name : String} {e : Expr} (production : Production (.usage name) e symbols)
    (ran : Ran symbols tokens rest) (enough : 8 * tokens.length ≤ 8 * rest.length + n) :
    (readName (n + 1) name).run tokens = (.ok e, rest) := by
  cases production with
  | property point =>
      simp only [Ran] at ran
      obtain ⟨_, rfl, _, index, rfl⟩ := ran
      rw [List.length_cons] at enough
      simp [readName, point, index.statement n (by omega)]
  | call opens =>
      simp only [Ran] at ran
      obtain ⟨_, rfl, _, arguments, rfl⟩ := ran
      have shorter := arguments.le
      rw [List.length_cons] at enough
      obtain ⟨m, rfl⟩ : ∃ m, n = m + 1 := ⟨n - 1, by omega⟩
      simp [readName, opens.2, readArguments, run_take _ opens.1, arguments.arguments m (by omega)]
  | reassigns equals =>
      simp only [Ran] at ran
      obtain ⟨_, rfl, _, value, rfl⟩ := ran
      rw [List.length_cons] at enough
      simp [readName, equals, value.assignment n (by omega)]
  | itself =>
      simp only [ran_ahead, Ran] at ran
      obtain ⟨_, _, rfl, ⟨point, opens, equals⟩, rfl⟩ := ran
      simp [readName, point, opens, equals]

theorem run_assignment {binding : Option String} {name : String} {e : Expr}
    (production : Production (.assignment binding name) e symbols)
    (ran : Ran symbols tokens rest) (enough : 8 * tokens.length + 2 ≤ 8 * rest.length + n) :
    (readAssignment (n + 1) binding name).run tokens = (.ok e, rest) := by
  cases production with
  | valueless =>
      simp only [ran_ahead, Ran] at ran
      obtain ⟨_, _, rfl, kind | kind, rfl⟩ := ran <;> simp [readAssignment, kind]
  | valuelessEnd last =>
      simp only [Ran] at ran
      obtain ⟨_, rfl, rfl⟩ := ran
      rcases last with kind | kind <;> simp [readAssignment, kind, takeOneOf, separators]
  | value =>
      simp only [ran_ahead, Symbol.endOr, Ran] at ran
      obtain ⟨_, _, rfl, ⟨closes, comma, last⟩, left, value, stops, rfl⟩ := ran
      obtain ⟨newline, semicolon⟩ := not_or.mp last
      have read := value.expression n enough
      cases left with
      | nil => simp [readAssignment, closes, comma, newline, semicolon, read]
      | cons t left =>
          simp [readAssignment, closes, comma, newline, semicolon, read, stops t rfl]
  | valueEnd last =>
      simp only [ran_ahead, Ran] at ran
      obtain ⟨_, _, rfl, ⟨closes, comma, starts⟩, _, value, _, rfl, rfl⟩ := ran
      obtain ⟨newline, semicolon⟩ := not_or.mp starts
      have read := value.expression n (by simp only [List.length_cons] at enough ⊢; omega)
      rcases last with kind | kind <;>
        simp [readAssignment, closes, comma, newline, semicolon, read, kind, takeOneOf, separators]

theorem run_moreArguments {args : List Expr} (production : Production .arguments args symbols)
    (ran : Ran symbols tokens rest) (enough : 8 * tokens.length + 3 ≤ 8 * rest.length + n) :
    (readMoreArguments (n + 1)).run tokens = (.ok args, rest) := by
  cases production with
  | argumentsStop =>
      simp only [ran_finish, Ran] at ran
      obtain ⟨rfl, rfl⟩ := ran
      simp [readMoreArguments]
  | argumentsEnd closes =>
      simp only [Ran] at ran
      obtain ⟨_, rfl, rfl⟩ := ran
      exact readMoreArguments_close closes
  | argumentsMore parts parting =>
      simp only [ran_ahead, Ran] at ran
      obtain ⟨_, _, rfl, closes, _, argument, left, rfl, _, others, rfl⟩ := ran
      have shorter := argument.lt trivial
      have shortest := others.le
      simp only [List.length_cons] at enough shorter
      have read := argument.statement n (by simp only [List.length_cons]; omega)
      have more := others.arguments n (by omega)
      have spelled : _ = "," ∨ _ = "newline" := parts
      rw [readMoreArguments]
      simp [closes, read, spelled, takeIf_parting left parting, more]
  | argumentsGoOn =>
      simp only [ran_ahead, Ran] at ran
      obtain ⟨_, _, rfl, closes, _, argument, t', after, rfl, ⟨parts, parting⟩, _, others, rfl⟩ := ran
      have shorter := argument.lt trivial
      have shortest := others.le
      simp only [List.length_cons] at enough shorter shortest
      have read := argument.statement n (by simp only [List.length_cons]; omega)
      have more := others.arguments n (by simp only [List.length_cons]; omega)
      have spelled : _ = "," ∨ _ = "newline" := parts
      rw [readMoreArguments]
      simp [closes, read, spelled, takeIf_other after parting, more]
  | argumentsLast other kind =>
      simp only [ran_ahead, Ran] at ran
      obtain ⟨_, _, rfl, closes, _, argument, _, rfl, rfl⟩ := ran
      have read := argument.statement n (by simp only [List.length_cons] at enough ⊢; omega)
      have spelled : ¬ (_ = "," ∨ _ = "newline") := other
      simp [readMoreArguments, closes, read, spelled, run_take _ kind]

theorem run_moreParameters {params : List Parameter}
    (production : Production .parameters params symbols) (ran : Ran symbols tokens rest)
    (enough : 8 * tokens.length ≤ 8 * rest.length + n) :
    (readMoreParameters (n + 1)).run tokens = (.ok params, rest) := by
  cases production with
  | parametersStop =>
      simp only [ran_finish, Ran] at ran
      obtain ⟨rfl, rfl⟩ := ran
      simp [readMoreParameters]
  | parametersEnd closes =>
      simp only [Ran] at ran
      obtain ⟨_, rfl, rfl⟩ := ran
      exact readMoreParameters_close closes
  | parametersBrace =>
      simp only [ran_ahead, Ran] at ran
      obtain ⟨_, _, rfl, brace, rfl⟩ := ran
      exact readMoreParameters_brace brace
  | parametersLast binds isName =>
      simp only [ran_ahead, Ran] at ran
      obtain ⟨_, rfl, _, rfl, _, _, rfl, closes, _, others, rfl⟩ := ran
      have shorter := others.le
      simp only [List.length_cons] at enough shorter
      have more := others.parameters n (by simp only [List.length_cons]; omega)
      have other := binds.notBracket
      obtain ⟨kind, word⟩ := binds
      simp [readMoreParameters, kind, word, other, run_take _ isName, closes, more]
  | parametersMore binds isName comma =>
      simp only [Ran] at ran
      obtain ⟨_, rfl, _, rfl, _, rfl, _, others, rfl⟩ := ran
      simp only [List.length_cons] at enough
      have more := others.parameters n (by omega)
      have other := binds.notBracket
      obtain ⟨kind, word⟩ := binds
      obtain ⟨comma | comma, spelled⟩ := comma <;>
        simp [readMoreParameters, kind, word, other, run_take _ isName, comma, spelled, more]
  | parametersDefault binds isName colon =>
      simp only [Ran] at ran
      obtain ⟨_, rfl, _, rfl, _, rfl, left, value, _, others, rfl⟩ := ran
      have shorter := value.le
      have shortest := others.le
      simp only [List.length_cons, List.length_tail] at enough shortest
      have read := value.expression n (by omega)
      have more := others.parameters n (by rw [List.length_tail]; omega)
      have other := binds.notBracket
      obtain ⟨kind, word⟩ := binds
      obtain ⟨colon | colon, spelled⟩ := colon <;>
        simp [readMoreParameters, kind, word, other, run_take _ isName, colon, spelled, read, more]

theorem run_conditional {e : Expr} (production : Production .conditional e symbols)
    (ran : Ran symbols tokens rest) (enough : 8 * tokens.length ≤ 8 * rest.length + n) :
    (readConditional (n + 1)).run tokens = (.ok e, rest) := by
  cases production with
  | otherwise word =>
      simp only [Ran] at ran
      obtain ⟨_, rfl, _, block, rfl⟩ := ran
      rw [List.length_cons] at enough
      simp [readConditional, word, block.block n (by omega)]
  | lastBranch word opens closes =>
      simp only [Symbol.endOr, Ran] at ran
      obtain ⟨_, rfl, _, rfl, _, condition, _, rfl, left, block, stops, rfl⟩ := ran
      have bound := (dropNewlines_suffix none left).length_le
      have shorter := condition.le
      have shortest := block.le
      simp only [List.length_cons] at enough shorter
      have read := condition.expression n (by rw [List.length_cons]; omega)
      have body := block.block n (by omega)
      cases dropped : dropNewlines none left with
      | nil =>
          simp [readConditional, word, run_take _ opens, read, run_take _ closes, body, dropped]
      | cons t after =>
          have other : ¬ (t.kind = some .keyword ∧ (t.value = "elseif" ∨ t.value = "else")) :=
            stops t (by rw [dropped]; rfl)
          simp [readConditional, word, run_take _ opens, read, run_take _ closes, body, dropped, other]
  | branch word opens closes =>
      simp only [ran_ahead, Ran] at ran
      obtain ⟨_, rfl, _, rfl, _, condition, _, rfl, left, block, t, after, dropped, branches, _, others,
        rfl⟩ := ran
      have bound := (dropNewlines_suffix none left).length_le
      have shorter := condition.le
      have shortest := block.le
      have last := others.le
      simp only [List.length_cons] at enough shorter
      have read := condition.expression n (by rw [List.length_cons]; omega)
      have body := block.block n (by omega)
      have more := others.conditional n (by omega)
      rw [dropped] at more
      obtain ⟨kind, words⟩ := branches
      rw [readConditional]
      simp [word, run_take _ opens, read, run_take _ closes, body, dropped, kind, words, more]

theorem run_block {body : List Expr} (production : Production .block body symbols)
    (ran : Ran symbols tokens rest) (enough : 8 * tokens.length + 3 ≤ 8 * rest.length + n) :
    (readBlock (n + 1)).run tokens = (.ok body, rest) := by
  cases production with
  | braced opens =>
      simp only [Ran] at ran
      obtain ⟨left, rfl, _, statements, rfl⟩ := ran
      have bound := (dropNewlines_suffix none left).length_le
      rw [List.length_cons] at enough
      simp [readBlock, opens.2, run_take _ opens.1, statements.statements n (by omega)]
  | single =>
      simp only [ran_ahead, Ran] at ran
      obtain ⟨t, left, rfl, other, _, _, dropped, newline, _, statement, rfl⟩ := ran
      have bound := (dropNewlines_suffix (some 1) (t :: left)).length_le
      have read := statement.statement n (by omega)
      rw [dropped] at read
      simp [readBlock, other, dropped, newline, read]

theorem run_statements {body : List Expr} (production : Production .statements body symbols)
    (ran : Ran symbols tokens rest) (enough : 8 * tokens.length + 3 ≤ 8 * rest.length + n) :
    (readStatements (n + 1)).run tokens = (.ok body, rest) := by
  cases production with
  | statementsEnd closes =>
      simp only [Ran] at ran
      obtain ⟨_, rfl, rfl⟩ := ran
      exact readStatements_close closes
  | statementsMore =>
      simp only [ran_ahead, Ran] at ran
      obtain ⟨_, _, rfl, other, left, statement, _, others, rfl⟩ := ran
      have bound := (dropNewlines_suffix none left).length_le
      have shorter := statement.lt trivial
      have shortest := others.le
      rw [List.length_cons] at enough
      have read := statement.statement n (by rw [List.length_cons]; omega)
      simp [readStatements, other, read, others.statements n (by omega)]

theorem Derives.ran (derives : Derives symbols tokens rest) : Ran symbols tokens rest := by
  induction derives with
  | nil => exact rfl
  | token others ih => exact ⟨_, rfl, ih⟩
  | look seen others ih => exact ⟨seen, ih⟩
  | newlines others ih => exact ih
  | skip others ih => exact ih
  | @part f a inner symbols tokens left rest production first others ran ih =>
      refine ⟨left, ⟨production.reads first, ?_⟩, ih⟩
      intro fuel enough
      have bound := first.suffix.length_le
      obtain ⟨n, rfl⟩ : ∃ n, fuel = n + 1 := ⟨fuel - 1, by have := f.rank_pos; omega⟩
      cases f with
      | path name parents => exact run_path production ran (Nat.le_of_succ_le_succ enough)
      | entries before => exact run_entries production ran (Nat.le_of_succ_le_succ enough)
      | entry => exact run_entry production ran (Nat.le_of_succ_le_succ enough)
      | statement => exact run_statement production ran (Nat.le_of_succ_le_succ enough)
      | expression least => exact run_expression production ran (Nat.le_of_succ_le_succ enough)
      | operators least l => exact run_operators production ran (Nat.le_of_succ_le_succ enough)
      | operand => exact run_operand production ran (Nat.le_of_succ_le_succ enough)
      | usage name => exact run_usage production ran (Nat.le_of_succ_le_succ enough)
      | assignment binding name => exact run_assignment production ran (Nat.le_of_succ_le_succ enough)
      | arguments => exact run_moreArguments production ran (Nat.le_of_succ_le_succ enough)
      | parameters => exact run_moreParameters production ran (Nat.le_of_succ_le_succ enough)
      | conditional => exact run_conditional production ran (Nat.le_of_succ_le_succ enough)
      | block => exact run_block production ran (Nat.le_of_succ_le_succ enough)
      | statements => exact run_statements production ran (Nat.le_of_succ_le_succ enough)

/-- Whatever can be derived is read, with fuel in proportion to the tokens. -/
theorem run_of_reads {f : Form} {a : f.Result} (reads : Reads f tokens a rest) {fuel : Nat}
    (enough : 8 * tokens.length + f.rank ≤ 8 * rest.length + fuel) :
    (f.read fuel).run tokens = (.ok a, rest) := by
  obtain ⟨_, runs, rfl⟩ := reads.ran
  exact runs.run fuel enough

end Completeness

/-- Statements are read one after another, newlines between them skipped. -/
inductive Sequence : List Token → List Expr → List Token → Prop
  | nil {tokens : List Token} : Sequence tokens [] tokens
  | newline {t : Token} {tokens rest : List Token} {program : List Expr}
      (kind : t.kind = some .newline) (others : Sequence tokens program rest) :
      Sequence (t :: tokens) program rest
  | statement {t : Token} {tokens left rest : List Token} {e : Expr} {program : List Expr}
      (kind : t.kind ≠ some .newline) (first : Reads .statement (t :: tokens) e left)
      (others : Sequence left program rest) : Sequence (t :: tokens) (e :: program) rest

/-- A statement that is read up to its newline is the first of a sequence. -/
theorem Sequence.line {fuel : Nat} {t newline : Token} {tokens left rest : List Token} {e : Expr}
    {program : List Expr} (other : t.kind ≠ some .newline) (breaks : Breaks newline)
    (statement : ReadsTo (readTop fuel) (t :: tokens) e newline left)
    (others : Sequence left program rest) : Sequence (t :: tokens) (e :: program) rest := by
  rcases statement with read | read
  · exact .statement other (reads_of_run (f := .statement) read) others
  · exact .statement other (reads_of_run (f := .statement) read) (.newline breaks.1 others)

theorem sequence_of_run {fuel : Nat} {tokens rest : List Token} {program : List Expr}
    (read : (readProgram fuel).run tokens = (.ok program, rest)) : Sequence tokens program [] := by
  induction fuel generalizing tokens program with
  | zero => simp [readProgram] at read
  | succ n ih =>
      cases tokens with
      | nil =>
          obtain ⟨rfl, rfl⟩ : [] = program ∧ [] = rest := by simpa [readProgram] using read
          exact .nil
      | cons t tokens =>
          by_cases newline : t.kind = some .newline
          · exact .newline newline (ih (by simpa [readProgram, newline] using read))
          · obtain ⟨e, left, first, more, others, rfl⟩ : ∃ e left,
                (fuelled readTop).run (t :: tokens) = (.ok e, left) ∧ ∃ more,
                  (readProgram n).run left = (.ok more, rest) ∧ e :: more = program := by
              simpa [readProgram, newline, -run_bind, run_bind_ok, -run_map, run_map_ok, -run_fuelled]
                using read
            rw [run_fuelled] at first
            exact .statement newline (@reads_of_run (fuelFor (t :: tokens)) .statement _ _ _ first)
              (ih others)

theorem Sequence.run {fuel : Nat} {tokens rest : List Token} {program : List Expr}
    (sequence : Sequence tokens program rest) (whole : rest = []) (enough : tokens.length < fuel) :
    (readProgram fuel).run tokens = (.ok program, []) := by
  obtain ⟨n, rfl⟩ : ∃ n, fuel = n + 1 := ⟨fuel - 1, by omega⟩
  induction sequence generalizing n with
  | nil =>
      subst whole
      simp [readProgram]
  | newline kind others ih =>
      rw [List.length_cons] at enough
      obtain ⟨m, rfl⟩ : ∃ m, n = m + 1 := ⟨n - 1, by omega⟩
      have read := ih whole m (by omega)
      rw [readProgram]
      simp [kind, read]
  | @statement t tokens left rest e program kind first others ih =>
      have shorter := first.shorter (.inl trivial) (by simp)
      rw [List.length_cons] at enough shorter
      obtain ⟨m, rfl⟩ : ∃ m, n = m + 1 := ⟨n - 1, by omega⟩
      have statement : (fuelled readTop).run (t :: tokens) = (.ok e, left) := by
        rw [run_fuelled]
        exact @run_of_reads _ _ .statement _ first (fuelFor (t :: tokens))
          (by simp only [Form.rank, fuelFor]; omega)
      have read := ih whole m (by omega)
      rw [readProgram]
      simp [kind, statement, read, -run_fuelled]

theorem ofTokens_ok_iff {tokens : List Token} {program : List Expr} :
    Expr.ofTokens tokens = .ok program ↔ Sequence tokens program [] := by
  constructor
  · intro read
    exact sequence_of_run (Prod.ext read rfl)
  · intro sequence
    rw [Expr.ofTokens, sequence.run rfl (by unfold fuelFor; omega)]

end Scriptlet.Reading
