import Scriptlet.Proofs.Expr.Fuel
import Scriptlet.Proofs.Source.Program

set_option autoImplicit false

/-!
The text of a program is read back as that program. Tokens that spell a statement are read as its
expression, whatever follows its newline, as long as that is no operator and no `else`. No statement
begins with either, so that the statements of a program are read one after another.
-/

namespace Scriptlet.Source

open Reading

theorem readExpr_term (t : Term) {fuel : Nat} {after : Token} {tokens : List Token} (rest : List Token)
    (spelled : Token.Spelled tokens t.words) (ends : Ends after)
    (enough : 8 * tokens.length + 2 ≤ fuel) :
    (readExpr fuel 0).run (tokens ++ after :: rest) = (.ok t.expr, after :: rest) :=
  readExpr_sentence (grammatical t tokens spelled).1 fuel (after :: rest) enough
    (parted_of_ends _ _ ends) (loose_of_ends _ _ ends)

theorem readAssignment_content (content : Content) (binding : Option String) (name : String)
    {fuel : Nat} {newline : Token} {tokens : List Token} (rest : List Token)
    (spelled : Token.Spelled tokens content.words) (breaks : Breaks newline)
    (enough : 8 * tokens.length + 3 ≤ fuel) :
    (readAssignment fuel binding name).run (tokens ++ newline :: rest) =
      (.ok (.assign binding name content.expr), rest) := by
  obtain ⟨n, rfl⟩ : ∃ n, fuel = n + 3 := ⟨fuel - 3, by omega⟩
  have ends := ends_of_breaks breaks
  cases content with
  | nothing =>
      obtain rfl := Token.spelled_nil.mp spelled
      exact readAssignment_nothing binding name breaks
  | term t =>
      have read := readExpr_term t rest spelled ends (by omega : _ ≤ n + 2)
      obtain ⟨first, others, rfl, -, kinds⟩ := term_first t spelled
      refine readAssignment_value binding name breaks ⟨?_, ?_, ?_, ?_⟩ read
      all_goals exact fun kind => by simpa [operandKinds] using kinds _ kind
  | object entries =>
      simp only [Content.words, Token.spelled_cons, Token.spelled_append, Token.spelled_nil] at spelled
      obtain ⟨first, -, rfl, opens, inside, -, rfl, spelled, last, -, rfl, closes, rfl⟩ := spelled
      have read : (readExpr (n + 2) 0).run (first :: (inside ++ last :: newline :: rest)) =
          (.ok (.datum (.obj entries.list)), newline :: rest) := by
        rw [readExpr_primary (readPrimary_object entries opens spelled closes)]
        exact readOperators_stop _ (by omega) (by omega) (loose_of_ends (-1) rest ends)
      rw [List.cons_append, List.append_assoc, List.singleton_append]
      refine readAssignment_value binding name breaks ?_ read
      simp [opens.1]

theorem Binding.binds (binding : Binding) {t : Token} (spells : t.Spells ⟨.keyword, binding.keyword⟩) :
    Binds t := by
  obtain ⟨kind, value⟩ := spells
  refine ⟨kind, ?_⟩
  rw [value]
  cases binding <;> simp [keyword]

/-- One parameter is read. After a default the token that follows is taken with it. -/
theorem readMoreParameters_param (p : Param) {n : Nat} {after : Token} {tokens more rest : List Token}
    {params : List Parameter} (spelled : Token.Spelled tokens p.words)
    (follows : Closes after ∨ after.kind = some .comma ∧ after.value = ",")
    (enough : 8 * tokens.length ≤ n)
    (closed : Closes after → (readMoreParameters n).run (after :: more) = (.ok params, rest))
    (others : (readMoreParameters n).run more = (.ok params, rest)) :
    (readMoreParameters (n + 1)).run (tokens ++ after :: more) =
      (.ok (p.parameter :: params), rest) := by
  obtain ⟨binding, name, default⟩ := p
  simp only [Param.words, Token.spelled_cons] at spelled
  obtain ⟨t, -, rfl, spells, t', back, rfl, named, spelled⟩ := spelled
  have binds := binding.binds spells
  have parameter : Param.parameter ⟨binding, name, default⟩ =
      .mk t'.value (some t.value) (termOrMissing default) := by
    rw [spells.2, named.2]
    rfl
  rw [parameter]
  cases default with
  | none =>
      obtain rfl := Token.spelled_nil.mp spelled
      rcases follows with closes | separates
      · exact readMoreParameters_last binds named.1 closes (closed closes)
      · exact readMoreParameters_plain binds named.1 separates others
  | some d =>
      simp only [Token.spelled_cons] at spelled
      obtain ⟨colon, inside, rfl, colons, spelled⟩ := spelled
      simp only [List.length_cons] at enough
      have ends : Ends after := by
        rcases follows with closes | separates
        · exact ends_of_closes closes
        · exact ends_of_separates (Or.inl separates)
      exact readMoreParameters_default binds named.1 colons
        (readExpr_term d more spelled ends (by omega)) others

theorem readMoreParameters_params (params : List Param) {fuel : Nat} {brace : Token}
    {tokens : List Token} (rest : List Token) (spelled : Token.Spelled tokens (paramWords params))
    (isBrace : brace.value = "\x7b") (enough : 8 * tokens.length ≤ fuel) :
    (readMoreParameters fuel).run (tokens ++ brace :: rest) =
      (.ok (params.map Param.parameter), brace :: rest) := by
  induction params using paramWords.induct generalizing fuel tokens with
  | case1 =>
      simp only [paramWords, Token.spelled_cons, Token.spelled_nil] at spelled
      obtain ⟨close, -, rfl, closes, rfl⟩ := spelled
      simp only [List.length_cons] at enough
      obtain ⟨n, rfl⟩ : ∃ n, fuel = n + 1 := ⟨fuel - 1, by omega⟩
      exact readMoreParameters_close closes
  | case2 p =>
      simp only [paramWords, Token.spelled_append, Token.spelled_cons, Token.spelled_nil] at spelled
      obtain ⟨front, -, rfl, spelled, close, -, rfl, closes, rfl⟩ := spelled
      simp only [List.length_append, List.length_cons] at enough
      obtain ⟨n, rfl⟩ : ∃ n, fuel = n + 2 := ⟨fuel - 2, by omega⟩
      -- a default takes the closing bracket with it, and then the brace ends the parameters
      rw [List.append_assoc]
      exact readMoreParameters_param p spelled (Or.inl closes) (by omega)
        (fun _ => readMoreParameters_close closes) (readMoreParameters_brace isBrace)
  | case3 p q others ih =>
      simp only [paramWords, Token.spelled_append, Token.spelled_cons] at spelled
      obtain ⟨front, -, rfl, spelled, comma, back, rfl, separates, spelledOthers⟩ := spelled
      simp only [List.length_append, List.length_cons] at enough
      obtain ⟨n, rfl⟩ : ∃ n, fuel = n + 1 := ⟨fuel - 1, by omega⟩
      have notClosing : ¬ Closes comma := by
        rintro ⟨kind, -⟩
        cases kind.symm.trans separates.1
      rw [List.append_assoc]
      exact readMoreParameters_param p spelled (Or.inr separates) (by omega)
        (fun closes => absurd closes notClosing) (ih spelledOthers (by omega))

/-- A word that a statement begins with. -/
def Starts (w : Word) : Prop :=
  w.kind ∈ .keyword :: operandKinds ∧ w.value ≠ "\x7d" ∧
    ¬ (w.kind = .keyword ∧ (w.value = "elseif" ∨ w.value = "else"))

theorem starts_of_begins {w : Word} (begins : Begins w) : Starts w := by
  obtain ⟨kind, -, notBrace⟩ := begins
  refine ⟨List.mem_cons_of_mem _ kind, notBrace, fun keyword => ?_⟩
  simp [keyword.1, operandKinds] at kind

theorem statement_starts (s : Statement) : ∃ w rest, s.words = w :: rest ∧ Starts w := by
  cases s with
  | expression t =>
      obtain ⟨w, rest, same, begins⟩ := operand_begins t
      exact ⟨w, rest, same, starts_of_begins begins⟩
  | define binding name content =>
      refine ⟨_, _, rfl, ?_⟩
      cases binding <;> simp [Starts, Binding.keyword]
  | assign name content => exact ⟨_, _, rfl, starts_of_begins name.begins⟩
  | ret value => cases value <;> exact ⟨_, _, rfl, by simp [Starts]⟩
  | function name params body => exact ⟨_, _, rfl, by simp [Starts]⟩
  | conditional condition body chain => exact ⟨_, _, rfl, by simp [Starts]⟩

/-- The first token of a statement. -/
theorem statement_first (s : Statement) {tokens : List Token}
    (spelled : Token.Spelled tokens s.words) : ∃ first others, tokens = first :: others ∧
      first.value ≠ "\x7d" ∧ ∀ rest, Apart (first :: rest) := by
  obtain ⟨w, others, same, kinds, notBrace, notElse⟩ := statement_starts s
  rw [same, Token.spelled_cons] at spelled
  obtain ⟨first, others, rfl, ⟨kind, value⟩, -⟩ := spelled
  have other : ∀ k, k ∉ TokenKind.keyword :: operandKinds → first.kind ≠ some k := by
    rintro k outside same
    rw [kind] at same
    exact outside (Option.some.inj same ▸ kinds)
  refine ⟨first, others, rfl, by rw [value]; exact notBrace, fun rest => ⟨?_, ?_⟩⟩
  · intro t isFirst
    obtain rfl : first = t := by simpa using isFirst
    refine ⟨other _ (by decide), fun isElse => notElse ?_⟩
    rw [kind, value] at isElse
    exact ⟨Option.some.inj isElse.1, isElse.2⟩
  · intro t isFirst
    obtain rfl : first = t := by simpa using isFirst
    exact ⟨other _ (by decide), fun operator => absurd operator (other _ (by decide))⟩

theorem apart_block (b : Block) {tokens rest : List Token} (spelled : Token.Spelled tokens b.words)
    (apart : Apart rest) : Apart (tokens ++ rest) := by
  cases b with
  | nil =>
      obtain rfl := Token.spelled_nil.mp spelled
      exact apart
  | cons s others =>
      simp only [Block.words, Token.spelled_append] at spelled
      obtain ⟨front, back, rfl, spelled, -⟩ := spelled
      obtain ⟨first, more, rfl, -, starts⟩ := statement_first s spelled
      exact starts _

theorem apart_brace {t : Token} (closes : t.Spells ⟨.rbrace, "\x7d"⟩) (rest : List Token) :
    Apart (t :: rest) := by
  simp [Apart, Follows, Loose, closes.1]

def Statement.Reassigns : Statement → Prop
  | .assign _ _ => True
  | _ => False

/-- Tokens that spell the statement are read as its expression. -/
def ReadsStatement (s : Statement) : Prop :=
  ∀ (fuel : Nat) (tokens : List Token) (newline : Token) (rest : List Token),
    Token.Spelled tokens s.words → Breaks newline → Follows rest → (s.Reassigns → Loose (-1) rest) →
    8 * (tokens.length + 1) ≤ fuel →
    ReadsTo (readTop fuel) (tokens ++ newline :: rest) s.expr newline rest

/-- Tokens that spell the statements are read up to and with the closing brace. -/
def ReadsBlock (b : Block) : Prop :=
  ∀ (fuel : Nat) (tokens : List Token) (close : Token) (rest : List Token),
    Token.Spelled tokens b.words → close.Spells ⟨.rbrace, "\x7d"⟩ →
    8 * (tokens.length + 1) ≤ fuel →
    (readStatements fuel).run (tokens ++ close :: rest) = (.ok b.exprs, rest)

/-- Tokens that spell the chain continue a conditional before them. -/
def ReadsChain (c : Chain) : Prop :=
  ∀ (fuel : Nat) (tokens : List Token) (newline : Token) (rest : List Token),
    Token.Spelled tokens c.words → Breaks newline → Follows rest → 8 * (tokens.length + 1) ≤ fuel →
    ∃ left, Continues fuel c.exprs (tokens ++ newline :: rest) left ∧
      (left = rest ∨ left = newline :: rest)

theorem readBlock_block {b : Block} (reads : ReadsBlock b) {fuel : Nat} {tokens rest : List Token}
    (spelled : Token.Spelled tokens (braced b.words)) (enough : 8 * tokens.length ≤ fuel) :
    (readBlock fuel).run (tokens ++ rest) = (.ok b.exprs, rest) := by
  simp only [braced, Token.spelled_cons, Token.spelled_append, Token.spelled_nil] at spelled
  obtain ⟨first, -, rfl, opens, newline, -, rfl, breaks, inside, -, rfl, spelled, last, -, rfl, closes,
    rfl⟩ := spelled
  simp only [List.length_cons, List.length_append, List.length_nil] at enough
  obtain ⟨n, rfl⟩ : ∃ n, fuel = n + 1 := ⟨fuel - 1, by omega⟩
  have undelayed := dropNewlines_follows (apart_block b spelled (apart_brace closes rest)).1
  rw [List.cons_append, List.cons_append, List.append_assoc, List.singleton_append]
  exact readBlock_braced opens breaks undelayed
    (reads n inside last rest spelled closes (by omega))

theorem readConditional_chain {b : Block} {c : Chain} (block : ReadsBlock b) (chain : ReadsChain c)
    (condition : Term) {fuel : Nat} {t newline : Token} {tokens rest : List Token}
    (word : t.value ≠ "else") (breaks : Breaks newline) (follows : Follows rest)
    (spelled : Token.Spelled tokens (branchWords condition (braced b.words) ++ c.words))
    (enough : 8 * (tokens.length + 1) ≤ fuel) :
    ReadsTo (readConditional fuel) (t :: (tokens ++ newline :: rest))
      (.conditional t.value condition.expr b.exprs (some c.exprs)) newline rest := by
  simp only [branchWords, List.cons_append, List.append_assoc, Token.spelled_cons,
    Token.spelled_append] at spelled
  obtain ⟨opening, -, rfl, opens, front, -, rfl, spelled, close, -, rfl, closes, middle, back, rfl,
    spelledBlock, spelledChain⟩ := spelled
  simp only [List.length_cons, List.length_append] at enough
  obtain ⟨n, rfl⟩ : ∃ n, fuel = n + 1 := ⟨fuel - 1, by omega⟩
  have read := readExpr_term condition (middle ++ (back ++ newline :: rest)) spelled
    (ends_of_closes closes) (by omega : _ ≤ n)
  have statements : (readBlock n).run (middle ++ (back ++ newline :: rest)) =
      (.ok b.exprs, back ++ newline :: rest) := readBlock_block block spelledBlock (by omega)
  obtain ⟨left, continues, up⟩ := chain n back newline rest spelledChain breaks follows (by omega)
  have conditional := readConditional_branch word opens closes read statements continues
  simp only [List.cons_append, List.append_assoc]
  rcases up with rfl | rfl
  · exact Or.inl conditional
  · exact Or.inr conditional

theorem readsStatement_expression (t : Term) : ReadsStatement (.expression t) := by
  intro fuel tokens newline rest spelled breaks _ _ enough
  obtain ⟨n, rfl⟩ : ∃ n, fuel = n + 1 := ⟨fuel - 1, by omega⟩
  have operand := operand_of_grammatical (grammatical t) spelled
  have ends := ends_of_breaks breaks
  have read := readExpr_sentence (.phrase (.operand operand)) n (newline :: rest) (by omega)
    (parted_of_ends _ _ ends) (loose_of_ends _ _ ends)
  obtain ⟨w, others, same, begins⟩ := operand_begins t
  rw [Statement.words, same, Token.spelled_cons] at spelled
  obtain ⟨first, more, rfl, ⟨kind, -⟩, -⟩ := spelled
  have notKeyword : first.kind ≠ some .keyword := by
    intro keyword
    have same : w.kind = .keyword := Option.some.inj (kind.symm.trans keyword)
    simp [Begins, operandKinds, same] at begins
  right
  rw [List.cons_append, readTop_expression notKeyword]
  exact read

theorem readsStatement_define (binding : Binding) (name : Name) (content : Content) :
    ReadsStatement (.define binding name content) := by
  intro fuel tokens newline rest spelled breaks _ _ enough
  simp only [Statement.words, Token.spelled_cons] at spelled
  obtain ⟨t, -, rfl, spells, t', -, rfl, named, equals, inside, rfl, isEquals, spelled⟩ := spelled
  simp only [List.length_cons] at enough
  obtain ⟨n, rfl⟩ : ∃ n, fuel = n + 1 := ⟨fuel - 1, by omega⟩
  have binds := binding.binds spells
  have expr : (Statement.define binding name content).expr =
      .assign (some t.value) t'.value content.expr := by
    rw [spells.2, named.2]
    rfl
  left
  rw [expr, List.cons_append, List.cons_append, List.cons_append,
    readTop_define binds.1 binds.2 named.1 isEquals]
  exact readAssignment_content content (some t.value) t'.value rest spelled breaks (by omega)

theorem readsStatement_assign (name : Name) (content : Content) :
    ReadsStatement (.assign name content) := by
  intro fuel tokens newline rest spelled breaks _ loose enough
  simp only [Statement.words, Token.spelled_cons] at spelled
  obtain ⟨t, -, rfl, named, equals, inside, rfl, isEquals, spelled⟩ := spelled
  simp only [List.length_cons] at enough
  obtain ⟨n, rfl⟩ : ∃ n, fuel = n + 4 := ⟨fuel - 4, by omega⟩
  have expr : (Statement.assign name content).expr = .assign none t.value content.expr := by
    rw [named.2]
    rfl
  have notKeyword : t.kind ≠ some .keyword := by
    rw [named.1]
    simp [Name.word]
  have read := readAssignment_content content none t.value rest spelled breaks (by omega : _ ≤ n)
  -- the newline is taken with the value, so the reader looks for operators after it
  left
  rw [expr, List.cons_append, List.cons_append, readTop_expression notKeyword,
    readExpr_primary (readPrimary_assign named.1 (name.plain named) isEquals.2 read)]
  exact readOperators_stop _ (by omega) (by omega) (loose trivial)

/-- A return is read with its value, up to what ends that. -/
theorem readTop_returned (v : Term) {fuel : Nat} {after : Token} {tokens : List Token}
    (rest : List Token) (spelled : Token.Spelled tokens (Statement.ret (some v)).words)
    (ends : Ends after) (enough : 8 * tokens.length ≤ fuel) :
    (readTop fuel).run (tokens ++ after :: rest) = (.ok (.ret v.expr), after :: rest) := by
  simp only [Statement.words, Token.spelled_cons] at spelled
  obtain ⟨t, inside, rfl, ⟨kind, word⟩, spelled⟩ := spelled
  rw [List.length_cons] at enough
  obtain ⟨n, rfl⟩ : ∃ n, fuel = n + 2 := ⟨fuel - 2, by omega⟩
  have read := readExpr_term v rest spelled ends (by omega : _ ≤ n)
  obtain ⟨first, others, rfl, -, kinds⟩ := term_first v spelled
  rw [List.cons_append, readTop_return kind word]
  refine readReturn_value ⟨?_, ?_⟩ read
  all_goals exact fun kind => by simpa [operandKinds] using kinds _ kind

theorem readsStatement_return (value : Option Term) : ReadsStatement (.ret value) := by
  intro fuel tokens newline rest spelled breaks _ _ enough
  right
  cases value with
  | none =>
      obtain ⟨n, rfl⟩ : ∃ n, fuel = n + 2 := ⟨fuel - 2, by omega⟩
      simp only [Statement.words, Token.spelled_cons, Token.spelled_nil] at spelled
      obtain ⟨t, -, rfl, ⟨kind, word⟩, rfl⟩ := spelled
      rw [List.singleton_append, readTop_return kind word]
      exact readReturn_nothing breaks
  | some v => exact readTop_returned v rest spelled (ends_of_breaks breaks) (by omega)

theorem readsStatement_function {b : Block} (block : ReadsBlock b) (name : Name) (params : List Param) :
    ReadsStatement (.function name params b) := by
  intro fuel tokens newline rest spelled breaks _ _ enough
  simp only [Statement.words, Token.spelled_cons, Token.spelled_append] at spelled
  obtain ⟨t, -, rfl, ⟨kind, word⟩, t', -, rfl, named, opening, -, rfl, opens, front, back, rfl,
    spelledParams, spelledBlock⟩ := spelled
  simp only [List.length_cons, List.length_append] at enough
  obtain ⟨n, rfl⟩ : ∃ n, fuel = n + 3 := ⟨fuel - 3, by omega⟩
  have body : (readBlock (n + 1)).run (back ++ newline :: rest) = (.ok b.exprs, newline :: rest) :=
    readBlock_block block spelledBlock (by omega)
  have expr : (Statement.function name params b).expr =
      .define t'.value (params.map Param.parameter) b.exprs := by
    rw [named.2]
    rfl
  obtain ⟨brace, inside, rfl, isBrace, -⟩ := Token.spelled_cons.mp spelledBlock
  have parameters := readMoreParameters_params params (inside ++ newline :: rest) spelledParams isBrace.2
    (by omega : _ ≤ n)
  right
  rw [expr]
  simp only [List.cons_append, List.append_assoc]
  exact readTop_function kind word named.1 opens parameters body

theorem dropNewlines_lineBreak (nextLine : Bool) {tokens : List Token} {t : Token} (rest : List Token)
    (spelled : Token.Spelled tokens (lineBreak nextLine)) (other : t.kind ≠ some .newline) :
    dropNewlines none (tokens ++ t :: rest) = t :: rest := by
  cases nextLine with
  | false =>
      obtain rfl := Token.spelled_nil.mp spelled
      exact dropNewlines_cons rest none other
  | true =>
      obtain ⟨newline, others, rfl, breaks, nothing⟩ := Token.spelled_cons.mp spelled
      obtain rfl := Token.spelled_nil.mp nothing
      simp [dropNewlines, breaks.1, newlineWord, other]

mutual

theorem readsStatement : (s : Statement) → ReadsStatement s
  | .expression t => readsStatement_expression t
  | .define binding name content => readsStatement_define binding name content
  | .assign name content => readsStatement_assign name content
  | .ret value => readsStatement_return value
  | .function name params body => readsStatement_function (readsBlock body) name params
  | .conditional condition body chain => by
      intro fuel tokens newline rest spelled breaks follows _ enough
      obtain ⟨t, inside, rfl, ⟨kind, word⟩, spelled⟩ := Token.spelled_cons.mp spelled
      simp only [List.length_cons] at enough
      obtain ⟨n, rfl⟩ : ∃ n, fuel = n + 1 := ⟨fuel - 1, by omega⟩
      have notElse : t.value ≠ "else" := by simp [word]
      have read := readConditional_chain (readsBlock body) (readsChain chain) condition notElse breaks
        follows spelled (by omega : _ ≤ n)
      rw [word] at read
      unfold ReadsTo
      rw [List.cons_append, readTop_conditional kind word]
      exact read

theorem readsBlock : (b : Block) → ReadsBlock b
  | .nil => by
      intro fuel tokens close rest spelled closes enough
      obtain rfl := Token.spelled_nil.mp spelled
      obtain ⟨n, rfl⟩ : ∃ n, fuel = n + 1 := ⟨fuel - 1, by omega⟩
      exact readStatements_close closes.2
  | .cons s others => by
      intro fuel tokens close rest spelled closes enough
      simp only [Block.words, Token.spelled_append, Token.spelled_cons] at spelled
      obtain ⟨front, -, rfl, spelled, newline, back, rfl, breaks, spelledOthers⟩ := spelled
      simp only [List.length_append, List.length_cons] at enough
      obtain ⟨n, rfl⟩ : ∃ n, fuel = n + 1 := ⟨fuel - 1, by omega⟩
      obtain ⟨follows, loose⟩ := apart_block others spelledOthers (apart_brace closes rest)
      have statement := readsStatement s n front newline _ spelled breaks follows (fun _ => loose)
        (by omega)
      have further := readsBlock others n back close rest spelledOthers closes (by omega)
      obtain ⟨first, more, rfl, notBrace, -⟩ := statement_first s spelled
      rw [List.append_assoc]
      exact readStatements_more notBrace breaks follows statement further

theorem readsChain : (c : Chain) → ReadsChain c
  | .none => by
      intro fuel tokens newline rest spelled breaks follows enough
      obtain rfl := Token.spelled_nil.mp spelled
      -- the newline is gone when the reader sees that nothing continues the conditional
      exact ⟨rest, Or.inl ⟨rfl, follows, dropNewlines_break breaks follows⟩, Or.inl rfl⟩
  | .elseif nextLine condition body chain => by
      intro fuel tokens newline rest spelled breaks follows enough
      obtain ⟨front, back, rfl, spelledBreak, spelled⟩ := Token.spelled_append.mp spelled
      obtain ⟨t, inside, rfl, ⟨kind, word⟩, spelled⟩ := Token.spelled_cons.mp spelled
      simp only [List.length_append, List.length_cons] at enough
      have notElse : t.value ≠ "else" := by simp [word]
      have dropped := dropNewlines_lineBreak nextLine (inside ++ newline :: rest) spelledBreak
        (by simp [kind] : t.kind ≠ some .newline)
      have read := readConditional_chain (readsBlock body) (readsChain chain) condition notElse breaks
        follows spelled (by omega : _ ≤ fuel)
      rw [word] at read
      rw [List.append_assoc, List.cons_append]
      rcases read with read | read
      · exact ⟨rest, Or.inr ⟨t, _, _, rfl, dropped, kind, Or.inl word, read⟩, Or.inl rfl⟩
      · exact ⟨newline :: rest, Or.inr ⟨t, _, _, rfl, dropped, kind, Or.inl word, read⟩, Or.inr rfl⟩
  | .otherwise nextLine body => by
      intro fuel tokens newline rest spelled breaks follows enough
      obtain ⟨front, back, rfl, spelledBreak, spelled⟩ := Token.spelled_append.mp spelled
      obtain ⟨t, inside, rfl, ⟨kind, word⟩, spelled⟩ := Token.spelled_cons.mp spelled
      simp only [List.length_append, List.length_cons] at enough
      obtain ⟨n, rfl⟩ : ∃ n, fuel = n + 1 := ⟨fuel - 1, by omega⟩
      have dropped := dropNewlines_lineBreak nextLine (inside ++ newline :: rest) spelledBreak
        (by simp [kind] : t.kind ≠ some .newline)
      have block : (readBlock n).run (inside ++ newline :: rest) = (.ok body.exprs, newline :: rest) :=
        readBlock_block (readsBlock body) spelled (by omega)
      rw [List.append_assoc, List.cons_append]
      refine ⟨newline :: rest, Or.inr ⟨t, _, _, rfl, dropped, kind, Or.inr word, ?_⟩, Or.inr rfl⟩
      exact readConditional_else word block

end

/-- The last statement is a reassignment, which takes the newline after it. -/
def Block.EndsReassigning (b : Block) : Prop := ∃ name v, b.exprs.getLast? = some (.assign none name v)

/-- Tokens that spell a program are read as its statements, whatever follows them. -/
theorem sequence_block : (b : Block) → ∀ {tokens rest : List Token}, Token.Spelled tokens b.words →
    Follows rest → (b.EndsReassigning → Loose (-1) rest) → Sequence (tokens ++ rest) b.exprs rest
  | .nil, tokens, rest, spelled, _, _ => by
      obtain rfl := Token.spelled_nil.mp spelled
      exact .nil
  | .cons s others, tokens, rest, spelled, follows, loose => by
      simp only [Block.words, Token.spelled_append, Token.spelled_cons] at spelled
      obtain ⟨front, -, rfl, spelled, newline, back, rfl, breaks, spelledOthers⟩ := spelled
      have further : Sequence (back ++ rest) others.exprs rest := by
        refine sequence_block others spelledOthers follows fun ⟨name, v, last⟩ => loose ⟨name, v, ?_⟩
        rw [Block.exprs, List.getLast?_cons, last]
        rfl
      -- after the newline there is the next statement or, after the last one, what follows them all
      have next : Follows (back ++ rest) ∧ (s.Reassigns → Loose (-1) (back ++ rest)) := by
        cases others with
        | nil =>
            obtain rfl := Token.spelled_nil.mp spelledOthers
            refine ⟨follows, fun reassigns => loose ?_⟩
            cases s with
            | assign name content => exact ⟨name.text, content.expr, rfl⟩
            | _ => exact reassigns.elim
        | cons s' others' =>
            obtain ⟨front', _, rfl, spelled', -⟩ := Token.spelled_append.mp spelledOthers
            obtain ⟨first, more, rfl, -, starts⟩ := statement_first s' spelled'
            exact ⟨(starts _).1, fun _ => (starts _).2⟩
      have statement := readsStatement s _ front newline (back ++ rest) spelled breaks next.1 next.2
        le_rfl
      obtain ⟨first, more, rfl, -, starts⟩ := statement_first s spelled
      have other : first.kind ≠ some .newline := ((starts []).1 first (by simp)).1
      rw [List.append_assoc]
      exact .line other breaks statement further

theorem ofTokens_block {program : Block} {tokens : List Token}
    (spelled : Token.Spelled tokens program.words) : Expr.ofTokens tokens = .ok program.exprs := by
  have sequence : Sequence (tokens ++ []) program.exprs [] :=
    sequence_block program spelled (by simp [Follows]) fun _ => by simp [Loose]
  rw [List.append_nil] at sequence
  exact ofTokens_ok_iff.mpr sequence

theorem words_end : (b : Block) → ∀ w ∈ b.words.getLast?, w.value ≠ "."
  | .nil => by simp [Block.words]
  | .cons s others => by
      intro w isLast
      rw [Block.words, List.getLast?_append_of_ne_nil _ (by simp)] at isLast
      cases more : others.words with
      | nil =>
          obtain rfl : newlineWord = w := by simpa [more] using isLast
          decide
      | cons v words =>
          refine words_end others w ?_
          rw [more] at isLast ⊢
          simpa [List.getLast?_cons] using isLast

/-- The text of a program is scanned, from any cursor, and read back as that program. -/
theorem text_reads_back (program : Block) (cursor : Cursor) :
    ∃ tokens, (Token.scan program.text cursor).1 = .ok tokens ∧
      Expr.ofTokens tokens = .ok program.exprs := by
  obtain ⟨tokens, scanned, spelled⟩ :=
    Token.scan_textOf program.words cursor (block_wellFormed program) (words_end program)
  exact ⟨tokens, scanned, ofTokens_block spelled⟩

/-- The layout of a program with an object, a call on two lines and a conditional with its `else`. -/
example :
    let x : Name := ⟨"x", by decide⟩
    let one : Term := .number ⟨[1], by simp, by decide⟩
    let key : Label := ⟨⟨.string, "k"⟩, rfl, Or.inl rfl⟩
    let sum : Term :=
      .binary ⟨"+", by decide, by decide⟩ (.sign .minus one) (.after .increment (.name x))
    Block.text (.cons (.define .fixed x (.object (.more key (.object .none) .none)))
      (.cons (.assign x (.term (.call x (.more sum .newline (.last (.truth true))))))
      (.cons (.conditional (.truth false) (.cons (.ret none) .nil)
        (.otherwise false (.cons (.expression sum) .nil))) .nil))) =
      "const x = \x7b \"k\" : \x7b \x7d \x7d\n" ++ "x = x ( ( - 1 ) + ( x ++ )\n" ++ "( true ) )\n" ++
      "if ( ( false ) ) \x7b\n" ++ "return\n" ++ "\x7d else \x7b\n" ++ "( ( - 1 ) + ( x ++ ) )\n" ++
      "\x7d\n" := by
  decide

end Scriptlet.Source
