import Scriptlet.Proofs.Expr.Grammar

set_option autoImplicit false

/-!
How the readers of statements go on from one token to the next. A statement leaves different things
behind: a definition takes the newline after it, a conditional all newlines, any other statement none.
So a statement is said to be read up to the newline that ends it, which may be left or not.
-/

namespace Scriptlet.Reading

/-- What may stand after a statement and the newline that ends it. An `else` would continue a
conditional. -/
def Follows (rest : List Token) : Prop :=
  ∀ t ∈ rest.head?, t.kind ≠ some .newline ∧
    ¬ (t.kind = some .keyword ∧ (t.value = "elseif" ∨ t.value = "else"))

/-- What may also stand after a reassignment, which has taken that newline. An operator would continue
it. -/
def Apart (rest : List Token) : Prop := Follows rest ∧ Loose (-1) rest

def Breaks (t : Token) : Prop := t.kind = some .newline ∧ t.value = "newline"

/-- The statement is read up to the newline that ends it or up to the rest after that newline. -/
def ReadsTo (r : Reading Expr) (tokens : List Token) (e : Expr) (newline : Token)
    (rest : List Token) : Prop :=
  r.run tokens = (.ok e, rest) ∨ r.run tokens = (.ok e, newline :: rest)

section Steps

variable {n : Nat} {t t' newline : Token} {e value : Expr} {tokens rest : List Token}

theorem ends_of_breaks (breaks : Breaks t) : Ends t := by
  simp [Ends, breaks.1, breaks.2]

theorem dropNewlines_follows (follows : Follows rest) : dropNewlines none rest = rest := by
  cases rest with
  | nil => rfl
  | cons t rest => exact dropNewlines_cons rest none (follows t (by simp)).1

theorem dropNewlines_break (breaks : Breaks t) (follows : Follows rest) :
    dropNewlines none (t :: rest) = rest := by
  have dropped : dropNewlines none (t :: rest) = dropNewlines none rest := by
    simp [dropNewlines, breaks.1]
  rw [dropped, dropNewlines_follows follows]

theorem take_separator (breaks : Breaks newline) :
    (takeOneOf separators).run (newline :: rest) = (.ok newline, rest) :=
  run_takeOneOf rest breaks.1 (by decide)

theorem readAssignment_nothing (binding : Option String) (name : String) (breaks : Breaks newline) :
    (readAssignment (n + 1) binding name).run (newline :: rest) =
      (.ok (.assign binding name .missing), rest) := by
  simp [readAssignment, breaks.1, take_separator breaks]

theorem readAssignment_value (binding : Option String) (name : String) (breaks : Breaks newline)
    (starts : t.kind ≠ some .rparen ∧ t.kind ≠ some .newline ∧ t.kind ≠ some .semicolon ∧
      t.kind ≠ some .comma)
    (read : (readExpr n 0).run (t :: tokens) = (.ok e, newline :: rest)) :
    (readAssignment (n + 1) binding name).run (t :: tokens) =
      (.ok (.assign binding name e), rest) := by
  simp [readAssignment, starts, read, breaks.1, take_separator breaks]

theorem readTop_define (kind : t.kind = some .keyword) (word : t.value = "let" ∨ t.value = "const")
    (name : t'.kind = some .identifier) {equals : Token}
    (isEquals : equals.kind = some .operator ∧ equals.value = "=") :
    (readTop (n + 1)).run (t :: t' :: equals :: tokens) =
      (readAssignment n (some t.value) t'.value).run tokens := by
  have notImport : t.value ≠ "import" := by rcases word with h | h <;> simp [h]
  simp [readTop, kind, notImport, word, run_take _ name, isEquals]

theorem readPrimary_assign (name : t.kind = some .identifier) (plain : Plain t)
    (isEquals : t'.value = "=") (read : (readAssignment n none t.value).run tokens = (.ok e, rest)) :
    (readPrimary (n + 2)).run (t :: t' :: tokens) = (.ok e, rest) := by
  obtain ⟨unary, opens, braces⟩ := plain
  simp [readPrimary, dropNewlines, name, unary, opens, braces, readName, isEquals, read]

theorem readTop_return (kind : t.kind = some .keyword) (word : t.value = "return") :
    (readTop (n + 1)).run (t :: tokens) = (readReturn n).run (t :: tokens) := by
  simp [readTop, kind, word]

theorem readReturn_nothing (breaks : Breaks newline) :
    (readReturn (n + 1)).run (t :: newline :: rest) = (.ok (.ret .missing), newline :: rest) := by
  simp [readReturn, breaks.1]

theorem readReturn_value (starts : t'.kind ≠ some .newline ∧ t'.kind ≠ some .semicolon)
    (read : (readExpr n 0).run (t' :: tokens) = (.ok e, rest)) :
    (readReturn (n + 1)).run (t :: t' :: tokens) = (.ok (.ret e), rest) := by
  simp [readReturn, starts, read]

theorem readMoreParameters_close (closes : Closes t) :
    (readMoreParameters (n + 1)).run (t :: rest) = (.ok [], rest) := by
  simp [readMoreParameters, closes.2, run_take _ closes.1]

theorem readMoreParameters_brace (brace : t.value = "\x7b") :
    (readMoreParameters (n + 1)).run (t :: rest) = (.ok [], t :: rest) := by
  simp [readMoreParameters, brace]

/-- The keyword before a name that is bound. -/
def Binds (t : Token) : Prop := t.kind = some .keyword ∧ (t.value = "let" ∨ t.value = "const")

theorem readMoreParameters_last {params : List Parameter} (binds : Binds t)
    (name : t'.kind = some .identifier) {close : Token} (closes : Closes close)
    (others : (readMoreParameters n).run (close :: tokens) = (.ok params, rest)) :
    (readMoreParameters (n + 1)).run (t :: t' :: close :: tokens) =
      (.ok (.mk t'.value (some t.value) .missing :: params), rest) := by
  obtain ⟨kind, word⟩ := binds
  have other : t.value ≠ ")" ∧ t.value ≠ "\x7b" := by rcases word with h | h <;> simp [h]
  simp [readMoreParameters, kind, word, other, run_take _ name, closes.1, others]

theorem readMoreParameters_plain {params : List Parameter} (binds : Binds t)
    (name : t'.kind = some .identifier) {comma : Token}
    (separates : comma.kind = some .comma ∧ comma.value = ",")
    (others : (readMoreParameters n).run tokens = (.ok params, rest)) :
    (readMoreParameters (n + 1)).run (t :: t' :: comma :: tokens) =
      (.ok (.mk t'.value (some t.value) .missing :: params), rest) := by
  obtain ⟨kind, word⟩ := binds
  have other : t.value ≠ ")" ∧ t.value ≠ "\x7b" := by rcases word with h | h <;> simp [h]
  simp [readMoreParameters, kind, word, other, run_take _ name, separates, others]

/-- The token after a default is skipped, be it a comma or the closing bracket. -/
theorem readMoreParameters_default {params : List Parameter} (binds : Binds t)
    (name : t'.kind = some .identifier) {colon after : Token} {more : List Token}
    (colons : colon.kind = some .operator ∧ colon.value = ":")
    (read : (readExpr n 0).run tokens = (.ok e, after :: more))
    (others : (readMoreParameters n).run more = (.ok params, rest)) :
    (readMoreParameters (n + 1)).run (t :: t' :: colon :: tokens) =
      (.ok (.mk t'.value (some t.value) e :: params), rest) := by
  obtain ⟨kind, word⟩ := binds
  have other : t.value ≠ ")" ∧ t.value ≠ "\x7b" := by rcases word with h | h <;> simp [h]
  simp [readMoreParameters, kind, word, other, run_take _ name, colons, read, others]

theorem readTop_function (kind : t.kind = some .keyword) (word : t.value = "fun")
    (name : t'.kind = some .identifier) {opening : Token} (opens : Opens opening)
    {params : List Parameter} {body : List Expr} {left : List Token}
    (parameters : (readMoreParameters n).run tokens = (.ok params, left))
    (block : (readBlock (n + 1)).run left = (.ok body, rest)) :
    (readTop (n + 3)).run (t :: t' :: opening :: tokens) =
      (.ok (.define t'.value params body), rest) := by
  simp [readTop, kind, word, readFunction, run_take _ name, readParameters, run_take _ opens.1,
    parameters, block]

theorem readBlock_opened {opening : Token} {body : List Expr} {left : List Token}
    (opens : opening.kind = some .lbrace ∧ opening.value = "\x7b")
    (dropped : dropNewlines none tokens = left)
    (statements : (readStatements n).run left = (.ok body, rest)) :
    (readBlock (n + 1)).run (opening :: tokens) = (.ok body, rest) := by
  simp [readBlock, opens.2, run_take _ opens.1, dropped, statements]

theorem readBlock_braced {opening : Token} (opens : opening.kind = some .lbrace ∧ opening.value = "\x7b")
    (breaks : Breaks newline) {body : List Expr} (undelayed : dropNewlines none tokens = tokens)
    (statements : (readStatements n).run tokens = (.ok body, rest)) :
    (readBlock (n + 1)).run (opening :: newline :: tokens) = (.ok body, rest) := by
  have dropped : dropNewlines none (newline :: tokens) = tokens := by
    simpa [dropNewlines, breaks.1] using undelayed
  exact readBlock_opened opens dropped statements

theorem readStatements_close (closes : t.value = "\x7d") :
    (readStatements (n + 1)).run (t :: rest) = (.ok [], rest) := by
  simp [readStatements, closes]

theorem readStatements_next {body : List Expr} {after left : List Token} (other : t.value ≠ "\x7d")
    (read : (readTop n).run (t :: tokens) = (.ok e, after)) (dropped : dropNewlines none after = left)
    (others : (readStatements n).run left = (.ok body, rest)) :
    (readStatements (n + 1)).run (t :: tokens) = (.ok (e :: body), rest) := by
  simp [readStatements, other, read, dropped, others]

theorem readStatements_more {body : List Expr} {left : List Token} (other : t.value ≠ "\x7d")
    (breaks : Breaks newline) (follows : Follows left)
    (statement : ReadsTo (readTop n) (t :: tokens) e newline left)
    (others : (readStatements n).run left = (.ok body, rest)) :
    (readStatements (n + 1)).run (t :: tokens) = (.ok (e :: body), rest) := by
  rcases statement with read | read
  · exact readStatements_next other read (dropNewlines_follows follows) others
  · exact readStatements_next other read (dropNewlines_break breaks follows) others

theorem readTop_conditional (kind : t.kind = some .keyword) (word : t.value = "if") :
    (readTop (n + 1)).run (t :: tokens) = (readConditional n).run (t :: tokens) := by
  simp [readTop, kind, word]

theorem readConditional_else {body : List Expr} (word : t.value = "else")
    (block : (readBlock n).run tokens = (.ok body, rest)) :
    (readConditional (n + 1)).run (t :: tokens) =
      (.ok (.conditional "else" .missing body none), rest) := by
  simp [readConditional, word, block]

/-- What continues a conditional: nothing, or one more of them. -/
def Continues (n : Nat) (chain : List Expr) (tokens left : List Token) : Prop :=
  chain = [] ∧ Follows left ∧ dropNewlines none tokens = left ∨
    ∃ t others e, chain = [e] ∧ dropNewlines none tokens = t :: others ∧ t.kind = some .keyword ∧
      (t.value = "elseif" ∨ t.value = "else") ∧ (readConditional n).run (t :: others) = (.ok e, left)

theorem readConditional_branch {opening close : Token} {condition : Expr} {body chain : List Expr}
    {block after : List Token} (word : t.value ≠ "else") (opens : Opens opening) (closes : Closes close)
    (read : (readExpr n 0).run tokens = (.ok condition, close :: block))
    (statements : (readBlock n).run block = (.ok body, after))
    (continues : Continues n chain after rest) :
    (readConditional (n + 1)).run (t :: opening :: tokens) =
      (.ok (.conditional t.value condition body (some chain)), rest) := by
  rcases continues with ⟨rfl, follows, dropped⟩ | ⟨t', others, e, rfl, dropped, kind, words, further⟩
  · cases rest with
    | nil =>
        simp [readConditional, word, run_take _ opens.1, read, run_take _ closes.1, statements, dropped]
    | cons t' rest =>
        obtain ⟨-, other⟩ := follows t' (by simp)
        simp [readConditional, word, run_take _ opens.1, read, run_take _ closes.1, statements, dropped,
          other]
  · simp [readConditional, word, run_take _ opens.1, read, run_take _ closes.1, statements, dropped,
      kind, words, further]

end Steps

end Scriptlet.Reading
