import Scriptlet.Proofs.Expr.Statements

set_option autoImplicit false

/-!
The readers as a grammar. A form is one of the things that are read, and a production is one way to
read it, step by step: take a token, look at the next one, drop newlines, read a part. What the
productions derive does not mention fuel, and a fact about all readings is an induction over the kinds
of steps instead of one over the readers.
-/

namespace Scriptlet.Reading

/-- The things that are read. -/
inductive Form
  /-- The rest of the path of an import, with the part and the parents read so far. -/
  | path (name : Option String) (parents : List (Option String))
  /-- The entries of an object after others, up to the closing brace. -/
  | entries (before : List (String × Value))
  | entry
  | statement
  /-- An expression whose operators bind at least so tightly. -/
  | expression (least : Int)
  /-- The operators and right operands after a left operand. -/
  | operators (least : Int) (left : Expr)
  | operand
  /-- What stands after a name and says what it is used for. -/
  | usage (name : String)
  | assignment (binding : Option String) (name : String)
  | arguments
  | parameters
  | conditional
  | block
  | statements

/-- What a form is read as. -/
@[reducible] def Form.Result : Form → Type
  | .entries _ => Value
  | .entry => String × Value
  | .arguments | .block | .statements => List Expr
  | .parameters => List Parameter
  | .path _ _ | .statement | .expression _ | .operators _ _ | .operand | .usage _ | .assignment _ _
  | .conditional => Expr

/-- The reader of a form. -/
def Form.read (fuel : Nat) : (f : Form) → Reading f.Result
  | .path name parents => readModule fuel name parents
  | .entries before => readEntries fuel before
  | .entry => readEntry fuel
  | .statement => readTop fuel
  | .expression least => readExpr fuel least
  | .operators least left => readOperators fuel least left
  | .operand => readPrimary fuel
  | .usage name => readName fuel name
  | .assignment binding name => readAssignment fuel binding name
  | .arguments => readMoreArguments fuel
  | .parameters => readMoreParameters fuel
  | .conditional => readConditional fuel
  | .block => readBlock fuel
  | .statements => readStatements fuel

/-- A step of a reading. -/
inductive Symbol
  | token (t : Token)
  /-- Looks at the token at the front, if any. -/
  | look (p : Option Token → Prop)
  /-- Drops newlines, at most so many if a limit is given. -/
  | newlines (limit : Option Nat)
  /-- Drops the token at the front, if any. -/
  | skip
  | part (f : Form) (a : f.Result)

/-- Looks for a token. -/
def Symbol.ahead (p : Token → Prop) : Symbol := .look fun o => ∃ t, o = some t ∧ p t

/-- Looks for the end or a token. -/
def Symbol.endOr (p : Token → Prop) : Symbol := .look fun o => ∀ t, o = some t → p t

/-- Looks for the end. -/
def Symbol.finish : Symbol := .look (· = none)

def InPath (t : Token) : Prop := t.kind = some .identifier ∨ t.kind = some .operator

/-- A token that ends a statement. -/
def Terminates (t : Token) : Prop := t.kind = some .newline ∨ t.kind = some .semicolon

def Labels (t : Token) : Prop := t.kind = some .identifier ∨ t.kind = some .string

def Keyword (t : Token) (word : String) : Prop := t.kind = some .keyword ∧ t.value = word

/-- The keyword of a further branch. -/
def Branches (t : Token) : Prop :=
  t.kind = some .keyword ∧ (t.value = "elseif" ∨ t.value = "else")

def OpensBrace (t : Token) : Prop := t.kind = some .lbrace ∧ t.value = "\x7b"

def ClosesBrace (t : Token) : Prop := t.kind = some .rbrace ∧ t.value = "\x7d"

/-- What stands between a name that is defined and its value. -/
def Assigns (t : Token) : Prop := t.kind = some .operator ∧ t.value = "=" ∨ Terminates t

/-- An operator that goes on with an expression. -/
def Operates (least : Int) (t : Token) : Prop := t.kind = some .operator ∧ least ≤ precedence t

def Doubled (t : Token) : Prop := t.value = "++" ∨ t.value = "--"

def Signed (t : Token) : Prop := t.value = "-" ∨ t.value = "+" ∨ t.value = "!"

/-- How tightly the operators of a right operand bind. -/
def tighter (t : Token) : Int := if isLeftAssociative t then precedence t + 1 else precedence t

/-- The spelling of what stands between two arguments. -/
def Parts (t : Token) : Prop := t.value = "," ∨ t.value = "newline"

/-- The kinds of what stands between two arguments. -/
def Parting (t : Token) : Prop := t.kind = some .comma ∨ t.kind = some .newline

/-- The ways to read a form. -/
inductive Production : (f : Form) → f.Result → List Symbol → Prop
  | pathOther {name : Option String} {parents : List (Option String)} :
      Production (.path name parents) (.module parents name) [.ahead (·.kind = none)]
  | pathEnd {name : Option String} {parents : List (Option String)} {t : Token}
      (last : Terminates t) :
      Production (.path name parents) (.module parents name) [.token t]
  | pathMore {name : Option String} {parents : List (Option String)} {t t' : Token} {e : Expr}
      (step : InPath t) (further : InPath t') :
      Production (.path name parents) e
        [.token t, .ahead (· = t'), .part (.path (some t'.value) (parents ++ [some t.value])) e]
  | pathLast {name : Option String} {parents : List (Option String)} {t t' : Token}
      (step : InPath t) (last : Terminates t') :
      Production (.path name parents) (.module parents (some t.value)) [.token t, .token t']
  | pathStop {name : Option String} {parents : List (Option String)} {t : Token} (step : InPath t) :
      Production (.path name parents) (.module parents (some t.value))
        [.token t, .ahead fun t => ¬ InPath t ∧ ¬ Terminates t]
  | entriesNone {before : List (String × Value)} :
      Production (.entries before) (.obj before) [.ahead ClosesBrace]
  | entriesLast {before : List (String × Value)} {key : String} {v : Value} :
      Production (.entries before) (.obj (Value.putEntry key v before))
        [.ahead (·.kind ≠ some .rbrace), .part .entry (key, v), .newlines none, .ahead ClosesBrace]
  | entriesMore {before : List (String × Value)} {key : String} {v object : Value} {t : Token}
      (comma : t.kind = some .comma) :
      Production (.entries before) object
        [.ahead (·.kind ≠ some .rbrace), .part .entry (key, v), .newlines none, .token t,
          .part (.entries (Value.putEntry key v before)) object]
  | entryWord {key colon word : Token} (labels : Labels key)
      (isColon : colon.value = ":" ∧ colon.kind ≠ some .string) (isWord : Labels word) :
      Production .entry (key.value, .str word.value)
        [.newlines none, .token key, .token colon, .token word]
  | entryObject {key colon first last : Token} {object : Value} (labels : Labels key)
      (isColon : colon.value = ":" ∧ colon.kind ≠ some .string) (opens : first.kind = some .lbrace)
      (closes : last.kind = some .rbrace) :
      Production .entry (key.value, object)
        [.newlines none, .token key, .token colon, .token first, .part (.entries []) object,
          .token last]
  | nothing : Production .statement .missing [.finish]
  | expression {e : Expr} :
      Production .statement e [.ahead (·.kind ≠ some .keyword), .part (.expression 0) e]
  | imports {t : Token} {e : Expr} (word : Keyword t "import") :
      Production .statement e [.token t, .part (.path none []) e]
  | defines {t name t' : Token} {e : Expr} (binds : Binds t) (isName : name.kind = some .identifier)
      (assigns : Assigns t') :
      Production .statement e
        [.token t, .token name, .token t', .part (.assignment (some t.value) name.value) e]
  | undefined {t name : Token} (binds : Binds t) (isName : name.kind = some .identifier) :
      Production .statement .missing [.token t, .token name, .ahead (¬ Assigns ·)]
  | function {t name first : Token} {params : List Parameter} {body : List Expr}
      (word : Keyword t "fun") (isName : name.kind = some .identifier)
      (opens : first.kind = some .lparen) :
      Production .statement (.define name.value params body)
        [.token t, .token name, .token first, .part .parameters params, .part .block body]
  | returnsNothing {t t' : Token} (word : Keyword t "return") (last : t'.kind = some .semicolon) :
      Production .statement (.ret .missing) [.token t, .token t']
  | returnsLine {t : Token} (word : Keyword t "return") :
      Production .statement (.ret .missing) [.token t, .ahead (·.kind = some .newline)]
  | returnsValue {t : Token} {e : Expr} (word : Keyword t "return") :
      Production .statement (.ret e) [.token t, .ahead (¬ Terminates ·), .part (.expression 0) e]
  | branches {e : Expr} :
      Production .statement e [.ahead (Keyword · "if"), .part .conditional e]
  | climbs {least : Int} {l e : Expr} :
      Production (.expression least) e [.part .operand l, .part (.operators least l) e]
  | operatorsStop {least : Int} {l : Expr} :
      Production (.operators least l) l
        [.endOr fun t => ¬ Operates least t ∧ t.kind ≠ some .semicolon]
  | operatorsEnd {least : Int} {l : Expr} {t : Token} (last : t.kind = some .semicolon) :
      Production (.operators least l) l [.token t]
  | post {least : Int} {l : Expr} {t : Token} (operates : Operates least t) (doubled : Doubled t) :
      Production (.operators least l) (.unary (t.value ++ ":post") l) [.token t]
  | binary {least : Int} {l r e : Expr} {t : Token} (operates : Operates least t)
      (single : ¬ Doubled t) :
      Production (.operators least l) e
        [.token t, .part (.expression (tighter t)) r,
          .part (.operators least (.binary t.value l r)) e]
  | noOperand : Production .operand .missing [.newlines none, .finish]
  | sign {t : Token} {e : Expr} (unary : isUnary t = true) (signed : Signed t) :
      Production .operand (.unary t.value e) [.newlines none, .token t, .part .operand e]
  | double {t : Token} {e : Expr} (unary : isUnary t = true) (unsigned : ¬ Signed t) :
      Production .operand (.unary t.value e)
        [.newlines none, .token t, .part (.expression (precedence t)) e]
  | group {first last : Token} {e : Expr} (opens : Opens first) (closes : last.kind = some .rparen) :
      Production .operand e [.newlines none, .token first, .part (.expression 0) e, .token last]
  | object {first last : Token} {v : Value} (opens : OpensBrace first)
      (closes : last.kind = some .rbrace) :
      Production .operand (.datum v)
        [.newlines none, .token first, .part (.entries []) v, .token last]
  | number {t : Token} {e : Expr} (kind : t.kind = some .number) (plain : Plain t)
      (value : numberOf t.value = .ok e) : Production .operand e [.newlines none, .token t]
  | string {t : Token} (kind : t.kind = some .string) (plain : Plain t) :
      Production .operand (.str t.value) [.newlines none, .token t]
  | name {t : Token} {e : Expr} (kind : t.kind = some .identifier) (plain : Plain t) :
      Production .operand e [.newlines none, .token t, .part (.usage t.value) e]
  | truth {t : Token} (kind : t.kind = some .keyword) (word : t.value = "true" ∨ t.value = "false") :
      Production .operand (.literal .boolean (.str t.value)) [.newlines none, .token t]
  | keywordCall {t first : Token} {args : List Expr} (kind : t.kind = some .keyword) (plain : Plain t)
      (other : ¬ (t.value = "true" ∨ t.value = "false")) (opens : Opens first) :
      Production .operand (.call t.value args)
        [.newlines none, .token t, .token first, .part .arguments args]
  | property {name : String} {t : Token} {e : Expr} (point : t.value = ".") :
      Production (.usage name) (.property name e) [.token t, .part .statement e]
  | call {name : String} {first : Token} {args : List Expr} (opens : Opens first) :
      Production (.usage name) (.call name args) [.token first, .part .arguments args]
  | reassigns {name : String} {t : Token} {e : Expr} (equals : t.value = "=") :
      Production (.usage name) e [.token t, .part (.assignment none name) e]
  | itself {name : String} :
      Production (.usage name) (.ident name)
        [.ahead fun t => t.value ≠ "." ∧ t.value ≠ "(" ∧ t.value ≠ "="]
  | valueless {binding : Option String} {name : String} :
      Production (.assignment binding name) (.assign binding name .missing)
        [.ahead fun t => t.kind = some .rparen ∨ t.kind = some .comma]
  | valuelessEnd {binding : Option String} {name : String} {t : Token} (last : Terminates t) :
      Production (.assignment binding name) (.assign binding name .missing) [.token t]
  | value {binding : Option String} {name : String} {e : Expr} :
      Production (.assignment binding name) (.assign binding name e)
        [.ahead fun t => t.kind ≠ some .rparen ∧ t.kind ≠ some .comma ∧ ¬ Terminates t,
          .part (.expression 0) e, .endOr (·.kind = some .comma)]
  | valueEnd {binding : Option String} {name : String} {e : Expr} {t : Token} (last : Terminates t) :
      Production (.assignment binding name) (.assign binding name e)
        [.ahead fun t => t.kind ≠ some .rparen ∧ t.kind ≠ some .comma ∧ ¬ Terminates t,
          .part (.expression 0) e, .token t]
  | argumentsStop : Production .arguments [] [.finish]
  | argumentsEnd {t : Token} (closes : Closes t) : Production .arguments [] [.token t]
  | argumentsMore {t : Token} {e : Expr} {args : List Expr} (parts : Parts t) (parting : Parting t) :
      Production .arguments (e :: args)
        [.ahead (·.value ≠ ")"), .part .statement e, .token t, .part .arguments args]
  | argumentsGoOn {e : Expr} {args : List Expr} :
      Production .arguments (e :: args)
        [.ahead (·.value ≠ ")"), .part .statement e, .ahead fun t => Parts t ∧ ¬ Parting t,
          .part .arguments args]
  | argumentsLast {t : Token} {e : Expr} (other : ¬ Parts t) (closes : t.kind = some .rparen) :
      Production .arguments [e] [.ahead (·.value ≠ ")"), .part .statement e, .token t]
  | parametersStop : Production .parameters [] [.finish]
  | parametersEnd {t : Token} (closes : Closes t) : Production .parameters [] [.token t]
  | parametersBrace : Production .parameters [] [.ahead (·.value = "\x7b")]
  | parametersLast {t name : Token} {params : List Parameter} (binds : Binds t)
      (isName : name.kind = some .identifier) :
      Production .parameters (.mk name.value (some t.value) .missing :: params)
        [.token t, .token name, .ahead (·.kind = some .rparen), .part .parameters params]
  | parametersMore {t name t' : Token} {params : List Parameter} (binds : Binds t)
      (isName : name.kind = some .identifier)
      (comma : (t'.kind = some .comma ∨ t'.kind = some .operator) ∧ t'.value = ",") :
      Production .parameters (.mk name.value (some t.value) .missing :: params)
        [.token t, .token name, .token t', .part .parameters params]
  | parametersDefault {t name t' : Token} {params : List Parameter} {e : Expr} (binds : Binds t)
      (isName : name.kind = some .identifier)
      (colon : (t'.kind = some .comma ∨ t'.kind = some .operator) ∧ t'.value = ":") :
      Production .parameters (.mk name.value (some t.value) e :: params)
        [.token t, .token name, .token t', .part (.expression 0) e, .skip, .part .parameters params]
  | otherwise {t : Token} {body : List Expr} (word : t.value = "else") :
      Production .conditional (.conditional t.value .missing body none)
        [.token t, .part .block body]
  | lastBranch {t first last : Token} {condition : Expr} {body : List Expr} (word : t.value ≠ "else")
      (opens : first.kind = some .lparen) (closes : last.kind = some .rparen) :
      Production .conditional (.conditional t.value condition body (some []))
        [.token t, .token first, .part (.expression 0) condition, .token last, .part .block body,
          .newlines none, .endOr (¬ Branches ·)]
  | branch {t first last : Token} {condition e : Expr} {body : List Expr} (word : t.value ≠ "else")
      (opens : first.kind = some .lparen) (closes : last.kind = some .rparen) :
      Production .conditional (.conditional t.value condition body (some [e]))
        [.token t, .token first, .part (.expression 0) condition, .token last, .part .block body,
          .newlines none, .ahead Branches, .part .conditional e]
  | braced {t : Token} {body : List Expr} (opens : OpensBrace t) :
      Production .block body [.token t, .newlines none, .part .statements body]
  | single {e : Expr} :
      Production .block [e]
        [.ahead (·.value ≠ "\x7b"), .newlines (some 1), .ahead (·.kind ≠ some .newline),
          .part .statement e]
  | statementsEnd {t : Token} (closes : t.value = "\x7d") : Production .statements [] [.token t]
  | statementsMore {e : Expr} {body : List Expr} :
      Production .statements (e :: body)
        [.ahead (·.value ≠ "\x7d"), .part .statement e, .newlines none, .part .statements body]

/-- The steps can be made one after another on the tokens and leave the rest. -/
inductive Derives : List Symbol → List Token → List Token → Prop
  | nil {tokens : List Token} : Derives [] tokens tokens
  | token {t : Token} {symbols : List Symbol} {tokens rest : List Token}
      (others : Derives symbols tokens rest) : Derives (.token t :: symbols) (t :: tokens) rest
  | look {p : Option Token → Prop} {symbols : List Symbol} {tokens rest : List Token}
      (seen : p tokens.head?) (others : Derives symbols tokens rest) :
      Derives (.look p :: symbols) tokens rest
  | newlines {limit : Option Nat} {symbols : List Symbol} {tokens rest : List Token}
      (others : Derives symbols (dropNewlines limit tokens) rest) :
      Derives (.newlines limit :: symbols) tokens rest
  | skip {symbols : List Symbol} {tokens rest : List Token}
      (others : Derives symbols tokens.tail rest) : Derives (.skip :: symbols) tokens rest
  | part {f : Form} {a : f.Result} {inner symbols : List Symbol} {tokens left rest : List Token}
      (production : Production f a inner) (first : Derives inner tokens left)
      (others : Derives symbols left rest) : Derives (.part f a :: symbols) tokens rest

/-- The form is read from the tokens, with the rest left. -/
def Reads (f : Form) (tokens : List Token) (a : f.Result) (rest : List Token) : Prop :=
  Derives [.part f a] tokens rest

theorem Reads.append {f : Form} {a : f.Result} {symbols : List Symbol}
    {tokens left rest : List Token} (first : Reads f tokens a left)
    (others : Derives symbols left rest) :
    Derives (.part f a :: symbols) tokens rest := by
  cases first with
  | part production first nothing =>
      cases nothing
      exact .part production first others

theorem Production.reads {f : Form} {a : f.Result} {symbols : List Symbol}
    {tokens rest : List Token} (production : Production f a symbols)
    (steps : Derives symbols tokens rest) :
    Reads f tokens a rest :=
  .part production steps .nil

theorem Derives.ahead {p : Token → Prop} {t : Token} {symbols : List Symbol}
    {tokens rest : List Token} (holds : p t) (others : Derives symbols (t :: tokens) rest) :
    Derives (.ahead p :: symbols) (t :: tokens) rest :=
  .look ⟨t, rfl, holds⟩ others

theorem Derives.endOr {p : Token → Prop} {t : Token} {symbols : List Symbol}
    {tokens rest : List Token} (holds : p t) (others : Derives symbols (t :: tokens) rest) :
    Derives (.endOr p :: symbols) (t :: tokens) rest :=
  .look (by rintro _ ⟨⟩; exact holds) others

section Inversion

variable {symbols : List Symbol} {tokens rest : List Token}

theorem derives_nil : Derives [] tokens rest ↔ tokens = rest := by
  constructor
  · rintro ⟨⟩
    rfl
  · rintro rfl
    exact .nil

theorem derives_token {t : Token} : Derives (.token t :: symbols) tokens rest ↔
    ∃ left, tokens = t :: left ∧ Derives symbols left rest := by
  constructor
  · intro derives
    cases derives with
    | token others => exact ⟨_, rfl, others⟩
  · rintro ⟨left, rfl, others⟩
    exact .token others

theorem derives_newlines {limit : Option Nat} : Derives (.newlines limit :: symbols) tokens rest ↔
    Derives symbols (dropNewlines limit tokens) rest := by
  constructor
  · intro derives
    cases derives with
    | newlines others => exact others
  · exact .newlines

theorem derives_look {p : Option Token → Prop} : Derives (.look p :: symbols) tokens rest ↔
    p tokens.head? ∧ Derives symbols tokens rest := by
  constructor
  · intro derives
    cases derives with
    | look seen others => exact ⟨seen, others⟩
  · exact fun ⟨seen, others⟩ => .look seen others

theorem derives_part {f : Form} {a : f.Result} : Derives (.part f a :: symbols) tokens rest ↔
    ∃ left, Reads f tokens a left ∧ Derives symbols left rest := by
  constructor
  · intro derives
    cases derives with
    | part production first others => exact ⟨_, production.reads first, others⟩
  · exact fun ⟨left, first, others⟩ => first.append others

theorem derives_ahead {p : Token → Prop} : Derives (.ahead p :: symbols) tokens rest ↔
    ∃ t left, tokens = t :: left ∧ p t ∧ Derives symbols tokens rest := by
  cases tokens <;> simp [Symbol.ahead, derives_look]

theorem reads_iff {f : Form} {a : f.Result} :
    Reads f tokens a rest ↔ ∃ symbols, Production f a symbols ∧ Derives symbols tokens rest := by
  constructor
  · intro reads
    cases reads with
    | part production first nothing =>
        cases nothing
        exact ⟨_, production, first⟩
  · exact fun ⟨_, production, steps⟩ => production.reads steps

end Inversion

theorem dropNewlines_suffix (limit : Option Nat) (tokens : List Token) :
    dropNewlines limit tokens <:+ tokens := by
  induction tokens generalizing limit with
  | nil => simp [dropNewlines]
  | cons t tokens ih =>
      rw [dropNewlines]
      split
      · exact (ih _).trans (List.suffix_cons t tokens)
      · exact List.suffix_rfl

/-- Dropping newlines stops before the end of the first tokens, or it goes on with the others. -/
theorem dropNewlines_append (limit : Option Nat) (front : List Token) :
    (dropNewlines limit front ≠ [] ∧
      ∀ back, dropNewlines limit (front ++ back) = dropNewlines limit front ++ back) ∨
    (dropNewlines limit front = [] ∧
      ∃ limit', ∀ back, dropNewlines limit (front ++ back) = dropNewlines limit' back) := by
  induction front generalizing limit with
  | nil => exact .inr ⟨by simp [dropNewlines], limit, fun _ => rfl⟩
  | cons t front ih =>
      by_cases skipped : (t.kind = some .newline && limit ≠ some 0) = true
      · have dropped : ∀ back, dropNewlines limit (t :: back) =
            dropNewlines (limit.map (· - 1)) back := by
          intro back
          rw [dropNewlines, if_pos skipped]
        simpa only [List.cons_append, dropped] using ih (limit.map (· - 1))
      · have kept : ∀ back, dropNewlines limit (t :: back) = t :: back := by
          intro back
          rw [dropNewlines, if_neg skipped]
        exact .inl ⟨by simp [kept], by simp [kept]⟩

theorem Derives.suffix {symbols : List Symbol} {tokens rest : List Token}
    (derives : Derives symbols tokens rest) : rest <:+ tokens := by
  induction derives with
  | nil => exact List.suffix_rfl
  | token others ih => exact ih.trans (List.suffix_cons ..)
  | look seen others ih => exact ih
  | newlines others ih => exact ih.trans (dropNewlines_suffix ..)
  | skip others ih => exact ih.trans (List.tail_suffix _)
  | part production first others left right => exact right.trans left

/-- No step looks further than the first token that is left. -/
theorem Derives.lookahead {symbols : List Symbol} {tokens left : List Token}
    (derives : Derives symbols tokens left) (front rest : List Token) (t : Token)
    (given : tokens = front ++ t :: rest) (leaves : left = t :: rest) (rest' : List Token) :
    Derives symbols (front ++ t :: rest') (t :: rest') := by
  induction derives generalizing front rest t rest' with
  | nil =>
      obtain rfl : front = [] := by simpa [given] using leaves
      exact .nil
  | @token u symbols tokens left others ih =>
      cases front with
      | nil =>
          obtain ⟨rfl, rfl⟩ : u = t ∧ tokens = rest := by simpa using given
          have shorter := others.suffix.length_le
          rw [leaves, List.length_cons] at shorter
          omega
      | cons u front =>
          obtain ⟨rfl, rfl⟩ := List.cons.inj given
          exact .token (ih front rest t rfl leaves rest')
  | look seen others ih =>
      refine .look ?_ (ih front rest t given leaves rest')
      rw [given] at seen
      cases front <;> exact seen
  | @newlines limit symbols tokens left others ih =>
      obtain ⟨kept, same⟩ := others.suffix
      subst given leaves
      rcases dropNewlines_append limit (front ++ [t]) with ⟨-, stops⟩ | ⟨-, limit', goesOn⟩
      · have before := stops rest
        have after := stops rest'
        simp only [List.append_assoc, List.singleton_append] at before after
        have agrees : dropNewlines limit (front ++ [t]) = kept ++ [t] := by
          refine (List.append_left_inj rest).mp ?_
          rw [← before, ← same, List.append_assoc, List.singleton_append]
        refine .newlines ?_
        rw [after, agrees, List.append_assoc, List.singleton_append]
        exact ih kept rest t same.symm rfl rest'
      · have dropped := goesOn rest
        have shorter := (dropNewlines_suffix limit' rest).length_le
        simp only [List.append_assoc, List.singleton_append] at dropped
        rw [← dropped, ← same] at shorter
        simp at shorter
        omega
  | @skip symbols tokens left others ih =>
      subst given leaves
      cases front with
      | nil =>
          have shorter := others.suffix.length_le
          simp only [List.nil_append, List.tail_cons, List.length_cons] at shorter
          omega
      | cons u front => exact .skip (ih front rest t rfl rfl rest')
  | @part f a inner symbols tokens middle left production first others ihFirst ihOthers =>
      subst given leaves
      obtain ⟨kept, rfl⟩ := others.suffix
      have next := ihOthers kept rest t rfl rfl rest'
      obtain ⟨taken, same⟩ := first.suffix
      obtain rfl : front = taken ++ kept := by simpa [← List.append_assoc] using same.symm
      cases kept with
      | nil => exact .part production (ihFirst _ rest t rfl rfl rest') next
      | cons u kept =>
          refine .part production ?_ next
          simpa using ihFirst taken (kept ++ t :: rest) u (by simp) (by simp) (kept ++ t :: rest')

theorem Derives.exchange {symbols : List Symbol} {taken kept rest : List Token} {t : Token}
    (derives : Derives symbols (taken ++ kept ++ t :: rest) (kept ++ t :: rest))
    (rest' : List Token) : Derives symbols (taken ++ kept ++ t :: rest') (kept ++ t :: rest') := by
  cases kept with
  | nil => exact derives.lookahead (taken ++ []) rest t rfl rfl rest'
  | cons u kept =>
      simpa using derives.lookahead taken (kept ++ t :: rest) u (by simp) rfl (kept ++ t :: rest')

/-- The forms that take a token, if there is one. -/
def Form.Takes : Form → Prop
  | .entry | .statement | .expression _ | .operand | .arguments | .conditional | .block
  | .statements => True
  | .path _ _ | .entries _ | .operators _ _ | .usage _ | .assignment _ _ | .parameters => False

/-- A step takes a token, if there is one. -/
def Takes : List Symbol → Prop
  | [] => False
  | .token _ :: _ | .skip :: _ => True
  | .look p :: symbols => (∀ t, ¬ p (some t)) ∨ Takes symbols
  | .newlines _ :: symbols => Takes symbols
  | .part f _ :: symbols => f.Takes ∨ Takes symbols

theorem Production.takes {f : Form} {a : f.Result} {symbols : List Symbol}
    (production : Production f a symbols) (takes : f.Takes) : Takes symbols := by
  cases production <;> simp_all [Takes, Form.Takes, Symbol.finish, Symbol.ahead]

theorem Derives.shorter {symbols : List Symbol} {tokens rest : List Token}
    (derives : Derives symbols tokens rest) (takes : Takes symbols) (nonempty : tokens ≠ []) :
    rest.length < tokens.length := by
  induction derives with
  | nil => exact takes.elim
  | token others ih => exact Nat.lt_succ_of_le others.suffix.length_le
  | @look p symbols tokens rest seen others ih =>
      cases tokens with
      | nil => exact absurd rfl nonempty
      | cons t tokens => exact ih (takes.resolve_left fun none => none t seen) nonempty
  | @newlines limit symbols tokens rest others ih =>
      have dropped := (dropNewlines_suffix limit tokens).length_le
      by_cases empty : dropNewlines limit tokens = []
      · have none := others.suffix.length_le
        rw [empty, List.length_nil] at none
        have := List.length_pos_iff.mpr nonempty
        omega
      · have := ih takes empty
        omega
  | @skip symbols tokens rest others ih =>
      have fewer := others.suffix.length_le
      have := List.length_pos_iff.mpr nonempty
      rw [List.length_tail] at fewer
      omega
  | @part f a inner symbols tokens left rest production first others ihFirst ihOthers =>
      have fewer := first.suffix.length_le
      have fewest := others.suffix.length_le
      rcases takes with takes | takes
      · have := ihFirst (production.takes takes) nonempty
        omega
      · by_cases empty : left = []
        · have := List.length_pos_iff.mpr nonempty
          rw [empty, List.length_nil] at fewest
          omega
        · have := ihOthers takes empty
          omega

end Scriptlet.Reading
