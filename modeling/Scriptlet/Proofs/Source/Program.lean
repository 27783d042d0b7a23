import Scriptlet.Proofs.Source.Object
import Scriptlet.Proofs.Source.Term

set_option autoImplicit false

/-!
Programs as they are written, and how they are read back. Every statement ends its line, blocks stand in
braces that open on the line of their header, and an expression that is a statement is primary or in
brackets. A definition without a value keeps its equals sign. A conditional is continued on the line of
its closing brace or on the next one.
-/

namespace Scriptlet.Source

inductive Binding
  | changing
  | fixed
deriving Repr, DecidableEq

def Binding.keyword : Binding → String
  | changing => "let"
  | fixed => "const"

/-- What is assigned. -/
inductive Content
  | nothing
  | term (t : Term)
  | object (entries : Entries)

structure Param where
  binding : Binding
  name : Name
  default : Option Term

mutual

inductive Statement
  | expression (t : Term)
  | define (binding : Binding) (name : Name) (content : Content)
  | assign (name : Name) (content : Content)
  | ret (value : Option Term)
  | function (name : Name) (params : List Param) (body : Block)
  | conditional (condition : Term) (body : Block) (chain : Chain)

inductive Block
  | nil
  | cons (first : Statement) (rest : Block)

/-- What continues a conditional, each link on the same line or on the next one. -/
inductive Chain
  | none
  | elseif (nextLine : Bool) (condition : Term) (body : Block) (chain : Chain)
  | otherwise (nextLine : Bool) (body : Block)

end

def Content.expr : Content → Expr
  | nothing => .missing
  | term t => t.expr
  | object entries => .datum (.obj entries.list)

def termOrMissing : Option Term → Expr
  | none => .missing
  | some t => t.expr

def Param.parameter (p : Param) : Parameter :=
  .mk p.name.text (some p.binding.keyword) (termOrMissing p.default)

mutual

def Statement.expr : Statement → Expr
  | .expression t => t.expr
  | .define binding name content => .assign (some binding.keyword) name.text content.expr
  | .assign name content => .assign none name.text content.expr
  | .ret value => .ret (termOrMissing value)
  | .function name params body => .define name.text (params.map Param.parameter) body.exprs
  | .conditional condition body chain =>
    .conditional "if" condition.expr body.exprs (some chain.exprs)

def Block.exprs : Block → List Expr
  | .nil => []
  | .cons first rest => first.expr :: rest.exprs

def Chain.exprs : Chain → List Expr
  | .none => []
  | .elseif _ condition body chain =>
    [.conditional "elseif" condition.expr body.exprs (some chain.exprs)]
  | .otherwise _ body => [.conditional "else" .missing body.exprs none]

end

def newlineWord : Word := ⟨.newline, "newline"⟩

def Content.words : Content → List Word
  | nothing => []
  | term t => t.words
  | object entries => ⟨.lbrace, "\x7b"⟩ :: (entries.words ++ [⟨.rbrace, "\x7d"⟩])

def Param.words (p : Param) : List Word :=
  ⟨.keyword, p.binding.keyword⟩ :: p.name.word ::
    match p.default with
    | none => []
    | some t => ⟨.operator, ":"⟩ :: t.words

/-- The words of parameters with a comma between any two of them, and the closing bracket. -/
def paramWords : List Param → List Word
  | [] => [⟨.rparen, ")"⟩]
  | [p] => p.words ++ [⟨.rparen, ")"⟩]
  | p :: q :: rest => p.words ++ ⟨.comma, ","⟩ :: paramWords (q :: rest)

def lineBreak (nextLine : Bool) : List Word := if nextLine then [newlineWord] else []

/-- The words of a condition and of the block that depends on it. -/
def branchWords (condition : Term) (block : List Word) : List Word :=
  ⟨.lparen, "("⟩ :: (condition.words ++ ⟨.rparen, ")"⟩ :: block)

/-- The words of statements as a block in braces. -/
def braced (statements : List Word) : List Word :=
  ⟨.lbrace, "\x7b"⟩ :: newlineWord :: (statements ++ [⟨.rbrace, "\x7d"⟩])

mutual

def Statement.words : Statement → List Word
  | .expression t => t.operandWords
  | .define binding name content =>
    ⟨.keyword, binding.keyword⟩ :: name.word :: ⟨.operator, "="⟩ :: content.words
  | .assign name content => name.word :: ⟨.operator, "="⟩ :: content.words
  | .ret none => [⟨.keyword, "return"⟩]
  | .ret (some t) => ⟨.keyword, "return"⟩ :: t.words
  | .function name params body =>
    ⟨.keyword, "fun"⟩ :: name.word :: ⟨.lparen, "("⟩ :: (paramWords params ++ braced body.words)
  | .conditional condition body chain =>
    ⟨.keyword, "if"⟩ :: (branchWords condition (braced body.words) ++ chain.words)

/-- The words of statements, each with the newline after it. -/
def Block.words : Block → List Word
  | .nil => []
  | .cons first rest => first.words ++ newlineWord :: rest.words

def Chain.words : Chain → List Word
  | .none => []
  | .elseif nextLine condition body chain =>
    lineBreak nextLine ++
      ⟨.keyword, "elseif"⟩ :: (branchWords condition (braced body.words) ++ chain.words)
  | .otherwise nextLine body => lineBreak nextLine ++ ⟨.keyword, "else"⟩ :: braced body.words

end

/-- The text of a program. -/
def Block.text (program : Block) : String := Token.textOf program.words

theorem Binding.wellFormed (binding : Binding) :
    Word.wellFormed ⟨.keyword, binding.keyword⟩ = true := by
  cases binding <;> decide

theorem content_wellFormed (content : Content) : ∀ w ∈ content.words, w.wellFormed = true := by
  cases content with
  | nothing => simp [Content.words]
  | term t => exact term_wellFormed t
  | object entries => exact field_wellFormed (.object entries)

theorem param_wellFormed (p : Param) : ∀ w ∈ p.words, w.wellFormed = true := by
  obtain ⟨binding, name, default⟩ := p
  refine List.forall_mem_cons.mpr ⟨binding.wellFormed, List.forall_mem_cons.mpr ⟨name.wellFormed, ?_⟩⟩
  cases default with
  | none => simp
  | some t => exact List.forall_mem_cons.mpr ⟨by decide, term_wellFormed t⟩

theorem params_wellFormed (params : List Param) : ∀ w ∈ paramWords params, w.wellFormed = true := by
  induction params using paramWords.induct with
  | case1 => exact List.forall_mem_singleton.mpr rfl
  | case2 p =>
      exact List.forall_mem_append.mpr ⟨param_wellFormed p, List.forall_mem_singleton.mpr rfl⟩
  | case3 p q rest ih =>
      exact List.forall_mem_append.mpr ⟨param_wellFormed p, List.forall_mem_cons.mpr ⟨rfl, ih⟩⟩

theorem braced_wellFormed {words : List Word} (inside : ∀ w ∈ words, w.wellFormed = true) :
    ∀ w ∈ braced words, w.wellFormed = true := by
  refine List.forall_mem_cons.mpr ⟨rfl, List.forall_mem_cons.mpr ⟨rfl, ?_⟩⟩
  exact List.forall_mem_append.mpr ⟨inside, List.forall_mem_singleton.mpr rfl⟩

theorem branch_wellFormed (condition : Term) {words : List Word}
    (block : ∀ w ∈ words, w.wellFormed = true) :
    ∀ w ∈ branchWords condition (braced words), w.wellFormed = true := by
  refine List.forall_mem_cons.mpr ⟨rfl, List.forall_mem_append.mpr ⟨term_wellFormed condition, ?_⟩⟩
  exact List.forall_mem_cons.mpr ⟨rfl, braced_wellFormed block⟩

theorem lineBreak_wellFormed (nextLine : Bool) : ∀ w ∈ lineBreak nextLine, w.wellFormed = true := by
  cases nextLine with
  | false => simp [lineBreak]
  | true => exact List.forall_mem_singleton.mpr rfl

mutual

theorem statement_wellFormed : (s : Statement) → ∀ w ∈ s.words, w.wellFormed = true
  | .expression t => operandWords_wellFormed (term_wellFormed t)
  | .define binding name content => by
      refine List.forall_mem_cons.mpr ⟨binding.wellFormed, ?_⟩
      refine List.forall_mem_cons.mpr ⟨name.wellFormed, ?_⟩
      exact List.forall_mem_cons.mpr ⟨by decide, content_wellFormed content⟩
  | .assign name content => by
      refine List.forall_mem_cons.mpr ⟨name.wellFormed, ?_⟩
      exact List.forall_mem_cons.mpr ⟨by decide, content_wellFormed content⟩
  | .ret none => List.forall_mem_singleton.mpr (by decide)
  | .ret (some t) => List.forall_mem_cons.mpr ⟨by decide, term_wellFormed t⟩
  | .function name params body => by
      refine List.forall_mem_cons.mpr ⟨by decide, List.forall_mem_cons.mpr ⟨name.wellFormed, ?_⟩⟩
      refine List.forall_mem_cons.mpr ⟨rfl, List.forall_mem_append.mpr ⟨params_wellFormed params, ?_⟩⟩
      exact braced_wellFormed (block_wellFormed body)
  | .conditional condition body chain => by
      refine List.forall_mem_cons.mpr ⟨by decide, List.forall_mem_append.mpr ⟨?_, ?_⟩⟩
      · exact branch_wellFormed condition (block_wellFormed body)
      · exact chain_wellFormed chain

theorem block_wellFormed : (b : Block) → ∀ w ∈ b.words, w.wellFormed = true
  | .nil => by simp [Block.words]
  | .cons first rest =>
      List.forall_mem_append.mpr ⟨statement_wellFormed first,
        List.forall_mem_cons.mpr ⟨rfl, block_wellFormed rest⟩⟩

theorem chain_wellFormed : (c : Chain) → ∀ w ∈ c.words, w.wellFormed = true
  | .none => by simp [Chain.words]
  | .elseif nextLine condition body chain => by
      refine List.forall_mem_append.mpr ⟨lineBreak_wellFormed nextLine, ?_⟩
      refine List.forall_mem_cons.mpr ⟨by decide, List.forall_mem_append.mpr ⟨?_, ?_⟩⟩
      · exact branch_wellFormed condition (block_wellFormed body)
      · exact chain_wellFormed chain
  | .otherwise nextLine body => by
      refine List.forall_mem_append.mpr ⟨lineBreak_wellFormed nextLine, ?_⟩
      exact List.forall_mem_cons.mpr ⟨by decide, braced_wellFormed (block_wellFormed body)⟩

end

end Scriptlet.Source
