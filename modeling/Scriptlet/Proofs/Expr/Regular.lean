import Scriptlet.Operator
import Scriptlet.Proofs.Expr.Reading
import Scriptlet.Proofs.Fault

set_option autoImplicit false

/-!
The shape of the expressions that are read. Wherever a value is kept in an expression, it is one that
could be written there: a literal holds a value of its kind, and the only value that stands for itself
is an object. Expressions inside of functions and conditionals are not looked at, as folding leaves
them alone.
-/

namespace Scriptlet

/-- The values that a literal may hold. Where a test of a broken number was folded, a word for truth is
held as if it were one. -/
def LiteralKind.Holds : LiteralKind → Value → Prop
  | .integer, v => ∃ n, v = .int n
  | .floating, v => (∃ x, v = .float x) ∨ ∃ b, v = Value.truth b
  | .string, v => ∃ s, v = .str s
  | .boolean, v => ∃ b, v = Value.truth b
  | .null, _ => False

/-- All values in an expression could be written where they stand. -/
inductive Expr.Regular : Expr → Prop
  | missing : Regular (.datum .null)
  | object (entries : List (String × Value)) : Regular (.datum (.obj entries))
  | literal {kind : LiteralKind} {v : Value} (holds : kind.Holds v) : Regular (.literal kind v)
  | ident (name : String) : Regular (.ident name)
  | property (name : String) (index : Expr) : Regular (.property name index)
  | unary (operator : String) {operand : Expr} (inner : Regular operand) :
      Regular (.unary operator operand)
  | binary (operator : String) {l r : Expr} (left : Regular l) (right : Regular r) :
      Regular (.binary operator l r)
  | assign (binding : Option String) (name : String) {e : Expr} (value : Regular e) :
      Regular (.assign binding name e)
  | call (name : String) {args : List Expr} (each : ∀ a ∈ args, Regular a) :
      Regular (.call name args)
  | define (name : String) (params : List Parameter) (body : List Expr) :
      Regular (.define name params body)
  | ret {e : Expr} (value : Regular e) : Regular (.ret e)
  | conditional (keyword : String) (condition : Expr) (body : List Expr)
      (otherwise : Option (List Expr)) : Regular (.conditional keyword condition body otherwise)
  | module (parents : List (Option String)) (name : Option String) : Regular (.module parents name)

namespace Reading

open Scriptlet.Expr (Regular)

variable {α β : Type} {P : β → Prop} {Q : α → Prop}

/-- Whatever a reading gives has the property. -/
def Yields (r : Reading α) (Q : α → Prop) : Prop :=
  ∀ tokens a rest, r.run tokens = (.ok a, rest) → Q a

theorem yields_pure {a : α} (holds : Q a) : Yields (pure a) Q := by
  intro tokens b rest read
  simp only [run_pure, Prod.mk.injEq, Except.ok.injEq] at read
  rw [← read.1]
  exact holds

theorem yields_throw (fault : Fault) : Yields (throw fault) Q := by
  intro tokens b rest read
  simp at read

theorem yields_bind {r : Reading α} {k : α → Reading β} (first : Yields r Q)
    (others : ∀ a, Q a → Yields (k a) P) : Yields (r >>= k) P := by
  intro tokens b rest read
  rw [run_bind] at read
  cases result : r.run tokens with
  | mk outcome left =>
      rw [result] at read
      cases outcome with
      | ok a => exact others a (first tokens a left result) left b rest read
      | error fault => simp at read

theorem yields_branch {condition : Prop} [Decidable condition] {r r' : Reading α} {k : α → Reading β}
    (first : Yields r Q) (second : Yields r' Q) (others : ∀ a, Q a → Yields (k a) P) :
    Yields (if condition then r >>= k else r' >>= k) P := by
  split
  · exact yields_bind first others
  · exact yields_bind second others

theorem yields_next {r : Reading α} {k : α → Reading β} (others : ∀ a, Yields (k a) P) :
    Yields (r >>= k) P :=
  yields_bind (fun _ _ _ _ => trivial) fun a (_ : True) => others a

theorem yields_numberOf (text : String) : Yields (liftM (numberOf text)) Regular := by
  intro tokens e rest read
  simp only [run_lift, Prod.mk.injEq, numberOf] at read
  obtain ⟨result, -⟩ := read
  split at result
  · obtain ⟨x, -, rfl⟩ := Fault.map_eq_ok.mp result
    exact .literal (Or.inl ⟨x, rfl⟩)
  · obtain ⟨n, -, rfl⟩ := Fault.map_eq_ok.mp result
    exact .literal ⟨n, rfl⟩

theorem yields_module (fuel : Nat) (name : Option String) (parents : List (Option String)) :
    Yields (readModule fuel name parents) Regular := by
  induction fuel generalizing name parents with
  | zero => exact yields_throw _
  | succ fuel ih =>
      rw [readModule]
      refine yields_next fun token => yields_next fun token => ?_
      split
      · exact yields_pure (.module ..)
      · exact yields_next fun _ => yields_pure (.module ..)
      · exact yields_next fun _ => yields_pure (.module ..)
      iterate 2
        · refine yields_next fun _ => yields_next fun _ => yields_next fun following => ?_
          split
          · exact ih _ _
          · exact ih _ _
          · exact yields_next fun _ => yields_pure (.module ..)
          · exact yields_next fun _ => yields_pure (.module ..)
          · exact yields_pure (.module ..)
      · exact yields_throw _

theorem yields_function (fuel : Nat) : Yields (readFunction fuel) Regular := by
  cases fuel with
  | zero => exact yields_throw _
  | succ fuel =>
      exact yields_next fun _ => yields_next fun _ => yields_next fun _ => yields_pure (.define ..)

theorem yields_conditional (fuel : Nat) : Yields (readConditional fuel) Regular := by
  cases fuel with
  | zero => exact yields_throw _
  | succ fuel =>
      rw [readConditional]
      refine yields_next fun _ => yields_next fun token => ?_
      split
      · exact yields_next fun _ => yields_pure (.conditional ..)
      · refine yields_next fun _ => yields_next fun _ => yields_next fun _ => yields_next fun _ =>
          yields_next fun following => ?_
        split
        · exact yields_pure (.conditional ..)
        · split
          · exact yields_next fun _ => yields_pure (.conditional ..)
          · exact yields_pure (.conditional ..)

theorem yields_entries (fuel : Nat) (entries : List (String × Value)) :
    Yields (readEntries fuel entries) fun v => Regular (.datum v) := by
  have closes : ∀ entries, Yields (readEntries.closeObject entries) fun v => Regular (.datum v) := by
    intro entries
    refine yields_next fun _ => yields_next fun token => ?_
    split
    · exact yields_pure (.object entries)
    · exact yields_throw _
  induction fuel generalizing entries with
  | zero => exact yields_throw _
  | succ fuel ih =>
      rw [readEntries]
      refine yields_next fun token => ?_
      split
      · exact closes entries
      · split
        · exact closes entries
        · refine yields_next fun entry => yields_next fun _ => yields_next fun kind => ?_
          split
          · exact closes _
          · exact yields_next fun _ => ih _

/-- All that the readers of expressions give with some fuel is regular. -/
structure ReadsRegular (fuel : Nat) : Prop where
  top : Yields (readTop fuel) Regular
  expr (least : Int) : Yields (readExpr fuel least) Regular
  operators (least : Int) {left : Expr} (regular : Regular left) :
    Yields (readOperators fuel least left) Regular
  primary : Yields (readPrimary fuel) Regular
  name (name : String) : Yields (readName fuel name) Regular
  assignment (binding : Option String) (name : String) :
    Yields (readAssignment fuel binding name) Regular
  arguments : Yields (readArguments fuel) fun args => ∀ a ∈ args, Regular a
  moreArguments : Yields (readMoreArguments fuel) fun args => ∀ a ∈ args, Regular a
  ret : Yields (readReturn fuel) Regular

theorem readsRegular_zero : ReadsRegular 0 where
  top := yields_throw _
  expr _ := yields_throw _
  operators _ _ _ := yields_throw _
  primary := yields_throw _
  name _ := yields_throw _
  assignment _ _ := yields_throw _
  arguments := yields_throw _
  moreArguments := yields_throw _
  ret := yields_throw _

section Steps

variable {fuel : Nat} (reads : ReadsRegular fuel)

include reads

theorem yields_top : Yields (readTop (fuel + 1)) Regular := by
  rw [readTop]
  refine yields_next fun token => ?_
  split
  · exact yields_pure .missing
  · split
    · exact reads.expr 0
    · split
      · exact yields_next fun _ => yields_next fun _ => yields_module _ _ _
      · split
        · refine yields_next fun _ => yields_next fun name => yields_next fun _ =>
            yields_next fun following => ?_
          split
          · exact yields_next fun _ => reads.assignment _ _
          · exact yields_pure .missing
        · split
          · exact yields_next fun _ => yields_function _
          · split
            · exact reads.ret
            · split
              · exact yields_conditional _
              · split
                · exact yields_next fun _ => yields_throw _
                · exact yields_throw _

theorem yields_return : Yields (readReturn (fuel + 1)) Regular := by
  rw [readReturn]
  refine yields_next fun _ => yields_next fun kind => ?_
  split
  · exact yields_next fun _ => yields_pure (.ret .missing)
  · split
    · exact yields_pure (.ret .missing)
    · exact yields_bind (reads.expr 0) fun _ regular => yields_pure (.ret regular)

theorem yields_operators (least : Int) {left : Expr} (regular : Regular left) :
    Yields (readOperators (fuel + 1) least left) Regular := by
  rw [readOperators]
  refine yields_next fun token => ?_
  split
  · exact yields_pure regular
  · split
    · refine yields_next fun _ => ?_
      split
      · exact yields_pure (.unary _ regular)
      · exact yields_bind (reads.expr _) fun right regularRight =>
          reads.operators least (.binary _ regular regularRight)
    · split
      · exact yields_next fun _ => yields_pure regular
      · exact yields_pure regular

theorem yields_primary : Yields (readPrimary (fuel + 1)) Regular := by
  rw [readPrimary]
  refine yields_next fun token => ?_
  split
  · exact yields_pure .missing
  · split
    · refine yields_next fun _ => ?_
      split
      · exact yields_bind reads.primary fun _ regular => yields_pure (.unary _ regular)
      · exact yields_bind (reads.expr _) fun _ regular => yields_pure (.unary _ regular)
    · split
      · exact yields_next fun _ => yields_bind (reads.expr 0) fun _ regular =>
          yields_next fun _ => yields_pure regular
      · split
        · refine yields_next fun _ => yields_bind (Q := fun v => Regular (.datum v)) ?_ ?_
          · exact yields_next fun _ => yields_entries _ []
          · exact fun _ regular => yields_next fun _ => yields_pure regular
        · split
          · exact yields_next fun _ => yields_numberOf _
          · exact yields_next fun _ => yields_pure (.literal ⟨_, rfl⟩)
          · exact yields_next fun _ => reads.name _
          · refine yields_next fun _ => ?_
            split
            · rename_i word
              refine yields_pure (.literal ?_)
              simp only [Bool.or_eq_true, decide_eq_true_eq] at word
              rcases word with word | word
              · exact ⟨true, by rw [word]; rfl⟩
              · exact ⟨false, by rw [word]; rfl⟩
            · refine yields_next fun _ => ?_
              split
              · exact yields_bind reads.arguments fun _ each => yields_pure (.call _ each)
              · split
                · exact yields_throw _
                · exact yields_throw _
          · exact yields_throw _

theorem yields_name (name : String) : Yields (readName (fuel + 1) name) Regular := by
  rw [readName]
  refine yields_next fun following => ?_
  split
  · exact yields_next fun _ => yields_next fun _ => yields_pure (.property ..)
  · split
    · exact yields_bind reads.arguments fun _ each => yields_pure (.call _ each)
    · split
      · exact yields_next fun _ => reads.assignment none name
      · exact yields_pure (.ident name)

theorem yields_assignment (binding : Option String) (name : String) :
    Yields (readAssignment (fuel + 1) binding name) Regular := by
  rw [readAssignment]
  refine yields_next fun kind => ?_
  split
  · exact yields_pure (.assign _ _ .missing)
  · refine yields_branch (yields_pure .missing) (reads.expr 0) fun value regular =>
      yields_next fun token => ?_
    split
    · exact yields_pure (.assign _ _ regular)
    · split
      · exact yields_pure (.assign _ _ regular)
      · exact yields_next fun _ => yields_pure (.assign _ _ regular)

theorem yields_moreArguments :
    Yields (readMoreArguments (fuel + 1)) fun args => ∀ a ∈ args, Regular a := by
  rw [readMoreArguments]
  refine yields_next fun token => ?_
  split
  · exact yields_pure (by simp)
  · split
    · exact yields_next fun _ => yields_pure (by simp)
    · refine yields_bind reads.top fun argument regular => yields_next fun following => ?_
      split
      · refine yields_next fun _ => yields_bind reads.moreArguments fun args each => ?_
        exact yields_pure (List.forall_mem_cons.mpr ⟨regular, each⟩)
      · exact yields_next fun _ => yields_pure (List.forall_mem_singleton.mpr regular)

end Steps

theorem readsRegular (fuel : Nat) : ReadsRegular fuel := by
  induction fuel with
  | zero => exact readsRegular_zero
  | succ fuel reads =>
      exact {
        top := yields_top reads
        expr := fun least => yields_bind reads.primary fun _ regular => reads.operators least regular
        operators := fun least _ regular => yields_operators reads least regular
        primary := yields_primary reads
        name := yields_name reads
        assignment := yields_assignment reads
        arguments := yields_next fun _ => reads.moreArguments
        moreArguments := yields_moreArguments reads
        ret := yields_return reads }

theorem yields_program (fuel : Nat) :
    Yields (readProgram fuel) fun program => ∀ e ∈ program, Regular e := by
  induction fuel with
  | zero => exact yields_throw _
  | succ fuel ih =>
      rw [readProgram]
      refine yields_next fun token => ?_
      split
      · exact yields_pure (by simp)
      · split
        · exact yields_next fun _ => ih
        · refine yields_bind (Q := Regular) ?_ fun statement regular => ?_
          · exact yields_next fun tokens => (readsRegular _).top
          · refine yields_bind ih fun program each => ?_
            exact yields_pure (List.forall_mem_cons.mpr ⟨regular, each⟩)

end Reading

/-- Every statement of a program that was read is regular. -/
theorem Expr.ofTokens_regular {tokens : List Token} {program : List Expr}
    (read : ofTokens tokens = .ok program) : ∀ e ∈ program, Regular e :=
  Reading.yields_program _ tokens program _ (Prod.ext read rfl)

end Scriptlet
