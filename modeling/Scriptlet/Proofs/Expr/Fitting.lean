import Scriptlet.Proofs.Expr.Fuel
import Scriptlet.Proofs.Folding.Soundness
import Scriptlet.Proofs.Value.Renumber

set_option autoImplicit false

/-!
What an expression asks of the machine it runs on. `Expr.Fits` bounds the names that an expression may
look for, those of parameters and the values it may bring along, and says whether it may import a module
where it stands.
A program that was read brings no functions along (`ofTokens_fits`), nor does it when it is folded
(`foldProgram_fits`).
-/

namespace Scriptlet

/-- A value without functions, which other numbers leave as it is. -/
def Value.Unnumbered (v : Value) : Prop := ∀ f, v.renumber f = v

namespace Expr

/-- An expression looks for known names only, gives its parameters admitted names and brings along fixed
values only. Inside of a function its parameters are known as well. Whether imports may stand in the
expression is given by the flag; in the bodies of functions and in blocks they may, as no module is
found there. -/
inductive Fits (admits : String → Prop) (fixed : Value → Prop) : (String → Prop) → Bool → Expr → Prop
  | datum {known : String → Prop} {imports : Bool} {v : Value} (value : fixed v) :
      Fits admits fixed known imports (.datum v)
  | param {known : String → Prop} {imports : Bool} (p : Parameter) :
      Fits admits fixed known imports (.param p)
  | literal {known : String → Prop} {imports : Bool} {v : Value} (kind : LiteralKind)
      (value : fixed v) : Fits admits fixed known imports (.literal kind v)
  | ident {known : String → Prop} {imports : Bool} {name : String} (here : known name) :
      Fits admits fixed known imports (.ident name)
  -- Of what comes after the name only a call is evaluated.
  | property {known : String → Prop} {imports : Bool} {name : String} {index : Expr}
      (here : known name)
      (inner : ∀ callee args, index = .call callee args → Fits admits fixed known imports index) :
      Fits admits fixed known imports (.property name index)
  | unary {known : String → Prop} {imports : Bool} {operand : Expr} (operator : String)
      (inner : Fits admits fixed known imports operand) :
      Fits admits fixed known imports (.unary operator operand)
  | binary {known : String → Prop} {imports : Bool} {left right : Expr} (operator : String)
      (first : Fits admits fixed known imports left)
      (second : Fits admits fixed known imports right) :
      Fits admits fixed known imports (.binary operator left right)
  | assign {known : String → Prop} {imports : Bool} {name : String} {value : Expr}
      (binding : Option String) (here : known name)
      (inner : Fits admits fixed known imports value) :
      Fits admits fixed known imports (.assign binding name value)
  | call {known : String → Prop} {imports : Bool} {name : String} {args : List Expr}
      (here : known name) (each : ∀ e ∈ args, Fits admits fixed known imports e) :
      Fits admits fixed known imports (.call name args)
  | define {known : String → Prop} {imports : Bool} {name : String} {params : List Parameter}
      {body : List Expr} (here : known name)
      (parameters : ∀ p ∈ params, admits p.name ∧ fixed p.default.toValue)
      (each : ∀ e ∈ body,
        Fits admits fixed (fun x => known x ∨ x ∈ params.map Parameter.name) true e) :
      Fits admits fixed known imports (.define name params body)
  | ret {known : String → Prop} {imports : Bool} {value : Expr}
      (inner : Fits admits fixed known imports value) : Fits admits fixed known imports (.ret value)
  | conditional {known : String → Prop} {imports : Bool} {condition : Expr} {body : List Expr}
      {otherwise : Option (List Expr)} (keyword : String)
      (test : Fits admits fixed known imports condition)
      (each : ∀ e ∈ body, Fits admits fixed known true e)
      (other : ∀ e rest, otherwise = some (e :: rest) → Fits admits fixed known imports e) :
      Fits admits fixed known imports (.conditional keyword condition body otherwise)
  | module {known : String → Prop} (parents : List (Option String)) (name : Option String) :
      Fits admits fixed known true (.module parents name)

section Fitting

variable {admits admits' : String → Prop} {fixed fixed' : Value → Prop}

/-- Where every name is known and admitted and every value fixed, every expression fits. -/
theorem fits_any (lets : ∀ name, admits name) (fixes : ∀ v, fixed v) {known : String → Prop}
    (knows : ∀ name, known name) : ∀ e : Expr, Fits admits fixed known true e
  | .datum v => .datum (fixes v)
  | .param p => .param p
  | .literal kind v => .literal kind (fixes v)
  | .ident name => .ident (knows name)
  | .property name index => .property (knows name) fun _ _ _ => fits_any lets fixes knows index
  | .unary operator operand => .unary operator (fits_any lets fixes knows operand)
  | .binary operator left right =>
      .binary operator (fits_any lets fixes knows left) (fits_any lets fixes knows right)
  | .assign binding name value => .assign binding (knows name) (fits_any lets fixes knows value)
  | .call name args => .call (knows name) fun e _ => fits_any lets fixes knows e
  | .define name params body =>
      .define (knows name) (fun _ _ => ⟨lets _, fixes _⟩) fun e _ =>
        fits_any lets fixes (fun x => Or.inl (knows x)) e
  | .ret value => .ret (fits_any lets fixes knows value)
  | .conditional keyword condition body otherwise =>
      .conditional keyword (fits_any lets fixes knows condition)
        (fun e _ => fits_any lets fixes knows e) fun e _ _ => fits_any lets fixes knows e
  | .module parents name => .module parents name

/-- The parameters of a function have admitted names, and the function looks for known names and its
parameters only, and brings along fixed values only. -/
def BodyFits (admits : String → Prop) (fixed : Value → Prop) (known : String → Prop)
    (params : List Parameter) (body : List Expr) : Prop :=
  (∀ p ∈ params, admits p.name ∧ fixed p.default.toValue) ∧
    ∀ e ∈ body, Fits admits fixed (fun x => known x ∨ x ∈ params.map Parameter.name) true e

theorem Fits.mono {known known' : String → Prop} {imports : Bool} {e : Expr}
    (lets : ∀ name, admits name → admits' name) (fixes : ∀ v, fixed v → fixed' v)
    (knows : ∀ name, known name → known' name) (fits : Fits admits fixed known imports e) :
    Fits admits' fixed' known' imports e := by
  induction fits generalizing known' with
  | datum value => exact .datum (fixes _ value)
  | param p => exact .param p
  | literal kind value => exact .literal kind (fixes _ value)
  | ident here => exact .ident (knows _ here)
  | property here _ ih => exact .property (knows _ here) fun callee args is => ih callee args is knows
  | unary operator _ ih => exact .unary operator (ih knows)
  | binary operator _ _ first second => exact .binary operator (first knows) (second knows)
  | assign binding here _ ih => exact .assign binding (knows _ here) (ih knows)
  | call here _ ih => exact .call (knows _ here) fun e sees => ih e sees knows
  | define here parameters _ ih =>
      refine .define (knows _ here) ?_ fun e sees => ih e sees fun x => Or.imp_left (knows x)
      intro p has
      exact ⟨lets _ (parameters p has).1, fixes _ (parameters p has).2⟩
  | ret _ ih => exact .ret (ih knows)
  | conditional keyword _ _ _ test each other =>
      exact .conditional keyword (test knows) (fun e sees => each e sees knows)
        fun e rest is => other e rest is knows
  | module parents name => exact .module parents name

theorem BodyFits.mono {known known' : String → Prop} {params : List Parameter} {body : List Expr}
    (lets : ∀ name, admits name → admits' name) (fixes : ∀ v, fixed v → fixed' v)
    (knows : ∀ name, known name → known' name) (fits : BodyFits admits fixed known params body) :
    BodyFits admits' fixed' known' params body :=
  ⟨fun p has => ⟨lets _ (fits.1 p has).1, fixes _ (fits.1 p has).2⟩,
    fun e sees => (fits.2 e sees).mono lets fixes fun x => Or.imp_left (knows x)⟩

end Fitting

/-- An expression that can be read: it may look for any name, and it brings no functions along, also
where it is not evaluated but taken as a value. -/
structure Readable (e : Expr) : Prop where
  fits : Fits (fun _ => True) Value.Unnumbered (fun _ => True) true e
  unnumbered : ∀ f, e.renumber f = e

theorem Readable.toValue {e : Expr} (readable : Readable e) : e.toValue.Unnumbered := by
  intro f
  rw [← toValue_renumber, readable.unnumbered f]

end Expr

namespace Value

theorem unnumbered_str (s : String) : (str s).Unnumbered := fun _ => renumber_str s

theorem unnumbered_null : null.Unnumbered := fun _ => renumber_null

theorem unnumbered_empty : (obj []).Unnumbered := fun _ => by rw [renumber_obj, renumberEntries]

theorem renumberEntries_putEntry (f : Nat → Nat) (key : String) (v : Value)
    (entries : List (String × Value)) :
    renumberEntries f (putEntry key v entries) =
      putEntry key (v.renumber f) (renumberEntries f entries) := by
  induction entries with
  | nil => rfl
  | cons e rest ih =>
      obtain ⟨k, w⟩ := e
      by_cases here : k = key <;> simp [putEntry, renumberEntries, here, ih]

theorem unnumbered_putEntry {key : String} {v : Value} {entries : List (String × Value)}
    (value : v.Unnumbered) (object : (obj entries).Unnumbered) :
    (obj (putEntry key v entries)).Unnumbered := by
  intro f
  have same : renumberEntries f entries = entries := by simpa using object f
  rw [renumber_obj, renumberEntries_putEntry, same, value f]

end Value

namespace Reading

open Scriptlet.Expr (Readable Fits)

/-- What is read brings no functions along. -/
def Form.Clean : (f : Form) → f.Result → Prop
  | .entries _, v => v.Unnumbered
  | .entry, e => e.2.Unnumbered
  | .arguments, es | .block, es | .statements, es => ∀ e ∈ es, Readable e
  | .parameters, params => ∀ p ∈ params, p.default.toValue.Unnumbered
  | .path _ _, e | .statement, e | .expression _, e | .operators _ _, e | .operand, e | .usage _, e
  | .assignment _ _, e | .conditional, e => Readable e

/-- What was read before brings no functions along. -/
def Form.Given : Form → Prop
  | .entries before => (Value.obj before).Unnumbered
  | .operators _ left => Readable left
  | _ => True

/-- No part brings functions along, if none did before. -/
def Clean : List Symbol → Prop
  | [] => True
  | .part f a :: symbols => (f.Given → f.Clean a) ∧ Clean symbols
  | _ :: symbols => Clean symbols

section Readable

variable {e l r : Expr} {es : List Expr} {v : Value}

theorem readable_datum (value : v.Unnumbered) : Readable (.datum v) :=
  ⟨.datum value, fun f => by rw [Expr.renumber, value f]⟩

theorem readable_literal (kind : LiteralKind) (value : v.Unnumbered) : Readable (.literal kind v) :=
  ⟨.literal kind value, fun f => by rw [Expr.renumber, value f]⟩

theorem readable_missing : Readable .missing := readable_datum Value.unnumbered_null

theorem readable_unary (operator : String) (inner : Readable e) : Readable (.unary operator e) :=
  ⟨.unary operator inner.fits, fun f => by rw [Expr.renumber, inner.unnumbered f]⟩

theorem readable_binary (operator : String) (left : Readable l) (right : Readable r) :
    Readable (.binary operator l r) :=
  ⟨.binary operator left.fits right.fits, fun f => by rw [Expr.renumber]⟩

theorem readable_assign (binding : Option String) (name : String) (inner : Readable e) :
    Readable (.assign binding name e) :=
  ⟨.assign binding trivial inner.fits, fun f => by rw [Expr.renumber, inner.unnumbered f]⟩

theorem readable_call (name : String) (each : ∀ e ∈ es, Readable e) : Readable (.call name es) :=
  ⟨.call trivial fun e sees => (each e sees).fits, fun f => by rw [Expr.renumber]⟩

theorem readable_define (name : String) {params : List Parameter}
    (defaults : ∀ p ∈ params, p.default.toValue.Unnumbered) (each : ∀ e ∈ es, Readable e) :
    Readable (.define name params es) :=
  ⟨.define trivial (fun p sees => ⟨trivial, defaults p sees⟩) fun e sees =>
    (each e sees).fits.mono (fun _ => id) (fun _ => id) fun _ => Or.inl, fun f => by rw [Expr.renumber]⟩

theorem readable_ret (inner : Readable e) : Readable (.ret e) :=
  ⟨.ret inner.fits, fun f => by rw [Expr.renumber, inner.unnumbered f]⟩

theorem readable_ident (name : String) : Readable (.ident name) :=
  ⟨.ident trivial, fun f => by rw [Expr.renumber]⟩

theorem readable_property (name : String) (inner : Readable e) : Readable (.property name e) :=
  ⟨.property trivial fun _ _ _ => inner.fits, fun f => by rw [Expr.renumber]⟩

theorem readable_module (parents : List (Option String)) (name : Option String) :
    Readable (.module parents name) :=
  ⟨.module parents name, fun f => by rw [Expr.renumber]⟩

theorem readable_conditional (keyword : String) {otherwise : Option (List Expr)} (test : Readable e)
    (each : ∀ e ∈ es, Readable e) (other : ∀ e rest, otherwise = some (e :: rest) → Readable e) :
    Readable (.conditional keyword e es otherwise) :=
  ⟨.conditional keyword test.fits (fun e sees => (each e sees).fits)
    fun e rest same => (other e rest same).fits, fun f => by rw [Expr.renumber]⟩

theorem readable_numberOf {text : String} (value : numberOf text = .ok e) : Readable e := by
  unfold numberOf at value
  split at value
  · obtain ⟨x, -, rfl⟩ := Fault.map_eq_ok.mp value
    exact readable_literal .floating fun f => by rw [Value.renumber]
  · obtain ⟨n, -, rfl⟩ := Fault.map_eq_ok.mp value
    exact readable_literal .integer fun f => Value.renumber_int n

end Readable

theorem Production.clean {f : Form} {a : f.Result} {symbols : List Symbol}
    (production : Production f a symbols) (parts : Clean symbols) (given : f.Given) : f.Clean a := by
  cases production
  all_goals simp only [Clean, Form.Clean, Form.Given, Symbol.ahead, Symbol.endOr, Symbol.finish,
    forall_const, and_true] at parts given ⊢
  case pathOther | pathEnd | pathLast | pathStop => exact readable_module ..
  case pathMore | expression | imports | defines | branches | group | name | reassigns | braced =>
    exact parts
  case entriesNone | operatorsStop | operatorsEnd => exact given
  case entriesLast => exact Value.unnumbered_putEntry parts given
  case entriesMore => exact parts.2 (Value.unnumbered_putEntry parts.1 given)
  case entryWord => exact Value.unnumbered_str _
  case entryObject => exact parts Value.unnumbered_empty
  case nothing | undefined | noOperand => exact readable_missing
  case function => exact readable_define _ parts.1 parts.2
  case returnsNothing | returnsLine => exact readable_ret readable_missing
  case returnsValue => exact readable_ret parts
  case climbs => exact parts.2 parts.1
  case post => exact readable_unary _ given
  case binary => exact parts.2 (readable_binary _ given parts.1)
  case sign | double => exact readable_unary _ parts
  case object => exact readable_datum (parts Value.unnumbered_empty)
  case number value => exact readable_numberOf value
  case string | truth => exact readable_literal _ (Value.unnumbered_str _)
  case keywordCall | call => exact readable_call _ parts
  case property => exact readable_property _ parts
  case itself => exact readable_ident _
  case valueless | valuelessEnd => exact readable_assign _ _ readable_missing
  case value | valueEnd => exact readable_assign _ _ parts
  case argumentsStop | argumentsEnd | parametersStop | parametersEnd | parametersBrace
    | statementsEnd => exact List.forall_mem_nil _
  case argumentsMore | argumentsGoOn | statementsMore => exact List.forall_mem_cons.mpr parts
  case argumentsLast | single => exact List.forall_mem_singleton.mpr parts
  case parametersLast | parametersMore =>
    exact List.forall_mem_cons.mpr ⟨readable_missing.toValue, parts⟩
  case parametersDefault => exact List.forall_mem_cons.mpr ⟨parts.1.toValue, parts.2⟩
  case otherwise => exact readable_conditional _ readable_missing parts (by simp)
  case lastBranch => exact readable_conditional _ parts.1 parts.2 (by simp)
  case branch =>
    refine readable_conditional _ parts.1 parts.2.1 ?_
    intro e rest same
    cases same
    exact parts.2.2

theorem Derives.clean {symbols : List Symbol} {tokens rest : List Token}
    (derives : Derives symbols tokens rest) : Clean symbols := by
  induction derives with
  | nil => exact trivial
  | token others ih => exact ih
  | look seen others ih => exact ih
  | newlines others ih => exact ih
  | skip others ih => exact ih
  | part production first others ihFirst ihOthers => exact ⟨production.clean ihFirst, ihOthers⟩

theorem Sequence.readable {tokens rest : List Token} {program : List Expr}
    (sequence : Sequence tokens program rest) : ∀ e ∈ program, Readable e := by
  induction sequence with
  | nil => exact List.forall_mem_nil _
  | newline kind others ih => exact ih
  | statement kind first others ih => exact List.forall_mem_cons.mpr ⟨first.clean.1 trivial, ih⟩

end Reading

namespace Expr

theorem ofTokens_fits {tokens : List Token} {program : List Expr}
    (read : ofTokens tokens = .ok program) :
    ∀ e ∈ program, Fits (fun _ => True) Value.Unnumbered (fun _ => True) true e :=
  fun e sees => ((Reading.ofTokens_ok_iff.mp read).readable e sees).fits

section Folding

variable {admits known : String → Prop} {imports : Bool}

theorem fits_of_stands {e : Expr} {v : Value} (stands : Stands e v) :
    Fits admits Value.Unnumbered known imports e := by
  obtain ⟨kind, rfl, holds, -⟩ := stands
  refine .literal kind fun f => ?_
  cases kind with
  | integer =>
      obtain ⟨n, rfl⟩ := holds
      exact Value.renumber_int n
  | floating =>
      rcases holds with ⟨x, rfl⟩ | ⟨b, rfl⟩
      · rw [Value.renumber]
      · exact Value.truth_renumber b
  | string =>
      obtain ⟨s, rfl⟩ := holds
      exact Value.renumber_str s
  | boolean =>
      obtain ⟨b, rfl⟩ := holds
      exact Value.truth_renumber b
  | null => exact holds.elim

theorem foldAll_fits {es es' after : List Expr}
    (each : ∀ e ∈ es, ∀ e' left, fold e = (.ok e', left) →
      Fits admits Value.Unnumbered known imports e' ∧ Fits admits Value.Unnumbered known imports left)
    (folded : foldAll es = (.ok es', after)) :
    ∀ e ∈ es', Fits admits Value.Unnumbered known imports e := by
  induction es generalizing es' after with
  | nil =>
      obtain ⟨result, -⟩ := Prod.mk.inj folded
      obtain rfl := Except.ok.inj result
      exact List.forall_mem_nil _
  | cons e rest ih =>
      obtain ⟨e', others, left, right, first, second, rfl, -⟩ := foldAll_cons_ok folded
      obtain ⟨here, there⟩ := List.forall_mem_cons.mp each
      exact List.forall_mem_cons.mpr ⟨(here e' left first).1, ih there second⟩

/-- Folding brings no functions into an expression, and leaves none in what it was given. -/
theorem fold_fits {e e' after : Expr} (regular : Regular e)
    (fits : Fits admits Value.Unnumbered known imports e) (folded : fold e = (.ok e', after)) :
    Fits admits Value.Unnumbered known imports e' ∧ Fits admits Value.Unnumbered known imports after := by
  induction regular generalizing e' after with
  | unary symbol inside operand =>
      cases fits with
      | unary _ inner =>
      obtain ⟨x', left, ran, rfl, step⟩ := fold_unary_ok folded
      have whole := Fits.unary symbol (operand inner ran).2
      rcases foldUnary_ok (fold_regular inside ran).1 step with rfl | ⟨_, _, _, _, _, _, stands⟩
      · exact ⟨whole, whole⟩
      · exact ⟨fits_of_stands stands, whole⟩
  | binary symbol insideLeft insideRight first second =>
      cases fits with
      | binary _ fitsLeft fitsRight =>
      obtain ⟨l', r', left, right, ranLeft, ranRight, rfl, step⟩ := fold_binary_ok folded
      have whole := Fits.binary symbol (first fitsLeft ranLeft).2 (second fitsRight ranRight).2
      rcases foldBinary_ok (fold_regular insideLeft ranLeft).1 (fold_regular insideRight ranRight).1
        step with rfl | ⟨_, _, _, _, _, _, _, _, stands, _⟩
      · exact ⟨whole, whole⟩
      · exact ⟨fits_of_stands stands, whole⟩
  | assign binding name inside value =>
      cases fits with
      | assign _ here inner =>
      obtain ⟨x', left, ran, rfl, rfl⟩ := fold_assign_ok folded
      have whole := Fits.assign binding here (value inner ran).1
      exact ⟨whole, whole⟩
  | call name inside each =>
      cases fits with
      | call here args =>
      obtain ⟨args', left, ran, rfl, rfl⟩ := fold_call_ok folded
      have whole := Fits.call here
        (foldAll_fits (fun a sees _ _ ran => each a sees (args a sees) ran) ran)
      exact ⟨whole, whole⟩
  | _ =>
      obtain ⟨result, rfl⟩ := Prod.mk.inj folded
      obtain rfl := Except.ok.inj result
      exact ⟨fits, fits⟩

end Folding

theorem foldProgram_fits {tokens : List Token} {program folded : List Expr}
    (read : ofTokens tokens = .ok program) (succeeds : (foldProgram program).1 = .ok folded) :
    ∀ e ∈ folded, Fits (fun _ => True) Value.Unnumbered (fun _ => True) true e := by
  have regular := ofTokens_regular read
  have fits := ofTokens_fits read
  rw [foldProgram] at succeeds
  cases ran : foldAll program with
  | mk outcome after =>
      rw [ran] at succeeds
      cases outcome with
      | error fault => cases succeeds
      | ok es =>
          have direct : es.flatMap spread = es :=
            flatMap_spread (foldAll_regular
              (fun e sees _ _ ran => fold_regular (regular e sees) ran) ran)
          obtain rfl : es = folded := direct.symm.trans (Except.ok.inj succeeds)
          exact foldAll_fits (fun e sees _ _ ran => fold_fits (regular e sees) (fits e sees) ran) ran

end Expr

end Scriptlet
