import Scriptlet.Proofs.Expr.Contents
import Scriptlet.Proofs.Expr.Fuel

set_option autoImplicit false

/-!
Positions are for reports only. Wherever the scanner begins, it finds the same tokens but for their
positions, or a fault in each case (`scan_bare`), and the program that is read from tokens is the same
wherever they stood (`ofTokens_bare`).
-/

namespace Scriptlet

namespace Token

/-- A token without its position. -/
def bare (t : Token) : Token := { t with line := 0, pos := 0 }

/-- What a step of the scanner comes to, but for positions and reports. -/
def Step.bare (s : Step) : Option (Option Token) × List Char :=
  (s.found.toOption.map (Option.map Token.bare), s.rest)

theorem readString_blind (quote : Char) : ∀ (chars : List Char) (cursor cursor' : Cursor),
    (readString quote chars cursor).1 = (readString quote chars cursor').1 ∧
      (readString quote chars cursor).2.1 = (readString quote chars cursor').2.1 ∧
        (readString quote chars cursor).2.2.1 = (readString quote chars cursor').2.2.1
  | [], _, _ => ⟨rfl, rfl, rfl⟩
  | [c], _, _ => by
      simp only [readString]
      split
      · exact ⟨rfl, rfl, rfl⟩
      · split <;> exact ⟨rfl, rfl, rfl⟩
  | c :: d :: rest, cursor, cursor' => by
      simp only [readString]
      split
      · exact ⟨rfl, rfl, rfl⟩
      · split
        · split
          · obtain ⟨ending, contents, left⟩ :=
              readString_blind quote rest cursor.nextLine cursor'.nextLine
            exact ⟨ending, congrArg (List.cons _) contents, left⟩
          · obtain ⟨ending, contents, left⟩ :=
              readString_blind quote rest (cursor.skip 2) (cursor'.skip 2)
            exact ⟨ending, congrArg (List.cons _) contents, left⟩
        · obtain ⟨ending, contents, left⟩ :=
            readString_blind quote (d :: rest) (cursor.skip 1) (cursor'.skip 1)
          exact ⟨ending, congrArg (List.cons _) contents, left⟩

theorem skipBlock_blind (previous : Char) (chars : List Char) (cursor cursor' : Cursor) :
    (skipBlock previous chars cursor).1 = (skipBlock previous chars cursor').1 := by
  induction chars generalizing previous cursor cursor' with
  | nil => rfl
  | cons c rest ih =>
      simp only [skipBlock]
      split
      · rfl
      · split
        · exact ih c cursor.nextLine cursor'.nextLine
        · exact ih c (cursor.skip 1) (cursor'.skip 1)

section Steps

variable (source source' : String) (c : Char) (rest : List Char) (cursor cursor' : Cursor)

theorem scanOperator_blind :
    (scanOperator source c rest cursor).bare = (scanOperator source' c rest cursor').bare := by
  simp only [Step.bare, scanOperator]
  split <;> rfl

theorem scanNumber_blind :
    (scanNumber source c rest cursor).bare = (scanNumber source' c rest cursor').bare := by
  simp only [Step.bare, scanNumber]
  split <;> rfl

theorem scanString_blind :
    (scanString source c rest cursor).bare = (scanString source' c rest cursor').bare := by
  obtain ⟨ending, contents, left⟩ := readString_blind c rest cursor cursor'
  simp only [Step.bare, scanString, ending, contents, left]
  cases (readString c rest cursor').1 <;> rfl

theorem scanSlash_blind :
    (scanSlash source rest cursor).bare = (scanSlash source' rest cursor').bare := by
  unfold scanSlash
  split
  · rfl
  · rename_i body
    have skipped := skipBlock_blind '*' body cursor cursor'
    generalize skipBlock '*' body cursor = x at skipped ⊢
    generalize skipBlock '*' body cursor' = y at skipped ⊢
    obtain ⟨left, after⟩ := x
    obtain ⟨left', after'⟩ := y
    obtain rfl : left = left' := skipped
    cases left <;> rfl
  · exact scanOperator_blind source source' '/' rest cursor cursor'

theorem scanOther_blind :
    (scanOther source c rest cursor).bare = (scanOther source' c rest cursor').bare := by
  unfold scanOther
  split
  · rfl
  · exact scanNumber_blind source source' c rest cursor cursor'
  · split
    · exact scanOperator_blind source source' c rest cursor cursor'
    · rfl

theorem step_blind : (step source c rest cursor).bare = (step source' c rest cursor').bare := by
  unfold step
  split
  · rfl
  split
  · split <;> rfl
  split
  · exact scanSlash_blind source source' rest cursor cursor'
  split
  · rfl
  split
  · exact scanString_blind source source' c rest cursor cursor'
  split
  · rfl
  · exact scanOther_blind source source' c rest cursor cursor'

end Steps

/-- What a scan finds, but for positions and reports. -/
def seen (outcome : Except Fault (List Token)) : Option (List Token) :=
  outcome.toOption.map (List.map bare)

theorem seen_append (tokens : List Token) (outcome : Except Fault (List Token)) :
    seen (outcome.map (tokens ++ ·)) = (seen outcome).map (tokens.map bare ++ ·) := by
  cases outcome with
  | error fault => rfl
  | ok others => simp [seen, Except.map, Except.toOption]

theorem scanFrom_blind (source source' : String) (chars : List Char) (cursor cursor' : Cursor) :
    seen (scanFrom source chars cursor).1 = seen (scanFrom source' chars cursor').1 := by
  -- what a step leaves may be much shorter than the rest, so the induction is on the length
  induction length : chars.length using Nat.strongRecOn generalizing chars cursor cursor' with
  | ind n ih =>
      cases chars with
      | nil => rw [scanFrom, scanFrom]
      | cons c rest =>
          have shorter := step_length_le source c rest cursor.advance
          have same := step_blind source source' c rest cursor.advance cursor'.advance
          rw [scanFrom, scanFrom]
          generalize step source c rest cursor.advance = s at same shorter ⊢
          generalize step source' c rest cursor'.advance = s' at same ⊢
          obtain ⟨found, left, next⟩ := s
          obtain ⟨found', left', next'⟩ := s'
          obtain ⟨tokens, rfl⟩ := Prod.mk.inj same
          have less : left.length < n := by
            simp only [List.length_cons] at length
            simp only at shorter
            omega
          have others := ih left.length less left next next' rfl
          cases found with
          | error fault =>
              cases found' with
              | error fault' => rfl
              | ok token? => cases tokens
          | ok token? =>
              cases found' with
              | error fault' => cases tokens
              | ok token?' =>
                  have first : token?.toList.map bare = token?'.toList.map bare := by
                    have same := congrArg Option.toList (Option.some.inj tokens)
                    rwa [Option.toList_map, Option.toList_map] at same
                  show seen ((scanFrom source left next).1.map (token?.toList ++ ·)) =
                    seen ((scanFrom source' left next').1.map (token?'.toList ++ ·))
                  rw [seen_append, seen_append, others, first]

/-- Wherever the scanner begins, it finds the same tokens but for their positions, or a fault. -/
theorem scan_bare (text : String) (cursor cursor' : Cursor) :
    seen (scan text cursor).1 = seen (scan text cursor').1 :=
  scanFrom_blind text text text.toList cursor cursor'

end Token

namespace Reading

open Token (bare)

/-- A step of a reading on tokens without their positions. -/
def Symbol.bare : Symbol → Symbol
  | .token t => .token t.bare
  | s => s

/-- A step of a reading, and one that can be made instead on tokens without their positions. -/
inductive Symbol.Bare : Symbol → Symbol → Prop
  | token (t : Token) : Bare (.token t) (.token t.bare)
  | look {p q : Option Token → Prop} (kept : ∀ o, p o → q (o.map Token.bare)) :
      Bare (.look p) (.look q)
  | newlines (limit : Option Nat) : Bare (.newlines limit) (.newlines limit)
  | skip : Bare .skip .skip
  | part (f : Form) (a : f.Result) : Bare (.part f a) (.part f a)

/-- What is looked for does not depend on positions. -/
def Symbol.Blind (s : Symbol) : Prop := Symbol.Bare s s.bare

@[simp] theorem blind_token (t : Token) : (Symbol.token t).Blind := .token t

@[simp] theorem blind_newlines (limit : Option Nat) : (Symbol.newlines limit).Blind := .newlines limit

@[simp] theorem blind_skip : Symbol.skip.Blind := .skip

@[simp] theorem blind_part (f : Form) (a : f.Result) : (Symbol.part f a).Blind := .part f a

section Looking

variable (t : Token)

@[simp] theorem kind_bare : t.bare.kind = t.kind := rfl

@[simp] theorem value_bare : t.bare.value = t.value := rfl

@[simp] theorem inPath_bare : InPath t.bare ↔ InPath t := Iff.rfl

@[simp] theorem terminates_bare : Terminates t.bare ↔ Terminates t := Iff.rfl

@[simp] theorem keyword_bare (word : String) : Keyword t.bare word ↔ Keyword t word := Iff.rfl

@[simp] theorem branches_bare : Branches t.bare ↔ Branches t := Iff.rfl

@[simp] theorem closesBrace_bare : ClosesBrace t.bare ↔ ClosesBrace t := Iff.rfl

@[simp] theorem assigns_bare : Assigns t.bare ↔ Assigns t := Iff.rfl

@[simp] theorem operates_bare (least : Int) : Operates least t.bare ↔ Operates least t := Iff.rfl

@[simp] theorem parts_bare : Parts t.bare ↔ Parts t := Iff.rfl

@[simp] theorem parting_bare : Parting t.bare ↔ Parting t := Iff.rfl

end Looking

theorem bare_ahead {p q : Token → Prop} (kept : ∀ t, p t → q t.bare) :
    Symbol.Bare (.ahead p) (.ahead q) := by
  refine .look ?_
  rintro _ ⟨t, rfl, seen⟩
  exact ⟨t.bare, rfl, kept t seen⟩

theorem blind_look {p : Option Token → Prop} :
    (Symbol.look p).Blind ↔ ∀ o, p o → p (o.map Token.bare) := by
  constructor
  · rintro ⟨⟩
    assumption
  · exact .look

@[simp] theorem blind_ahead {p : Token → Prop} :
    (Symbol.ahead p).Blind ↔ ∀ t, p t → p t.bare := by
  rw [Symbol.ahead, blind_look]
  constructor
  · intro kept t seen
    obtain ⟨u, same, holds⟩ := kept (some t) ⟨t, rfl, seen⟩
    rwa [Option.some.inj same]
  · rintro kept _ ⟨t, rfl, seen⟩
    exact ⟨t.bare, rfl, kept t seen⟩

@[simp] theorem blind_endOr {p : Token → Prop} :
    (Symbol.endOr p).Blind ↔ ∀ t, p t → p t.bare := by
  rw [Symbol.endOr, blind_look]
  constructor
  · intro kept t seen
    refine kept (some t) ?_ t.bare rfl
    rintro u same
    rwa [← Option.some.inj same]
  · rintro kept (_ | t) seen u same
    · cases same
    · rw [← Option.some.inj same]
      exact kept t (seen t rfl)

@[simp] theorem blind_finish : Symbol.finish.Blind := by
  refine .look ?_
  rintro _ rfl
  rfl

/-- What can be read in this way can also be read from tokens without positions. -/
def Placeless (f : Form) (a : f.Result) (symbols : List Symbol) : Prop :=
  ∃ symbols', Production f a symbols' ∧ List.Forall₂ Symbol.Bare symbols symbols'

theorem placeless_of_bare {f : Form} {a : f.Result} {symbols : List Symbol}
    (production : Production f a (symbols.map Symbol.bare)) (blind : ∀ s ∈ symbols, s.Blind) :
    Placeless f a symbols := by
  refine ⟨symbols.map Symbol.bare, production, ?_⟩
  rw [List.forall₂_map_right_iff, List.forall₂_same]
  exact blind

theorem Production.placeless {f : Form} {a : f.Result} {symbols : List Symbol}
    (production : Production f a symbols) : Placeless f a symbols := by
  cases production with
  | pathOther => exact placeless_of_bare .pathOther (by simp)
  | pathEnd last => exact placeless_of_bare (.pathEnd last) (by simp)
  | @pathMore name parents t t' e step further =>
      -- the token that is looked at is among those of which the positions are lost
      have ahead : Symbol.Bare (.ahead (· = t')) (.ahead (· = t'.bare)) :=
        bare_ahead fun u same => congrArg Token.bare same
      exact ⟨_, @Production.pathMore _ _ t.bare t'.bare e step further,
        .cons (.token t) (.cons ahead (.cons (.part (.path _ _) e) .nil))⟩
  | @pathLast _ _ t t' step last =>
      exact placeless_of_bare (@Production.pathLast _ _ t.bare t'.bare step last) (by simp)
  | @pathStop _ _ t step =>
      exact placeless_of_bare (@Production.pathStop _ _ t.bare step) (by simp)
  | entriesNone => exact placeless_of_bare .entriesNone (by simp)
  | entriesLast => exact placeless_of_bare .entriesLast (by simp)
  | entriesMore comma => exact placeless_of_bare (.entriesMore comma) (by simp)
  | @entryWord key colon word labels isColon isWord =>
      exact placeless_of_bare
        (@Production.entryWord key.bare colon.bare word.bare labels isColon isWord)
        (by simp)
  | @entryObject key colon first last _ labels isColon opens closes =>
      exact placeless_of_bare
        (@Production.entryObject key.bare colon.bare first.bare last.bare _ labels isColon opens closes)
        (by simp)
  | nothing => exact placeless_of_bare .nothing (by simp)
  | expression => exact placeless_of_bare .expression (by simp)
  | imports word => exact placeless_of_bare (.imports word) (by simp)
  | defines binds isName assigns =>
      exact placeless_of_bare (.defines binds isName assigns) (by simp)
  | undefined binds isName => exact placeless_of_bare (.undefined binds isName) (by simp)
  | @function t name first _ _ word isName opens =>
      exact placeless_of_bare
        (@Production.function t.bare name.bare first.bare _ _ word isName opens)
        (by simp)
  | returnsNothing word last => exact placeless_of_bare (.returnsNothing word last) (by simp)
  | returnsLine word => exact placeless_of_bare (.returnsLine word) (by simp)
  | returnsValue word => exact placeless_of_bare (.returnsValue word) (by simp)
  | branches => exact placeless_of_bare .branches (by simp)
  | climbs => exact placeless_of_bare .climbs (by simp)
  | operatorsStop => exact placeless_of_bare .operatorsStop (by simp)
  | operatorsEnd last => exact placeless_of_bare (.operatorsEnd last) (by simp)
  | @post _ _ t operates doubled =>
      exact placeless_of_bare (@Production.post _ _ t.bare operates doubled) (by simp)
  | binary operates single => exact placeless_of_bare (.binary operates single) (by simp)
  | noOperand => exact placeless_of_bare .noOperand (by simp)
  | @sign t _ unary signed =>
      exact placeless_of_bare (@Production.sign t.bare _ unary signed) (by simp)
  | @double t _ unary unsigned =>
      exact placeless_of_bare (@Production.double t.bare _ unary unsigned) (by simp)
  | group opens closes => exact placeless_of_bare (.group opens closes) (by simp)
  | object opens closes => exact placeless_of_bare (.object opens closes) (by simp)
  | number kind plain value => exact placeless_of_bare (.number kind plain value) (by simp)
  | @string t kind plain =>
      exact placeless_of_bare (@Production.string t.bare kind plain) (by simp)
  | name kind plain => exact placeless_of_bare (.name kind plain) (by simp)
  | @truth t kind word =>
      exact placeless_of_bare (@Production.truth t.bare kind word) (by simp)
  | @keywordCall t first _ kind plain other opens =>
      exact placeless_of_bare
        (@Production.keywordCall t.bare first.bare _ kind plain other opens)
        (by simp)
  | property point => exact placeless_of_bare (.property point) (by simp)
  | call opens => exact placeless_of_bare (.call opens) (by simp)
  | reassigns equals => exact placeless_of_bare (.reassigns equals) (by simp)
  | itself => exact placeless_of_bare .itself (by simp)
  | valueless => exact placeless_of_bare .valueless (by simp)
  | valuelessEnd last => exact placeless_of_bare (.valuelessEnd last) (by simp)
  | value => exact placeless_of_bare .value (by simp)
  | valueEnd last => exact placeless_of_bare (.valueEnd last) (by simp)
  | argumentsStop => exact placeless_of_bare .argumentsStop (by simp)
  | argumentsEnd closes => exact placeless_of_bare (.argumentsEnd closes) (by simp)
  | argumentsMore parts parting => exact placeless_of_bare (.argumentsMore parts parting) (by simp)
  | argumentsGoOn => exact placeless_of_bare .argumentsGoOn (by simp)
  | argumentsLast other closes => exact placeless_of_bare (.argumentsLast other closes) (by simp)
  | parametersStop => exact placeless_of_bare .parametersStop (by simp)
  | parametersEnd closes => exact placeless_of_bare (.parametersEnd closes) (by simp)
  | parametersBrace => exact placeless_of_bare .parametersBrace (by simp)
  | @parametersLast t name _ binds isName =>
      exact placeless_of_bare (@Production.parametersLast t.bare name.bare _ binds isName) (by simp)
  | @parametersMore t name t' _ binds isName comma =>
      exact placeless_of_bare
        (@Production.parametersMore t.bare name.bare t'.bare _ binds isName comma)
        (by simp)
  | @parametersDefault t name t' _ _ binds isName colon =>
      exact placeless_of_bare
        (@Production.parametersDefault t.bare name.bare t'.bare _ _ binds isName colon)
        (by simp)
  | @otherwise t _ word =>
      exact placeless_of_bare (@Production.otherwise t.bare _ word) (by simp)
  | @lastBranch t first last _ _ word opens closes =>
      exact placeless_of_bare
        (@Production.lastBranch t.bare first.bare last.bare _ _ word opens closes)
        (by simp)
  | @branch t first last _ _ _ word opens closes =>
      exact placeless_of_bare
        (@Production.branch t.bare first.bare last.bare _ _ _ word opens closes)
        (by simp)
  | braced opens => exact placeless_of_bare (.braced opens) (by simp)
  | single => exact placeless_of_bare .single (by simp)
  | statementsEnd closes => exact placeless_of_bare (.statementsEnd closes) (by simp)
  | statementsMore => exact placeless_of_bare .statementsMore (by simp)

theorem dropNewlines_bare (limit : Option Nat) (tokens : List Token) :
    dropNewlines limit (tokens.map Token.bare) = (dropNewlines limit tokens).map Token.bare := by
  induction tokens generalizing limit with
  | nil => rfl
  | cons t tokens ih =>
      rw [List.map_cons, dropNewlines, dropNewlines, kind_bare]
      split
      · exact ih _
      · rfl

theorem Derives.bare {symbols : List Symbol} {tokens rest : List Token}
    (derives : Derives symbols tokens rest) {symbols' : List Symbol}
    (steps : List.Forall₂ Symbol.Bare symbols symbols') :
    Derives symbols' (tokens.map Token.bare) (rest.map Token.bare) := by
  induction derives generalizing symbols' with
  | nil =>
      cases steps
      exact .nil
  | token others ih =>
      cases steps with
      | cons first steps =>
          cases first
          exact .token (ih steps)
  | @look p symbols tokens rest seen others ih =>
      cases steps with
      | cons first steps =>
          cases first with
          | look kept =>
              refine .look ?_ (ih steps)
              rw [List.head?_map]
              exact kept _ seen
  | newlines others ih =>
      cases steps with
      | cons first steps =>
          cases first
          refine .newlines ?_
          rw [dropNewlines_bare]
          exact ih steps
  | skip others ih =>
      cases steps with
      | cons first steps =>
          cases first
          refine .skip ?_
          rw [← List.map_tail]
          exact ih steps
  | part production first others inner ih =>
      cases steps with
      | cons step steps =>
          cases step
          obtain ⟨symbols', production', steps'⟩ := production.placeless
          exact .part production' (inner steps') (ih steps)

theorem Sequence.bare {tokens rest : List Token} {program : List Expr}
    (sequence : Sequence tokens program rest) :
    Sequence (tokens.map Token.bare) program (rest.map Token.bare) := by
  induction sequence with
  | nil => exact .nil
  | newline kind others ih => exact .newline kind ih
  | statement kind first others ih =>
      exact .statement kind (first.bare (.cons (.part _ _) .nil)) ih

theorem similar_bare (tokens : List Token) : SameButStrings tokens (tokens.map Token.bare) := by
  induction tokens with
  | nil => exact .nil
  | cons t tokens ih => exact .cons ⟨rfl, Or.inl rfl⟩ (Or.inl rfl) ih

/-- The program that is read from tokens does not depend on their positions. -/
theorem ofTokens_bare {tokens : List Token} {program : List Expr} :
    Expr.ofTokens (tokens.map Token.bare) = .ok program ↔ Expr.ofTokens tokens = .ok program := by
  have forth {program : List Expr} (read : Expr.ofTokens tokens = .ok program) :
      Expr.ofTokens (tokens.map Token.bare) = .ok program :=
    ofTokens_ok_iff.mpr (ofTokens_ok_iff.mp read).bare
  refine ⟨fun read => ?_, forth⟩
  -- both are read or neither is, and what is read from the tokens is read from the bare ones
  have both := ofTokens_emptied (similar_bare tokens)
  cases ran : Expr.ofTokens tokens with
  | error fault =>
      rw [ran, read] at both
      cases both
  | ok other => rw [← read, forth ran]

end Reading

end Scriptlet
