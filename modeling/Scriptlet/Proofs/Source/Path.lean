import Scriptlet.Proofs.Expr.Separation
import Scriptlet.Proofs.Source.RoundTrip

set_option autoImplicit false

/-!
Paths of keys after the name of an object. A key is a name or a keyword. A path of names is read as
properties inside of properties. Where a keyword stands in the place of a key it is not a key: what is
read there is a return or an import, if anything is.
-/

namespace Scriptlet

/-- A variable, or its property at a path of keys. -/
def Expr.access (name : String) : List String → Expr
  | [] => .ident name
  | key :: rest => .property name (access key rest)

namespace Reading

section Inversion

variable {t u newline : Token} {tokens left : List Token} {e : Expr}

/-- Where nothing goes on with an expression it ends. -/
theorem operators_stop {l : Expr} (reads : Reads (.operators 0 l) tokens e left)
    (loose : Loose (-1) tokens) : e = l ∧ left = tokens := by
  have apart {t : Token} {rest : List Token} (here : tokens = t :: rest) :
      t.kind ≠ some .semicolon ∧ ¬ Operates 0 t := by
    obtain ⟨other, bound⟩ := loose t (by simp [here])
    refine ⟨other, fun operates => ?_⟩
    have low := bound operates.1
    have high := operates.2
    omega
  obtain ⟨symbols, production, steps⟩ := reads_iff.mp reads
  cases production with
  | operatorsStop =>
      simp only [Symbol.endOr, derives_look, derives_nil] at steps
      exact ⟨rfl, steps.2.symm⟩
  | operatorsEnd last =>
      obtain ⟨_, here, -⟩ := derives_token.mp steps
      exact absurd last (apart here).1
  | post operates =>
      obtain ⟨_, here, -⟩ := derives_token.mp steps
      exact absurd operates (apart here).2
  | binary operates =>
      obtain ⟨_, here, -⟩ := derives_token.mp steps
      exact absurd operates (apart here).2

theorem token_first {symbols : List Symbol} (steps : Derives (.token u :: symbols) (t :: tokens) left) :
    u = t := by
  obtain ⟨_, same, -⟩ := derives_token.mp steps
  exact (List.cons.inj same).1.symm

/-- An operand that begins with a name is a use of the name. -/
theorem operand_name (kind : t.kind = some .identifier) (plain : Plain t)
    (reads : Reads .operand (t :: tokens) e left) : Reads (.usage t.value) tokens e left := by
  have other : t.kind ≠ some .newline := by simp [kind]
  obtain ⟨symbols, production, steps⟩ := reads_iff.mp reads
  cases production with
  | noOperand =>
      simp [derives_newlines, dropNewlines_cons tokens none other, Symbol.finish, derives_look] at steps
  | sign unary =>
      obtain rfl := derives_first other steps
      exact absurd unary (by simp [plain.1])
  | double unary =>
      obtain rfl := derives_first other steps
      exact absurd unary (by simp [plain.1])
  | group opens =>
      obtain rfl := derives_first other steps
      exact absurd opens.2 plain.2.1
  | object opens =>
      obtain rfl := derives_first other steps
      exact absurd opens.2 plain.2.2
  | number wrong =>
      obtain rfl := derives_first other steps
      simp [kind] at wrong
  | string wrong =>
      obtain rfl := derives_first other steps
      simp [kind] at wrong
  | truth wrong =>
      obtain rfl := derives_first other steps
      simp [kind] at wrong
  | keywordCall wrong =>
      obtain rfl := derives_first other steps
      simp [kind] at wrong
  | name =>
      simp only [derives_newlines, dropNewlines_cons tokens none other, derives_token, derives_part,
        derives_nil, List.cons.injEq] at steps
      obtain ⟨_, ⟨rfl, rfl⟩, _, usage, rfl⟩ := steps
      exact usage

/-- A statement that begins with a name is a use of the name, with the operators that follow. -/
theorem statement_name (kind : t.kind = some .identifier) (plain : Plain t)
    (reads : Reads .statement (t :: tokens) e left) :
    ∃ l rest, Reads (.usage t.value) tokens l rest ∧ Reads (.operators 0 l) rest e left := by
  have keyword {u : Token} {symbols : List Symbol}
      (steps : Derives (.token u :: symbols) (t :: tokens) left) : u.kind ≠ some .keyword := by
    rw [token_first steps, kind]
    simp
  obtain ⟨symbols, production, steps⟩ := reads_iff.mp reads
  cases production with
  | nothing => simp [Symbol.finish, derives_look] at steps
  | expression =>
      simp only [derives_ahead, derives_part, derives_nil] at steps
      obtain ⟨_, _, -, -, _, value, rfl⟩ := steps
      obtain ⟨_, climbs, inner⟩ := reads_iff.mp value
      cases climbs with
      | climbs =>
          simp only [derives_part, derives_nil] at inner
          obtain ⟨rest, operand, _, operators, rfl⟩ := inner
          exact ⟨_, rest, operand_name kind plain operand, operators⟩
  | branches =>
      obtain ⟨_, _, same, word, -⟩ := derives_ahead.mp steps
      obtain ⟨rfl, rfl⟩ := List.cons.inj same
      exact absurd word.1 (by simp [kind])
  | imports word => exact absurd word.1 (keyword steps)
  | defines binds => exact absurd binds.1 (keyword steps)
  | undefined binds => exact absurd binds.1 (keyword steps)
  | function word => exact absurd word.1 (keyword steps)
  | returnsNothing word => exact absurd word.1 (keyword steps)
  | returnsLine word => exact absurd word.1 (keyword steps)
  | returnsValue word => exact absurd word.1 (keyword steps)

theorem usage_newline {name : String} (breaks : Breaks newline)
    (reads : Reads (.usage name) (newline :: tokens) e left) :
    e = .ident name ∧ left = newline :: tokens := by
  obtain ⟨symbols, production, steps⟩ := reads_iff.mp reads
  cases production with
  | property point =>
      rw [token_first steps, breaks.2] at point
      simp at point
  | call opens =>
      have value := opens.2
      rw [token_first steps, breaks.2] at value
      simp at value
  | reassigns equals =>
      rw [token_first steps, breaks.2] at equals
      simp at equals
  | itself =>
      simp only [derives_ahead, derives_nil] at steps
      obtain ⟨_, _, -, -, rfl⟩ := steps
      exact ⟨rfl, rfl⟩

theorem usage_point {name : String} (points : u.value = ".")
    (reads : Reads (.usage name) (u :: tokens) e left) :
    ∃ index, e = .property name index ∧ Reads .statement tokens index left := by
  obtain ⟨symbols, production, steps⟩ := reads_iff.mp reads
  cases production with
  | property point =>
      simp only [derives_token, derives_part, derives_nil, List.cons.injEq] at steps
      obtain ⟨_, ⟨rfl, rfl⟩, _, inner, rfl⟩ := steps
      exact ⟨_, rfl, inner⟩
  | call opens =>
      have value := opens.2
      rw [token_first steps, points] at value
      simp at value
  | reassigns equals =>
      rw [token_first steps, points] at equals
      simp at equals
  | itself =>
      obtain ⟨_, _, same, other, -⟩ := derives_ahead.mp steps
      obtain ⟨rfl, rfl⟩ := List.cons.inj same
      exact absurd points other.1

/-- What stands on a line after a keyword in the place of a key: points, names and keywords. -/
def OnPath (t : Token) : Prop := InPath t ∨ t.kind = some .keyword

/-- The path of an import is read up to the end of the line, or to a keyword. -/
theorem path_stops {name : Option String} {parents : List (Option String)}
    (plain : ∀ t ∈ tokens, OnPath t) (breaks : Breaks newline)
    (reads : Reads (.path name parents) (tokens ++ [newline]) e left) : Loose (-1) left := by
  induction tokens generalizing name parents with
  | nil =>
      obtain ⟨symbols, production, steps⟩ := reads_iff.mp reads
      have apart {t : Token} {symbols : List Symbol} (step : InPath t)
          (steps : Derives (.token t :: symbols) [newline] left) : False := by
        rw [token_first steps] at step
        simp [InPath, breaks.1] at step
      cases production with
      | pathOther =>
          simp only [List.nil_append, derives_ahead, List.cons.injEq] at steps
          obtain ⟨_, _, ⟨rfl, -⟩, wrong, -⟩ := steps
          simp [breaks.1] at wrong
      | pathEnd =>
          simp only [List.nil_append, derives_token, derives_nil, List.cons.injEq] at steps
          obtain ⟨_, ⟨-, rfl⟩, rfl⟩ := steps
          simp [Loose]
      | pathMore step => exact (apart step steps).elim
      | pathLast step => exact (apart step steps).elim
      | pathStop step => exact (apart step steps).elim
  | cons t tokens ih =>
      obtain ⟨here, others⟩ := List.forall_mem_cons.mp plain
      obtain ⟨symbols, production, steps⟩ := reads_iff.mp reads
      cases production with
      | pathOther =>
          obtain ⟨_, _, same, wrong, -⟩ := derives_ahead.mp steps
          obtain ⟨rfl, -⟩ := List.cons.inj same
          rcases here with (kind | kind) | kind <;> simp [kind] at wrong
      | pathEnd last =>
          rw [token_first steps] at last
          rcases here with (kind | kind) | kind <;> simp [Terminates, kind] at last
      | pathMore =>
          simp only [List.cons_append, derives_token, derives_ahead, derives_part, derives_nil,
            List.cons.injEq] at steps
          obtain ⟨_, ⟨-, rfl⟩, _, _, -, -, _, further, rfl⟩ := steps
          exact ih others further
      | pathLast step last =>
          simp only [List.cons_append, derives_token, derives_nil, List.cons.injEq] at steps
          obtain ⟨_, ⟨-, rfl⟩, _, same, rfl⟩ := steps
          cases tokens with
          | nil =>
              obtain ⟨-, rfl⟩ := List.cons.inj same
              simp [Loose]
          | cons v tokens =>
              obtain ⟨rfl, -⟩ := List.cons.inj same
              rcases others v List.mem_cons_self with (kind | kind) | kind <;>
                simp [Terminates, kind] at last
      | pathStop =>
          simp only [List.cons_append, derives_token, derives_ahead, derives_nil, List.cons.injEq]
            at steps
          obtain ⟨_, ⟨-, rfl⟩, v, _, same, ⟨outside, unfinished⟩, rfl⟩ := steps
          intro w isFirst
          obtain rfl : v = w := by simpa [same] using isFirst
          exact ⟨fun kind => unfinished (Or.inr kind), fun kind => absurd (Or.inr kind) outside⟩

/-- After a keyword in the place of a key there is a point or the end of the line, so that only a return
or an import can be read. -/
theorem statement_keyword (kind : t.kind = some .keyword) (plain : ∀ u ∈ tokens, OnPath u)
    (point : ∀ u ∈ tokens.head?, u.Spells ⟨.operator, "."⟩) (breaks : Breaks newline)
    (reads : Reads .statement (t :: (tokens ++ [newline])) e left) :
    (e = .ret .missing ∨ ∃ parents name, e = .module parents name) ∧ Loose (-1) left := by
  have second {u : Token} {rest : List Token} (next : tokens ++ [newline] = u :: rest) :
      u.kind = some .newline ∨ u.Spells ⟨.operator, "."⟩ := by
    cases tokens with
    | nil =>
        obtain ⟨rfl, -⟩ := List.cons.inj next
        exact Or.inl breaks.1
    | cons v tokens =>
        obtain ⟨rfl, -⟩ := List.cons.inj next
        exact Or.inr (point v (by simp))
  have apart {u v : Token} {symbols : List Symbol}
      (steps : Derives (.token u :: .token v :: symbols) (t :: (tokens ++ [newline])) left) :
      v.kind ≠ some .identifier ∧ v.kind ≠ some .lparen ∧ v.kind ≠ some .semicolon := by
    simp only [derives_token, List.cons.injEq] at steps
    obtain ⟨_, ⟨-, rfl⟩, _, next, -⟩ := steps
    rcases second next with kind | ⟨kind, -⟩ <;> simp [kind]
  obtain ⟨symbols, production, steps⟩ := reads_iff.mp reads
  cases production with
  | nothing => simp [Symbol.finish, derives_look] at steps
  | expression =>
      obtain ⟨_, _, same, other, -⟩ := derives_ahead.mp steps
      obtain ⟨rfl, -⟩ := List.cons.inj same
      exact absurd kind other
  | imports =>
      simp only [derives_token, derives_part, derives_nil, List.cons.injEq] at steps
      obtain ⟨_, ⟨-, rfl⟩, _, path, rfl⟩ := steps
      exact ⟨Or.inr (path_result path), path_stops plain breaks path⟩
  | defines _ isName => exact absurd isName (apart steps).1
  | undefined _ isName => exact absurd isName (apart steps).1
  | function _ isName => exact absurd isName (apart steps).1
  | returnsNothing _ last => exact absurd last (apart steps).2.2
  | returnsLine =>
      simp only [derives_token, derives_ahead, derives_nil, List.cons.injEq] at steps
      obtain ⟨_, ⟨-, rfl⟩, u, rest, next, line, rfl⟩ := steps
      refine ⟨Or.inl rfl, fun v isFirst => ?_⟩
      obtain rfl : u = v := by simpa [next] using isFirst
      simp [line]
  | returnsValue =>
      simp only [derives_token, derives_ahead, derives_part, derives_nil, List.cons.injEq] at steps
      obtain ⟨_, ⟨-, rfl⟩, u, rest, next, unfinished, _, value, rfl⟩ := steps
      have points : u.Spells ⟨.operator, "."⟩ :=
        (second next).resolve_left fun kind => unfinished (Or.inl kind)
      obtain ⟨_, climbs, inner⟩ := reads_iff.mp value
      cases climbs with
      | climbs =>
          rw [next] at inner
          obtain ⟨_, operand, -⟩ := derives_part.mp inner
          have begins := operand_head (by simp [points.1]) operand
          simp [isUnary, points.1, points.2] at begins
  | branches =>
      simp only [derives_ahead, derives_part, derives_nil, List.cons.injEq] at steps
      obtain ⟨_, _, ⟨rfl, -⟩, word, _, conditional, rfl⟩ := steps
      obtain ⟨_, branch, inner⟩ := reads_iff.mp conditional
      cases branch with
      | otherwise other =>
          rw [token_first inner, word.2] at other
          simp at other
      | lastBranch _ opens => exact absurd opens (apart inner).2.1
      | branch _ opens => exact absurd opens (apart inner).2.1

end Inversion

/-- The first statement of a program is the one that is read from its tokens. -/
theorem Sequence.first {t newline : Token} {tokens rest : List Token} {e : Expr} {program : List Expr}
    (sequence : Sequence (t :: tokens) program []) (other : t.kind ≠ some .newline)
    (breaks : Breaks newline)
    (reads : ReadsTo (readTop (fuelFor (t :: tokens))) (t :: tokens) e newline rest) :
    ∃ others, program = e :: others ∧ Sequence rest others [] := by
  cases sequence with
  | newline wrong => exact absurd wrong other
  | @statement _ _ left _ e' others _ first sequence =>
      have read : (readTop (fuelFor (t :: tokens))).run (t :: tokens) = (.ok e', left) :=
        @run_of_reads _ _ .statement _ first (fuelFor (t :: tokens))
          (by simp only [Form.rank, fuelFor]; omega)
      rcases reads with reads | reads
      · rw [reads] at read
        cases read
        exact ⟨others, rfl, sequence⟩
      · rw [reads] at read
        cases read
        cases sequence with
        | newline _ sequence => exact ⟨others, rfl, sequence⟩
        | statement wrong => exact absurd breaks.1 wrong

end Reading

namespace Source

open Reading

/-- A word that can stand after a point: a name or a keyword. -/
structure Key where
  word : Word
  wellFormed : word.wellFormed = true
  kind : word.kind = .identifier ∨ word.kind = .keyword

namespace Key

def text (key : Key) : String := key.word.value

def isName (key : Key) : Bool := key.word.kind = .identifier

/-- The words of a path, with a point between any two keys. -/
def words (key : Key) : List Key → List Word
  | [] => [key.word]
  | next :: rest => key.word :: ⟨.operator, "."⟩ :: words next rest

theorem words_wellFormed (path : List Key) (key : Key) : ∀ w ∈ key.words path, w.wellFormed = true := by
  induction path generalizing key with
  | nil => exact List.forall_mem_singleton.mpr key.wellFormed
  | cons next rest ih =>
      exact List.forall_mem_cons.mpr ⟨key.wellFormed, List.forall_mem_cons.mpr ⟨by decide, ih next⟩⟩

/-- The name that a key is. -/
def name (key : Key) (named : key.isName = true) : Name :=
  ⟨key.text, by
    have kind : key.word.kind = .identifier := by simpa [isName] using named
    rw [text, ← kind]
    exact key.wellFormed⟩

end Key

/-- The name of a variable as the first key of a path. -/
def Name.key (name : Name) : Key := ⟨⟨.identifier, name.text⟩, name.wellFormed, Or.inl rfl⟩

/-- What a path of keys is read as. Up to the first keyword its keys are properties. -/
inductive Leads : List Key → Expr → Prop
  | name {key : Key} (named : key.isName = true) : Leads [key] (.ident key.text)
  | property {key : Key} {rest : List Key} {index : Expr} (named : key.isName = true)
      (inner : Leads rest index) : Leads (key :: rest) (.property key.text index)
  | returning {key : Key} {rest : List Key} (keyword : key.isName = false) :
      Leads (key :: rest) (.ret .missing)
  | importing {key : Key} {rest : List Key} (keyword : key.isName = false)
      (parents : List (Option String)) (name : Option String) :
      Leads (key :: rest) (.module parents name)

section Keys

variable {key : Key} {t newline : Token} {tokens left : List Token} {e : Expr}

theorem Key.word_eq (named : key.isName = true) : key.word = (key.name named).word := by
  have kind : key.word.kind = .identifier := by simpa [isName] using named
  have same : (key.name named).word = ⟨.identifier, key.word.value⟩ := rfl
  rw [same, ← kind]

theorem keyword_leads (path : List Key) (keyword : key.isName = false) (spells : t.Spells key.word)
    (plain : ∀ u ∈ tokens, OnPath u) (point : ∀ u ∈ tokens.head?, u.Spells ⟨.operator, "."⟩)
    (breaks : Breaks newline) (reads : Reads .statement (t :: (tokens ++ [newline])) e left) :
    Leads (key :: path) e ∧ Loose (-1) left := by
  have kind : t.kind = some .keyword := by
    rcases key.kind with named | isKeyword
    · simp [Key.isName, named] at keyword
    · rw [spells.1, isKeyword]
  obtain ⟨rfl | ⟨parents, name, rfl⟩, loose⟩ := statement_keyword kind plain point breaks reads
  · exact ⟨.returning keyword, loose⟩
  · exact ⟨.importing keyword parents name, loose⟩

theorem spelled_onPath (path : List Key) (key : Key) (spelled : Token.Spelled tokens (key.words path)) :
    ∀ t ∈ tokens, OnPath t := by
  have onPath (key : Key) {t : Token} (spells : t.Spells key.word) : OnPath t := by
    rcases key.kind with kind | kind
    · exact Or.inl (Or.inl (by rw [spells.1, kind]))
    · exact Or.inr (by rw [spells.1, kind])
  induction path generalizing key tokens with
  | nil =>
      simp only [Key.words, Token.spelled_cons, Token.spelled_nil] at spelled
      obtain ⟨t, -, rfl, spells, rfl⟩ := spelled
      exact List.forall_mem_singleton.mpr (onPath key spells)
  | cons next rest ih =>
      simp only [Key.words, Token.spelled_cons] at spelled
      obtain ⟨t, -, rfl, spells, point, others, rfl, points, spelled⟩ := spelled
      refine List.forall_mem_cons.mpr ⟨onPath key spells, List.forall_mem_cons.mpr ⟨?_, ih next spelled⟩⟩
      exact Or.inl (Or.inr points.1)

/-- Whatever is read from a path of keys on a line is what the path leads to. -/
theorem statement_leads (path : List Key) (key : Key) (spelled : Token.Spelled tokens (key.words path))
    (breaks : Breaks newline) (reads : Reads .statement (tokens ++ [newline]) e left) :
    Leads (key :: path) e ∧ Loose (-1) left := by
  induction path generalizing key tokens e left with
  | nil =>
      simp only [Key.words, Token.spelled_cons, Token.spelled_nil] at spelled
      obtain ⟨t, -, rfl, spells, rfl⟩ := spelled
      cases named : key.isName with
      | true =>
          rw [Key.word_eq named] at spells
          obtain ⟨l, rest, usage, operators⟩ :=
            statement_name spells.1 ((key.name named).plain spells) reads
          obtain ⟨rfl, rfl⟩ := usage_newline breaks usage
          have loose : Loose (-1) [newline] := loose_of_ends (-1) [] (ends_of_breaks breaks)
          obtain ⟨rfl, rfl⟩ := operators_stop operators loose
          rw [spells.2]
          exact ⟨.name named, loose⟩
      | false =>
          have alone : Reads .statement (t :: ([] ++ [newline])) e left := reads
          exact keyword_leads [] named spells (List.forall_mem_nil _) (by simp) breaks alone
  | cons next rest ih =>
      simp only [Key.words, Token.spelled_cons] at spelled
      obtain ⟨t, -, rfl, spells, point, others, rfl, points, spelled⟩ := spelled
      cases named : key.isName with
      | true =>
          rw [Key.word_eq named] at spells
          obtain ⟨l, after, usage, operators⟩ :=
            statement_name spells.1 ((key.name named).plain spells) reads
          obtain ⟨index, rfl, inner⟩ := usage_point points.2 usage
          obtain ⟨leads, loose⟩ := ih next spelled inner
          obtain ⟨rfl, rfl⟩ := operators_stop operators loose
          rw [spells.2]
          exact ⟨.property named leads, loose⟩
      | false =>
          refine keyword_leads _ named spells ?_ ?_ breaks reads
          · exact List.forall_mem_cons.mpr ⟨Or.inl (Or.inr points.1), spelled_onPath rest next spelled⟩
          · intro u isFirst
            obtain rfl : point = u := by simpa using isFirst
            exact points

theorem readPrimary_property {n : Nat} {t point : Token} {e : Expr} {tokens rest : List Token}
    (kind : t.kind = some .identifier) (plain : Plain t) (points : point.value = ".")
    (inner : (readTop n).run tokens = (.ok e, rest)) :
    (readPrimary (n + 2)).run (t :: point :: tokens) = (.ok (.property t.value e), rest) := by
  obtain ⟨unary, notOpen, notBrace⟩ := plain
  simp [readPrimary, dropNewlines, kind, unary, notOpen, notBrace, readName, points, inner]

/-- A path of names is read as properties, up to the newline after it. -/
theorem readTop_access (path : List Key) (key : Key) {fuel : Nat} {rest : List Token}
    (named : ∀ k ∈ key :: path, k.isName = true) (spelled : Token.Spelled tokens (key.words path))
    (breaks : Breaks newline) (enough : 8 * tokens.length + 2 ≤ fuel) :
    (readTop fuel).run (tokens ++ newline :: rest) =
      (.ok (.access key.text (path.map Key.text)), newline :: rest) := by
  have ends := ends_of_breaks breaks
  induction path generalizing key fuel tokens with
  | nil =>
      have isName := named key List.mem_cons_self
      simp only [Key.words, Token.spelled_cons, Token.spelled_nil, Key.word_eq isName] at spelled
      obtain ⟨t, -, rfl, spells, rfl⟩ := spelled
      simp only [List.length_cons, List.length_nil] at enough
      obtain ⟨n, rfl⟩ : ∃ n, fuel = n + 2 := ⟨fuel - 2, by omega⟩
      have notKeyword : t.kind ≠ some .keyword := by simp [spells.1, Name.word]
      have read := readPrimary_operand (.name spells.1 ((key.name isName).plain spells)) n
        (newline :: rest) (by simp only [List.length_cons, List.length_nil]; omega)
        (parted_of_ends _ _ ends)
      rw [List.singleton_append] at read
      rw [List.singleton_append, readTop_expression notKeyword, readExpr_primary read,
        readOperators_stop _ (by omega) (by omega : (-1 : Int) < 0) (loose_of_ends _ _ ends), spells.2]
      rfl
  | cons next path ih =>
      obtain ⟨isName, named⟩ := List.forall_mem_cons.mp named
      simp only [Key.words, Token.spelled_cons, Key.word_eq isName] at spelled
      obtain ⟨t, -, rfl, spells, point, others, rfl, points, spelled⟩ := spelled
      simp only [List.length_cons] at enough
      obtain ⟨n, rfl⟩ : ∃ n, fuel = n + 4 := ⟨fuel - 4, by omega⟩
      have notKeyword : t.kind ≠ some .keyword := by simp [spells.1, Name.word]
      have read := readPrimary_property spells.1 ((key.name isName).plain spells) points.2
        (ih next named spelled (by omega : _ ≤ n))
      rw [List.cons_append, List.cons_append, readTop_expression notKeyword, readExpr_primary read,
        readOperators_stop _ (by omega) (by omega : (-1 : Int) < 0) (loose_of_ends _ _ ends), spells.2]
      rfl

end Keys

end Source

end Scriptlet
