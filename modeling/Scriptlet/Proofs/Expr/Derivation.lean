import Scriptlet.Proofs.Expr.Production

set_option autoImplicit false

/-!
What the readers read can be derived. Each reader has a lemma of its own, which finds the production
behind a reading from the tokens that the reader looks at, given that the parts can be derived.
-/

namespace Scriptlet.Reading

section Inversion

variable {α β : Type} {tokens rest : List Token}

theorem run_bind_ok {r : Reading α} {k : α → Reading β} {b : β} :
    (r >>= k).run tokens = (.ok b, rest) ↔
      ∃ a left, r.run tokens = (.ok a, left) ∧ (k a).run left = (.ok b, rest) := by
  rw [run_bind]
  cases r.run tokens with
  | mk outcome left => cases outcome <;> simp

theorem run_map_ok {f : α → β} {r : Reading α} {b : β} :
    (f <$> r).run tokens = (.ok b, rest) ↔ ∃ a, r.run tokens = (.ok a, rest) ∧ f a = b := by
  rw [run_map]
  cases r.run tokens with
  | mk outcome left => cases outcome <;> simp [and_comm]

theorem run_demand_ok {member : String} {o : Option Token} {t : Token} :
    (demand member o).run tokens = (.ok t, rest) ↔ o = some t ∧ tokens = rest := by
  cases o <;> simp [demand]

theorem run_take_ok {kind : TokenKind} {t : Token} :
    (take kind).run tokens = (.ok t, rest) ↔ tokens = t :: rest ∧ t.kind = some kind := by
  cases tokens with
  | nil => simp [take, demand]
  | cons u tokens =>
      by_cases right : u.kind = some kind <;> simp [take, right] <;> grind

theorem run_takeOneOf_ok {kinds : List TokenKind} {t : Token} :
    (takeOneOf kinds).run tokens = (.ok t, rest) ↔
      tokens = t :: rest ∧ ∃ k ∈ kinds, t.kind = some k := by
  cases tokens with
  | nil => simp [takeOneOf, demand]
  | cons u tokens =>
      by_cases right : ∃ k, k ∈ kinds ∧ u.kind = some k <;> simp [takeOneOf, right] <;> grind

theorem run_takeSpelled_ok {spelling : String} {t : Token} :
    (takeSpelled spelling).run tokens = (.ok t, rest) ↔
      tokens = t :: rest ∧ t.value = spelling ∧ t.kind ≠ some .string := by
  cases tokens with
  | nil => simp [takeSpelled, demand]
  | cons u tokens =>
      by_cases right : u.value = spelling ∧ ¬ u.kind = some .string <;>
        simp [takeSpelled, right] <;> grind

theorem run_currentKind_ok {kind : Option TokenKind} :
    currentKind.run tokens = (.ok kind, rest) ↔
      ∃ t, tokens.head? = some t ∧ t.kind = kind ∧ tokens = rest := by
  cases tokens <;> simp [currentKind, demand]

theorem run_currentValue_ok {value : String} :
    currentValue.run tokens = (.ok value, rest) ↔
      ∃ t, tokens.head? = some t ∧ t.value = value ∧ tokens = rest := by
  cases tokens <;> simp [currentValue, demand]

end Inversion

/-- Whatever the readers read with the fuel can be derived. -/
def Sound (n : Nat) : Prop :=
  ∀ (f : Form) {tokens : List Token} {a : f.Result} {rest : List Token},
    (f.read n).run tokens = (.ok a, rest) → Reads f tokens a rest

theorem reads_path {fuel : Nat} {name : Option String} {parents : List (Option String)} {e : Expr}
    {tokens rest : List Token} (read : (readModule fuel name parents).run tokens = (.ok e, rest)) :
    Reads (.path name parents) tokens e rest := by
  induction fuel generalizing name parents tokens with
  | zero => simp [readModule] at read
  | succ n ih =>
    cases tokens with
    | nil => simp [readModule, demand] at read
    | cons t tokens =>
      by_cases other : t.kind = none
      · obtain ⟨rfl, rfl⟩ : Expr.module parents name = e ∧ t :: tokens = rest := by
          simpa [readModule, other] using read
        exact Production.pathOther.reads (.ahead other .nil)
      by_cases last : Terminates t
      · obtain ⟨rfl, rfl⟩ : Expr.module parents name = e ∧ tokens = rest := by
          rcases last with last | last <;> simpa [readModule, last, takeOneOf, separators] using read
        exact (Production.pathEnd last).reads (.token .nil)
      by_cases step : InPath t
      · cases tokens with
        | nil => rcases step with step | step <;> simp [readModule, step, demand] at read
        | cons t' tokens =>
            by_cases further : InPath t'
            · have read : (readModule n (some t'.value) (parents ++ [some t.value])).run
                  (t' :: tokens) = (.ok e, rest) := by
                rcases step with step | step <;> rcases further with further | further <;>
                  simpa [readModule, step, further] using read
              exact (Production.pathMore step further).reads (.token (.ahead rfl (ih read)))
            by_cases last : Terminates t'
            · obtain ⟨rfl, rfl⟩ : Expr.module parents (some t.value) = e ∧ tokens = rest := by
                rcases step with step | step <;> rcases last with last | last <;>
                  simpa [readModule, step, last, takeOneOf, separators] using read
              exact (Production.pathLast step last).reads (.token (.token .nil))
            · obtain ⟨rfl, rfl⟩ : Expr.module parents (some t.value) = e ∧ t' :: tokens = rest := by
                have other : ∀ k, t'.kind = some k → k ≠ .identifier ∧ k ≠ .operator ∧ k ≠ .newline ∧
                    k ≠ .semicolon := by
                  intro k kind
                  simp only [InPath, Terminates, kind, Option.some.injEq, not_or] at further last
                  exact ⟨further.1, further.2, last⟩
                rcases step with step | step <;>
                  simp only [readModule, run_bind, run_current, List.head?_cons, run_demand_some, step,
                    run_next, List.tail_cons] at read <;>
                  split at read <;> simp_all
              exact (Production.pathStop step).reads (.token (.ahead ⟨further, last⟩ .nil))
      · simp only [readModule, run_bind, run_current, List.head?_cons, run_demand_some] at read
        split at read <;> simp_all [InPath, Terminates]

theorem run_closeObject_ok {before : List (String × Value)} {v : Value} {t : Token}
    {tokens rest : List Token} :
    (readEntries.closeObject before).run (t :: tokens) = (.ok v, rest) ↔
      t.value = "\x7d" ∧ v = .obj before ∧ rest = t :: tokens := by
  by_cases brace : t.value = "\x7d"
  · simp [readEntries.closeObject, brace, eq_comm]
  · simp [readEntries.closeObject, brace]

mutual

theorem reads_entries {fuel : Nat} {before : List (String × Value)} {v : Value}
    {tokens rest : List Token} (read : (readEntries fuel before).run tokens = (.ok v, rest)) :
    Reads (.entries before) tokens v rest := by
  match fuel, tokens with
  | 0, _ => simp [readEntries] at read
  | n + 1, [] => simp [readEntries, readEntries.closeObject, demand] at read
  | n + 1, t :: tokens =>
      by_cases closes : t.kind = some .rbrace
      · obtain ⟨brace, rfl, rfl⟩ := run_closeObject_ok.mp (by simpa [readEntries, closes] using read)
        exact Production.entriesNone.reads (.ahead ⟨closes, brace⟩ .nil)
      obtain ⟨key, value, left, entry, t', first, others⟩ : ∃ key value left,
          (readEntry n).run (t :: tokens) = (.ok (key, value), left) ∧
          ∃ t', (dropNewlines none left).head? = some t' ∧
            (if t'.kind = some .rbrace then readEntries.closeObject (Value.putEntry key value before)
              else do
                let _ ← take .comma
                readEntries n (Value.putEntry key value before)).run (dropNewlines none left) =
            (.ok v, rest) := by
        simpa [readEntries, closes, -run_bind, run_bind_ok, run_currentKind_ok] using read
      obtain ⟨after, dropped⟩ := List.head?_eq_some_iff.mp first
      rw [dropped] at others
      split at others
      · rename_i last
        obtain ⟨brace, rfl, rfl⟩ := run_closeObject_ok.mp others
        refine Production.entriesLast.reads (.ahead closes ((reads_entry entry).append (.newlines ?_)))
        rw [dropped]
        exact .ahead ⟨last, brace⟩ .nil
      · obtain ⟨_, _, taken, others⟩ := run_bind_ok.mp others
        obtain ⟨same, comma⟩ := run_take_ok.mp taken
        obtain ⟨rfl, rfl⟩ := List.cons.inj same
        refine (Production.entriesMore comma).reads
          (.ahead closes ((reads_entry entry).append (.newlines ?_)))
        rw [dropped]
        exact .token (reads_entries others)

theorem reads_entry {fuel : Nat} {entry : String × Value} {tokens rest : List Token}
    (read : (readEntry fuel).run tokens = (.ok entry, rest)) : Reads .entry tokens entry rest := by
  match fuel with
  | 0 => simp [readEntry] at read
  | n + 1 => 
      simp only [readEntry, bind_pure_comp, run_bind_ok, run_skipNewlines, Prod.mk.injEq,
        Except.ok.injEq, run_takeOneOf_ok, List.mem_cons, List.not_mem_nil, or_false,
        exists_eq_or_imp, ↓existsAndEq, true_and, run_takeSpelled_ok, ne_eq, run_currentKind_ok,
        and_true, exists_and_right, exists_exists_and_eq_and] at read
      obtain ⟨key, colon, left, ⟨dropped, labels⟩, isColon, t, first, others⟩ := read
      obtain ⟨after, rfl⟩ := List.head?_eq_some_iff.mp first
      split at others
      · simp only [run_bind_ok, run_take_ok, List.cons.injEq, run_map_ok, exists_and_right,
          ↓existsAndEq, true_and, and_true] at others
        obtain ⟨opens, object, last, read, closes, rfl⟩ := others
        refine (Production.entryObject labels isColon opens closes).reads (.newlines ?_)
        rw [dropped]
        exact .token (.token (.token ((reads_entries read).append (.token .nil))))
      · simp only [run_map_ok, run_takeOneOf_ok, List.cons.injEq, List.mem_cons, List.not_mem_nil,
          or_false, exists_eq_or_imp, ↓existsAndEq, true_and] at others
        obtain ⟨⟨rfl, isWord⟩, rfl⟩ := others
        refine (Production.entryWord labels isColon isWord).reads (.newlines ?_)
        rw [dropped]
        exact .token (.token (.token .nil))

end

theorem Binds.notImport {t : Token} (binds : Binds t) : t.value ≠ "import" := by
  rcases binds.2 with h | h <;> simp [h]

theorem Binds.notBracket {t : Token} (binds : Binds t) : t.value ≠ ")" ∧ t.value ≠ "\x7b" := by
  rcases binds.2 with h | h <;> simp [h]

theorem takeIf_parting {t : Token} (rest : List Token) (parting : Parting t) :
    (takeIf (.oneOf [.comma, .newline])).run (t :: rest) = (.ok (some t), rest) := by
  rcases parting with kind | kind <;> simp [takeIf, kind]

theorem takeIf_other {t : Token} (rest : List Token) (other : ¬ Parting t) :
    (takeIf (.oneOf [.comma, .newline])).run (t :: rest) = (.ok none, t :: rest) := by
  have kinds : ¬ (t.kind = some .comma ∨ t.kind = some .newline) := other
  simp [takeIf, kinds]

theorem readTop_import {n : Nat} {t : Token} {tokens : List Token} (word : Keyword t "import") :
    (readTop (n + 1)).run (t :: tokens) = (readModule (fuelFor tokens) none []).run tokens := by
  rw [← run_fuelled tokens (readModule · none [])]
  simp [readTop, word.1, word.2, -run_fuelled]

section Soundness

variable {n : Nat} (sound : ∀ m ≤ n, Sound m) {tokens rest : List Token}

include sound

theorem reads_binding {t : Token} {e : Expr} (binds : Binds t)
    (read : (readTop (n + 1)).run (t :: tokens) = (.ok e, rest)) :
    Reads .statement (t :: tokens) e rest := by
  have notImport := binds.notImport
  obtain ⟨isKeyword, word⟩ := id binds
  simp only [readTop, ne_eq, Bool.or_eq_true, decide_eq_true_eq, Bool.and_eq_true, List.any_eq_true,
    ite_not, run_bind_ok, run_current, List.head?_cons, Prod.mk.injEq, Except.ok.injEq, ↓existsAndEq,
    and_true, exists_eq_left', isKeyword, ↓reduceIte, notImport, word, run_next, List.tail_cons,
    run_take_ok, run_demand_ok] at read
  obtain ⟨name, left, ⟨rfl, isName⟩, t', first, others⟩ := read
  obtain ⟨after, rfl⟩ := List.head?_eq_some_iff.mp first
  split at others
  · rename_i assigns
    have assigns : Assigns t' := by simpa [Assigns, Terminates, separators] using assigns
    have others : (readAssignment n (some t.value) name.value).run after = (.ok e, rest) := by
      simpa using others
    exact (Production.defines binds isName assigns).reads
      (.token (.token (.token (sound n n.le_refl (.assignment _ _) others))))
  · rename_i assigns
    have assigns : ¬ Assigns t' := by simpa [Assigns, Terminates, separators] using assigns
    obtain ⟨rfl, rfl⟩ : Expr.missing = e ∧ t' :: after = rest := by simpa using others
    exact (Production.undefined binds isName).reads (.token (.token (.ahead assigns .nil)))

theorem reads_function {t : Token} {e : Expr} (word : Keyword t "fun")
    (read : (readTop (n + 1)).run (t :: tokens) = (.ok e, rest)) :
    Reads .statement (t :: tokens) e rest := by
  have read : (readFunction n).run tokens = (.ok e, rest) := by
    simpa [readTop, word.1, word.2] using read
  cases n with
  | zero => simp [readFunction] at read
  | succ n =>
      simp only [readFunction, run_bind_ok, run_take_ok, run_pure, Prod.mk.injEq, Except.ok.injEq]
        at read
      obtain ⟨name, _, ⟨rfl, isName⟩, params, _, parameters, body, _, block, rfl, rfl⟩ := read
      cases n with
      | zero => simp [readParameters] at parameters
      | succ n =>
          simp only [readParameters, run_bind_ok, run_take_ok] at parameters
          obtain ⟨first, _, ⟨rfl, opens⟩, parameters⟩ := parameters
          have parameters := sound n (by omega) .parameters parameters
          have block := sound (n + 1) (by omega) .block block
          exact (Production.function word isName opens).reads
            (.token (.token (.token (parameters.append block))))

theorem reads_return {t : Token} {e : Expr} (word : Keyword t "return")
    (read : (readTop (n + 1)).run (t :: tokens) = (.ok e, rest)) :
    Reads .statement (t :: tokens) e rest := by
  have read : (readReturn n).run (t :: tokens) = (.ok e, rest) := by
    simpa [readTop, word.1, word.2] using read
  cases n with
  | zero => simp [readReturn] at read
  | succ n =>
      cases tokens with
      | nil => simp [readReturn, currentKind, demand] at read
      | cons t' tokens =>
          by_cases semicolon : t'.kind = some .semicolon
          · obtain ⟨rfl, rfl⟩ : Expr.ret .missing = e ∧ tokens = rest := by
              simpa [readReturn, semicolon] using read
            exact (Production.returnsNothing word semicolon).reads (.token (.token .nil))
          by_cases newline : t'.kind = some .newline
          · obtain ⟨rfl, rfl⟩ : Expr.ret .missing = e ∧ t' :: tokens = rest := by
              simpa [readReturn, newline] using read
            exact (Production.returnsLine word).reads (.token (.ahead newline .nil))
          · have read : (Expr.ret <$> readExpr n 0).run (t' :: tokens) = (.ok e, rest) := by
              simpa [readReturn, semicolon, newline] using read
            obtain ⟨e, inner, rfl⟩ := run_map_ok.mp read
            have value := sound n (by omega) (.expression 0) inner
            exact (Production.returnsValue word).reads
              (.token (.ahead (not_or.mpr ⟨newline, semicolon⟩) value))

theorem reads_statement {e : Expr} (read : (readTop (n + 1)).run tokens = (.ok e, rest)) :
    Reads .statement tokens e rest := by
  cases tokens with
  | nil =>
      obtain ⟨rfl, rfl⟩ : Expr.missing = e ∧ [] = rest := by simpa [readTop] using read
      exact Production.nothing.reads (.look rfl .nil)
  | cons t tokens =>
      by_cases isKeyword : t.kind = some .keyword
      · by_cases imports : t.value = "import"
        · rw [readTop_import ⟨isKeyword, imports⟩] at read
          exact (Production.imports ⟨isKeyword, imports⟩).reads (.token (reads_path read))
        by_cases binds : t.value = "let" ∨ t.value = "const"
        · exact reads_binding sound ⟨isKeyword, binds⟩ read
        by_cases isFunction : t.value = "fun"
        · exact reads_function sound ⟨isKeyword, isFunction⟩ read
        by_cases returns : t.value = "return"
        · exact reads_return sound ⟨isKeyword, returns⟩ read
        by_cases branches : t.value = "if"
        · rw [readTop_conditional isKeyword branches] at read
          exact Production.branches.reads
            (.ahead ⟨isKeyword, branches⟩ (sound n n.le_refl .conditional read))
        · by_cases isNull : t.value = "null" <;>
            simp [readTop, isKeyword, imports, binds, isFunction, returns, branches, isNull] at read
      · rw [readTop_expression isKeyword] at read
        exact Production.expression.reads
          (.ahead isKeyword (sound n n.le_refl (.expression 0) read))

theorem reads_expression {least : Int} {e : Expr}
    (read : (readExpr (n + 1) least).run tokens = (.ok e, rest)) :
    Reads (.expression least) tokens e rest := by
  obtain ⟨l, left, operand, operators⟩ := run_bind_ok.mp (by simpa only [readExpr] using read)
  exact Production.climbs.reads
    ((sound n n.le_refl .operand operand).append
      (sound n n.le_refl (.operators least l) operators))

theorem reads_operators {least : Int} {l e : Expr}
    (read : (readOperators (n + 1) least l).run tokens = (.ok e, rest)) :
    Reads (.operators least l) tokens e rest := by
  cases tokens with
  | nil =>
      obtain ⟨rfl, rfl⟩ : l = e ∧ [] = rest := by simpa [readOperators] using read
      exact Production.operatorsStop.reads (.look (by simp) .nil)
  | cons t tokens =>
      by_cases operates : Operates least t
      · by_cases doubled : Doubled t
        · obtain ⟨rfl, rfl⟩ : Expr.unary (t.value ++ ":post") l = e ∧ tokens = rest := by
            have spelled : t.value = "++" ∨ t.value = "--" := doubled
            simpa [readOperators, operates.1, operates.2, spelled] using read
          exact (Production.post operates doubled).reads (.token .nil)
        · have read : (readExpr n (tighter t) >>= fun r =>
              readOperators n least (.binary t.value l r)).run tokens = (.ok e, rest) := by
            have single : ¬ (t.value = "++" ∨ t.value = "--") := doubled
            simpa [readOperators, operates.1, operates.2, single, -run_bind, run_bind_ok, tighter]
              using read
          obtain ⟨r, left, right, others⟩ := run_bind_ok.mp read
          exact (Production.binary operates doubled).reads
            (.token ((sound n n.le_refl (.expression _) right).append
              (sound n n.le_refl (.operators _ _) others)))
      by_cases last : t.kind = some .semicolon
      · obtain ⟨rfl, rfl⟩ : l = e ∧ tokens = rest := by
          simpa [readOperators, last, take] using read
        exact (Production.operatorsEnd last).reads (.token .nil)
      · obtain ⟨rfl, rfl⟩ : l = e ∧ t :: tokens = rest := by
          have other : ¬ (t.kind = some .operator ∧ least ≤ precedence t) := operates
          simpa [readOperators, last, other] using read
        exact Production.operatorsStop.reads (.endOr ⟨operates, last⟩ .nil)

theorem reads_arguments {args : List Expr} (read : (readArguments n).run tokens = (.ok args, rest)) :
    ∃ first left, tokens = first :: left ∧ first.kind = some .lparen ∧
      Reads .arguments left args rest := by
  cases n with
  | zero => simp [readArguments] at read
  | succ n =>
      simp only [readArguments, run_bind_ok, run_take_ok] at read
      obtain ⟨first, left, ⟨rfl, opens⟩, read⟩ := read
      exact ⟨first, left, rfl, opens, sound n (by omega) .arguments read⟩

theorem reads_plain {t : Token} {left : List Token} {e : Expr}
    (dropped : dropNewlines none tokens = t :: left) (plain : Plain t)
    (read : (readPrimary (n + 1)).run tokens = (.ok e, rest)) : Reads .operand tokens e rest := by
  obtain ⟨unary, opens, braces⟩ := id plain
  have reads {symbols : List Symbol} (production : Production .operand e (.newlines none :: symbols))
      (others : Derives symbols (t :: left) rest) : Reads .operand tokens e rest := by
    rw [← dropped] at others
    exact production.reads (.newlines others)
  by_cases number : t.kind = some .number
  · obtain ⟨value, rfl⟩ : numberOf t.value = .ok e ∧ left = rest := by
      simpa [readPrimary, dropped, unary, opens, braces, number] using read
    exact reads (.number number plain value) (.token .nil)
  by_cases isString : t.kind = some .string
  · obtain ⟨rfl, rfl⟩ : Expr.str t.value = e ∧ left = rest := by
      simpa [readPrimary, dropped, unary, opens, braces, isString] using read
    exact reads (.string isString plain) (.token .nil)
  by_cases isName : t.kind = some .identifier
  · have read : (readName n t.value).run left = (.ok e, rest) := by
      simpa [readPrimary, dropped, unary, opens, braces, isName] using read
    exact reads (.name isName plain) (.token (sound n n.le_refl (.usage _) read))
  by_cases isKeyword : t.kind = some .keyword
  · by_cases word : t.value = "true" ∨ t.value = "false"
    · obtain ⟨rfl, rfl⟩ : Expr.literal .boolean (.str t.value) = e ∧ left = rest := by
        simpa [readPrimary, dropped, unary, opens, braces, isKeyword, word] using read
      exact reads (.truth isKeyword word) (.token .nil)
    · cases left with
      | nil =>
          simp [readPrimary, dropped, unary, opens, braces, isKeyword, word, currentValue, demand]
            at read
      | cons first left =>
        by_cases opens' : first.value = "("
        · have read : (Expr.call t.value <$> readArguments n).run (first :: left) = (.ok e, rest) := by
            simpa [readPrimary, dropped, unary, opens, braces, isKeyword, word, opens'] using read
          obtain ⟨args, inner, rfl⟩ := run_map_ok.mp read
          obtain ⟨_, _, same, kind, arguments⟩ := reads_arguments sound inner
          obtain ⟨rfl, rfl⟩ := List.cons.inj same
          exact reads (.keywordCall isKeyword plain word ⟨kind, opens'⟩) (.token (.token arguments))
        · by_cases isNull : t.value = "null" <;>
            simp [readPrimary, dropped, unary, opens, braces, isKeyword, word, opens', isNull] at read
  · simp only [readPrimary, run_bind, run_skipNewlines, dropped, List.head?_cons, unary, opens,
      braces, if_false] at read
    split at read <;> simp_all

theorem reads_operand {e : Expr} (read : (readPrimary (n + 1)).run tokens = (.ok e, rest)) :
    Reads .operand tokens e rest := by
  cases dropped : dropNewlines none tokens with
  | nil =>
      obtain ⟨rfl, rfl⟩ : Expr.missing = e ∧ [] = rest := by
        simpa [readPrimary, dropped] using read
      refine Production.noOperand.reads (.newlines ?_)
      rw [dropped]
      exact .look rfl .nil
  | cons t left =>
      have reads {symbols : List Symbol}
          (production : Production .operand e (.newlines none :: symbols))
          (others : Derives symbols (t :: left) rest) : Reads .operand tokens e rest := by
        rw [← dropped] at others
        exact production.reads (.newlines others)
      by_cases unary : isUnary t = true
      · by_cases signed : Signed t
        · have read : (Expr.unary t.value <$> readPrimary n).run left = (.ok e, rest) := by
            have sign : t.value = "-" ∨ t.value = "+" ∨ t.value = "!" := signed
            simpa [readPrimary, dropped, unary, sign] using read
          obtain ⟨operand, inner, rfl⟩ := run_map_ok.mp read
          exact reads (.sign unary signed) (.token (sound n n.le_refl .operand inner))
        · have read : (Expr.unary t.value <$> readExpr n (precedence t)).run left = (.ok e, rest) := by
            have sign : ¬ (t.value = "-" ∨ t.value = "+" ∨ t.value = "!") := signed
            simpa [readPrimary, dropped, unary, sign] using read
          obtain ⟨operand, inner, rfl⟩ := run_map_ok.mp read
          exact reads (.double unary signed) (.token (sound n n.le_refl (.expression _) inner))
      by_cases opens : t.value = "("
      · obtain ⟨kind, last, read, closes⟩ : t.kind = some .lparen ∧
            ∃ last, (readExpr n 0).run left = (.ok e, last :: rest) ∧ last.kind = some .rparen := by
          simpa [readPrimary, dropped, unary, opens, -run_bind, run_bind_ok, run_take_ok, -run_map,
            run_map_ok] using read
        exact reads (.group ⟨kind, opens⟩ closes)
          (.token ((sound n n.le_refl (.expression 0) read).append (.token .nil)))
      by_cases braces : t.value = "\x7b"
      · obtain ⟨kind, v, last, inner, closes, rfl⟩ : t.kind = some .lbrace ∧
            ∃ v last, (fuelled readObject).run left = (.ok v, last :: rest) ∧
              last.kind = some .rbrace ∧ Expr.datum v = e := by
          simpa [readPrimary, dropped, unary, braces, -run_bind, run_bind_ok, run_take_ok, -run_map,
            run_map_ok, -run_fuelled] using read
        rw [run_fuelled, readObject] at inner
        exact reads (.object ⟨kind, braces⟩ closes)
          (.token ((reads_entries inner).append (.token .nil)))
      have plain : Plain t := ⟨by simpa using unary, opens, braces⟩
      exact reads_plain sound dropped plain read

theorem reads_usage {name : String} {e : Expr}
    (read : (readName (n + 1) name).run tokens = (.ok e, rest)) :
    Reads (.usage name) tokens e rest := by
  cases tokens with
  | nil => simp [readName, currentValue, demand] at read
  | cons t tokens =>
      by_cases point : t.value = "."
      · have read : (Expr.property name <$> readTop n).run tokens = (.ok e, rest) := by
          simpa [readName, point] using read
        obtain ⟨index, inner, rfl⟩ := run_map_ok.mp read
        exact (Production.property point).reads (.token (sound n n.le_refl .statement inner))
      by_cases opens : t.value = "("
      · have read : (Expr.call name <$> readArguments n).run (t :: tokens) = (.ok e, rest) := by
          simpa [readName, opens] using read
        obtain ⟨args, inner, rfl⟩ := run_map_ok.mp read
        obtain ⟨_, _, same, kind, arguments⟩ := reads_arguments sound inner
        obtain ⟨rfl, rfl⟩ := List.cons.inj same
        exact (Production.call ⟨kind, opens⟩).reads (.token arguments)
      by_cases equals : t.value = "="
      · have read : (readAssignment n none name).run tokens = (.ok e, rest) := by
          simpa [readName, equals] using read
        exact (Production.reassigns equals).reads (.token (sound n n.le_refl (.assignment _ _) read))
      · obtain ⟨rfl, rfl⟩ : Expr.ident name = e ∧ t :: tokens = rest := by
          simpa [readName, point, opens, equals] using read
        exact Production.itself.reads (.ahead ⟨point, opens, equals⟩ .nil)

theorem reads_assignment {binding : Option String} {name : String} {e : Expr}
    (read : (readAssignment (n + 1) binding name).run tokens = (.ok e, rest)) :
    Reads (.assignment binding name) tokens e rest := by
  cases tokens with
  | nil => simp [readAssignment, currentKind, demand] at read
  | cons t tokens =>
      by_cases closes : t.kind = some .rparen
      · obtain ⟨rfl, rfl⟩ : Expr.assign binding name .missing = e ∧ t :: tokens = rest := by
          simpa [readAssignment, closes] using read
        exact Production.valueless.reads (.ahead (.inl closes) .nil)
      by_cases comma : t.kind = some .comma
      · obtain ⟨rfl, rfl⟩ : Expr.assign binding name .missing = e ∧ t :: tokens = rest := by
          simpa [readAssignment, comma] using read
        exact Production.valueless.reads (.ahead (.inr comma) .nil)
      by_cases last : Terminates t
      · obtain ⟨rfl, rfl⟩ : Expr.assign binding name .missing = e ∧ tokens = rest := by
          rcases last with last | last <;>
            simpa [readAssignment, last, takeOneOf, separators] using read
        exact (Production.valuelessEnd last).reads (.token .nil)
      obtain ⟨newline, semicolon⟩ := not_or.mp last
      simp only [readAssignment, List.any_cons, List.any_nil, Bool.or_false, Bool.or_eq_true,
        decide_eq_true_eq, bind_pure_comp, pure_bind, run_bind_ok, run_currentKind, Prod.mk.injEq,
        Except.ok.injEq, ↓existsAndEq, and_true, exists_eq_left', closes, ↓reduceIte, newline,
        semicolon, comma, or_self, run_current] at read
      obtain ⟨v, left, inner, others⟩ := read
      have value := sound n n.le_refl (.expression 0) inner
      have starts := And.intro closes (And.intro comma last)
      cases left with
      | nil =>
          obtain ⟨rfl, rfl⟩ : Expr.assign binding name v = e ∧ [] = rest := by simpa using others
          exact Production.value.reads (.ahead starts (value.append (.look (by simp) .nil)))
      | cons t' left =>
          by_cases comma : t'.kind = some .comma
          · obtain ⟨rfl, rfl⟩ : Expr.assign binding name v = e ∧ t' :: left = rest := by
              simpa [comma] using others
            exact Production.value.reads (.ahead starts (value.append (.endOr comma .nil)))
          · obtain ⟨⟨rfl, last⟩, rfl⟩ : (left = rest ∧ Terminates t') ∧
                Expr.assign binding name v = e := by
              simpa [comma, -run_map, run_map_ok, run_takeOneOf_ok, separators, Terminates] using others
            exact (Production.valueEnd last).reads (.ahead starts (value.append (.token .nil)))

theorem reads_moreArguments {args : List Expr}
    (read : (readMoreArguments (n + 1)).run tokens = (.ok args, rest)) :
    Reads .arguments tokens args rest := by
  cases tokens with
  | nil =>
      obtain ⟨rfl, rfl⟩ : [] = args ∧ [] = rest := by simpa [readMoreArguments] using read
      exact Production.argumentsStop.reads (.look rfl .nil)
  | cons t tokens =>
      by_cases closes : t.value = ")"
      · obtain ⟨⟨rfl, kind⟩, rfl⟩ : (tokens = rest ∧ t.kind = some .rparen) ∧ args = [] := by
          simpa [readMoreArguments, closes, -run_map, run_map_ok, run_take_ok] using read
        exact (Production.argumentsEnd ⟨kind, closes⟩).reads (.token .nil)
      simp only [readMoreArguments, bind_pure_comp, Bool.or_eq_true, decide_eq_true_eq, run_bind_ok,
        run_current, List.head?_cons, Prod.mk.injEq, Except.ok.injEq, ↓existsAndEq, and_true,
        exists_eq_left', closes, ↓reduceIte, run_currentValue_ok, exists_and_right,
        exists_exists_and_eq_and] at read
      obtain ⟨e, left, inner, t', first, others⟩ := read
      obtain ⟨after, rfl⟩ := List.head?_eq_some_iff.mp first
      have argument := sound n n.le_refl .statement inner
      by_cases parts : Parts t'
      · have spelled : t'.value = "," ∨ t'.value = "newline" := parts
        by_cases parting : Parting t'
        · have read : ((e :: ·) <$> readMoreArguments n).run after = (.ok args, rest) := by
            simpa [spelled, takeIf_parting after parting] using others
          obtain ⟨more, inner, rfl⟩ := run_map_ok.mp read
          exact (Production.argumentsMore parts parting).reads
            (.ahead closes (argument.append (.token (sound n n.le_refl .arguments inner))))
        · have read : ((e :: ·) <$> readMoreArguments n).run (t' :: after) = (.ok args, rest) := by
            simpa [spelled, takeIf_other after parting] using others
          obtain ⟨more, inner, rfl⟩ := run_map_ok.mp read
          exact Production.argumentsGoOn.reads
            (.ahead closes (argument.append
              (.ahead ⟨parts, parting⟩ (sound n n.le_refl .arguments inner))))
      · obtain ⟨⟨rfl, kind⟩, rfl⟩ : (after = rest ∧ t'.kind = some .rparen) ∧ [e] = args := by
          have spelled : ¬ (t'.value = "," ∨ t'.value = "newline") := parts
          simpa [spelled, -run_map, run_map_ok, run_take_ok] using others
        exact (Production.argumentsLast parts kind).reads
          (.ahead closes (argument.append (.token .nil)))

theorem reads_moreParameters {params : List Parameter}
    (read : (readMoreParameters (n + 1)).run tokens = (.ok params, rest)) :
    Reads .parameters tokens params rest := by
  cases tokens with
  | nil =>
      obtain ⟨rfl, rfl⟩ : [] = params ∧ [] = rest := by simpa [readMoreParameters] using read
      exact Production.parametersStop.reads (.look rfl .nil)
  | cons t tokens =>
      by_cases closes : t.value = ")"
      · obtain ⟨⟨rfl, kind⟩, rfl⟩ : (tokens = rest ∧ t.kind = some .rparen) ∧ params = [] := by
          simpa [readMoreParameters, closes, -run_map, run_map_ok, run_take_ok] using read
        exact (Production.parametersEnd ⟨kind, closes⟩).reads (.token .nil)
      by_cases braces : t.value = "\x7b"
      · obtain ⟨rfl, rfl⟩ : [] = params ∧ t :: tokens = rest := by
          simpa [readMoreParameters, braces] using read
        exact Production.parametersBrace.reads (.ahead braces .nil)
      by_cases binds : Binds t
      · obtain ⟨isKeyword, word⟩ := id binds
        simp only [readMoreParameters, bind_pure_comp, Bool.and_eq_true, decide_eq_true_eq,
          Bool.or_eq_true, run_bind_ok, run_current, List.head?_cons, Prod.mk.injEq, Except.ok.injEq,
          ↓existsAndEq, and_true, exists_eq_left', closes, ↓reduceIte, braces, isKeyword, word,
          and_self, run_next, List.tail_cons, run_take_ok, run_demand_ok] at read
        obtain ⟨name, left, ⟨rfl, isName⟩, t', first, others⟩ := read
        obtain ⟨after, rfl⟩ := List.head?_eq_some_iff.mp first
        by_cases closing : t'.kind = some .rparen
        · have read : ((Parameter.mk name.value (some t.value) .missing :: ·) <$>
              readMoreParameters n).run (t' :: after) = (.ok params, rest) := by
            simpa [closing] using others
          obtain ⟨more, inner, rfl⟩ := run_map_ok.mp read
          exact (Production.parametersLast binds isName).reads
            (.token (.token (.ahead closing (sound n n.le_refl .parameters inner))))
        by_cases kinds : t'.kind = some .comma ∨ t'.kind = some .operator
        · by_cases comma : t'.value = ","
          · have read : ((Parameter.mk name.value (some t.value) .missing :: ·) <$>
                readMoreParameters n).run after = (.ok params, rest) := by
              simpa [closing, kinds, comma] using others
            obtain ⟨more, inner, rfl⟩ := run_map_ok.mp read
            exact (Production.parametersMore binds isName ⟨kinds, comma⟩).reads
              (.token (.token (.token (sound n n.le_refl .parameters inner))))
          by_cases colon : t'.value = ":"
          · obtain ⟨d, left, default, more, inner, rfl⟩ : ∃ d left,
                (readExpr n 0).run after = (.ok d, left) ∧ ∃ more,
                  (readMoreParameters n).run left.tail = (.ok more, rest) ∧
                  Parameter.mk name.value (some t.value) d :: more = params := by
              simpa [closing, kinds, colon, -run_bind, run_bind_ok, -run_map, run_map_ok] using others
            exact (Production.parametersDefault binds isName ⟨kinds, colon⟩).reads
              (.token (.token (.token ((sound n n.le_refl (.expression 0) default).append
                (.skip (sound n n.le_refl .parameters inner))))))
          · simp [closing, comma, colon] at others
        · simp [closing, kinds] at others
      · have other : ¬ (t.kind = some .keyword ∧ (t.value = "let" ∨ t.value = "const")) := binds
        simp [readMoreParameters, closes, braces, other] at read

theorem reads_conditional {e : Expr}
    (read : (readConditional (n + 1)).run tokens = (.ok e, rest)) :
    Reads .conditional tokens e rest := by
  cases tokens with
  | nil => simp [readConditional, demand] at read
  | cons t tokens =>
      by_cases word : t.value = "else"
      · have read : ((fun body => Expr.conditional t.value .missing body none) <$>
            readBlock n).run tokens = (.ok e, rest) := by
          simpa [readConditional, word] using read
        obtain ⟨body, inner, rfl⟩ := run_map_ok.mp read
        exact (Production.otherwise word).reads (.token (sound n n.le_refl .block inner))
      simp only [readConditional, bind_pure_comp, Bool.and_eq_true, decide_eq_true_eq, Bool.or_eq_true,
        run_bind_ok, run_next, List.head?_cons, List.tail_cons, Prod.mk.injEq, Except.ok.injEq,
        ↓existsAndEq, and_true, exists_eq_left', run_demand_some, word, ↓reduceIte, run_take_ok,
        run_skipNewlines, true_and] at read
      obtain ⟨first, _, ⟨rfl, opens⟩, condition, last, _, inner, closes, body, left, block,
        others⟩ := read
      have condition := sound n n.le_refl (.expression 0) inner
      have block := sound n n.le_refl .block block
      have reads {e : Expr} {symbols : List Symbol}
          (production : Production .conditional e (.token t :: .token first ::
            .part (.expression 0) _ :: .token last :: .part .block body :: .newlines none :: symbols))
          (further : Derives symbols (dropNewlines none left) rest) :
          Reads .conditional (t :: first :: _) e rest :=
        production.reads
          (.token (.token (condition.append (.token (block.append (.newlines further))))))
      cases dropped : dropNewlines none left with
      | nil =>
          simp only [dropped, List.head?_nil, run_pure, Prod.mk.injEq, Except.ok.injEq] at others
          obtain ⟨rfl, rfl⟩ := others
          refine reads (.lastBranch word opens closes) ?_
          rw [dropped]
          exact .look (by simp) .nil
      | cons t' after =>
          simp only [dropped, List.head?_cons] at others
          split at others
          · rename_i branches
            obtain ⟨e, inner, rfl⟩ := run_map_ok.mp others
            refine reads (.branch word opens closes) ?_
            rw [dropped]
            exact .ahead branches (sound n n.le_refl .conditional inner)
          · rename_i other
            simp only [run_pure, Prod.mk.injEq, Except.ok.injEq] at others
            obtain ⟨rfl, rfl⟩ := others
            refine reads (.lastBranch word opens closes) ?_
            rw [dropped]
            exact .endOr other .nil

theorem reads_block {body : List Expr} (read : (readBlock (n + 1)).run tokens = (.ok body, rest)) :
    Reads .block tokens body rest := by
  cases tokens with
  | nil => simp [readBlock, demand] at read
  | cons t tokens =>
      by_cases braces : t.value = "\x7b"
      · obtain ⟨kind, inner⟩ : t.kind = some .lbrace ∧
            (readStatements n).run (dropNewlines none tokens) = (.ok body, rest) := by
          simpa [readBlock, braces, -run_bind, run_bind_ok, run_take_ok] using read
        exact (Production.braced ⟨kind, braces⟩).reads
          (.token (.newlines (sound n n.le_refl .statements inner)))
      · cases dropped : dropNewlines (some 1) (t :: tokens) with
        | nil => simp [readBlock, braces, dropped, currentKind, demand] at read
        | cons t' left =>
            by_cases newline : t'.kind = some .newline
            · simp [readBlock, braces, dropped, newline] at read
            · have read : ((fun e => [e]) <$> readTop n).run (t' :: left) = (.ok body, rest) := by
                simpa [readBlock, braces, dropped, newline] using read
              obtain ⟨e, inner, rfl⟩ := run_map_ok.mp read
              refine Production.single.reads (.ahead braces (.newlines ?_))
              rw [dropped]
              exact .ahead newline (sound n n.le_refl .statement inner)

theorem reads_statements {body : List Expr}
    (read : (readStatements (n + 1)).run tokens = (.ok body, rest)) :
    Reads .statements tokens body rest := by
  cases tokens with
  | nil => simp [readStatements] at read
  | cons t tokens =>
      by_cases closes : t.value = "\x7d"
      · obtain ⟨rfl, rfl⟩ : body = [] ∧ tokens = rest := by
          simpa [readStatements, closes] using read
        exact (Production.statementsEnd closes).reads (.token .nil)
      · obtain ⟨e, left, statement, more, inner, rfl⟩ : ∃ e left,
            (readTop n).run (t :: tokens) = (.ok e, left) ∧ ∃ more,
              (readStatements n).run (dropNewlines none left) = (.ok more, rest) ∧
                e :: more = body := by
          simpa [readStatements, closes, -run_bind, run_bind_ok, -run_map, run_map_ok] using read
        exact Production.statementsMore.reads (.ahead closes
          ((sound n n.le_refl .statement statement).append
            (.newlines (sound n n.le_refl .statements inner))))

end Soundness

/-- Whatever the readers read can be derived. -/
theorem reads_of_run {fuel : Nat} {f : Form} {tokens : List Token} {a : f.Result} {rest : List Token}
    (read : (f.read fuel).run tokens = (.ok a, rest)) : Reads f tokens a rest := by
  induction fuel using Nat.strongRecOn generalizing f tokens rest with
  | ind fuel ih =>
      cases fuel with
      | zero =>
          cases f <;> simp [Form.read, readModule, readEntries, readEntry, readTop, readExpr,
            readOperators, readPrimary, readName, readAssignment, readMoreArguments,
            readMoreParameters, readConditional, readBlock, readStatements] at read
      | succ n =>
        have sound : ∀ m ≤ n, Sound m := fun m le f _ _ _ read => ih m (by omega) read
        cases f with
        | path name parents => exact reads_path read
        | entries before => exact reads_entries read
        | entry => exact reads_entry read
        | statement => exact reads_statement sound read
        | expression least => exact reads_expression sound read
        | operators least left => exact reads_operators sound read
        | operand => exact reads_operand sound read
        | usage name => exact reads_usage sound read
        | assignment binding name => exact reads_assignment sound read
        | arguments => exact reads_moreArguments sound read
        | parameters => exact reads_moreParameters sound read
        | conditional => exact reads_conditional sound read
        | block => exact reads_block sound read
        | statements => exact reads_statements sound read

end Scriptlet.Reading
