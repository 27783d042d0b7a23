import Scriptlet.Proofs.Expr.Grammar

set_option autoImplicit false

/-!
Precedence climbing. A row is a sequence of operands with operators between them, and a tree groups a
row into one expression. `Tree.Climbs` says which grouping is the right one: on the left of an operator
stand operators that bind at least as tightly, on its right such as bind more tightly, if they are not
in parentheses. Every row has such a tree (`Row.tree`) and no other (`Tree.row_injective`), and the
reader finds it (`readExpr_row`).
-/

namespace Scriptlet.Climbing

open Reading

/-- A token that is an operand by itself, and the expression it stands for: a number that can be read,
a string that is not taken for a bracket, or a name. -/
inductive Atom : Token → Expr → Prop
  | number {t : Token} {e : Expr} (kind : t.kind = some .number) (value : numberOf t.value = .ok e) :
      Atom t e
  | string {t : Token} (kind : t.kind = some .string) (bracket : t.value ≠ "(")
      (brace : t.value ≠ "\x7b") : Atom t (.str t.value)
  | name {t : Token} (kind : t.kind = some .identifier) (plain : Plain t) : Atom t (.ident t.value)

mutual

/-- An operand of a row: a token by itself, or a row in parentheses. -/
inductive Piece
  | atom (t : Token) (e : Expr) (stands : Atom t e)
  | group (first last : Token) (opens : Opens first) (closes : Closes last) (inner : Row)

/-- Operands with operators between them. -/
inductive Row
  | single (p : Piece)
  | more (p : Piece) (t : Token) (joins : Joins t) (others : Row)

end

mutual

def Piece.tokens : Piece → List Token
  | .atom t _ _ => [t]
  | .group first last _ _ inner => first :: (inner.tokens ++ [last])

def Row.tokens : Row → List Token
  | .single p => p.tokens
  | .more p t _ others => p.tokens ++ t :: others.tokens

end

/-- A row grouped into one expression. -/
inductive Tree
  | atom (t : Token) (e : Expr) (stands : Atom t e)
  | group (first last : Token) (opens : Opens first) (closes : Closes last) (inner : Tree)
  | node (t : Token) (joins : Joins t) (left right : Tree)

namespace Tree

/-- The tokens of a tree, read in order. -/
def tokens : Tree → List Token
  | atom t _ _ => [t]
  | group first last _ _ inner => first :: (inner.tokens ++ [last])
  | node t _ left right => left.tokens ++ t :: right.tokens

/-- The expression that a tree stands for. Parentheses leave no trace in it. -/
def expr : Tree → Expr
  | atom _ e _ => e
  | group _ _ _ _ inner => inner.expr
  | node t _ left right => .binary t.value left.expr right.expr

/-- The operator at the top of a tree, if it is not in parentheses. -/
def top? : Tree → Option Token
  | node t _ _ _ => some t
  | _ => none

/-- On the left of every operator stands one that binds at least as tightly, on its right one that binds
more tightly, or else something in parentheses or without an operator. -/
def Climbs : Tree → Prop
  | atom .. => True
  | group _ _ _ _ inner => inner.Climbs
  | node t _ left right => left.Climbs ∧ right.Climbs ∧
      (∀ u ∈ left.top?, precedence t ≤ precedence u) ∧ ∀ u ∈ right.top?, precedence t < precedence u

end Tree

namespace Row

/-- Two rows with an operator between them. -/
def join : Row → (t : Token) → Joins t → Row → Row
  | single p, t, joins, row => more p t joins row
  | more p u linked others, t, joins, row => more p u linked (others.join t joins row)

/-- The operators of a row that are not in parentheses. -/
def operators : Row → List Token
  | single _ => []
  | more _ t _ others => t :: others.operators

theorem join_assoc {t u : Token} (joins : Joins t) (linked : Joins u) (b c : Row) :
    ∀ a : Row, (a.join t joins b).join u linked c = a.join t joins (b.join u linked c)
  | single p => rfl
  | more p v between others => by simp only [join, join_assoc joins linked b c others]

theorem tokens_join {t : Token} (joins : Joins t) (b : Row) :
    ∀ a : Row, (a.join t joins b).tokens = a.tokens ++ t :: b.tokens
  | single p => rfl
  | more p u linked others => by
      simp only [join, tokens, tokens_join joins b others, List.append_assoc, List.cons_append]

theorem operators_join {t : Token} (joins : Joins t) (b : Row) :
    ∀ a : Row, (a.join t joins b).operators = a.operators ++ t :: b.operators
  | single p => rfl
  | more p u linked others => by
      simp only [join, operators, operators_join joins b others, List.cons_append]

theorem single_ne_join {t : Token} (joins : Joins t) (p : Piece) (a b : Row) :
    single p ≠ a.join t joins b := by
  cases a <;> exact fun same => by cases same

/-- A row that falls apart at two operators falls apart at the same one, or between the two there is a
further row. -/
theorem join_eq_join {t u : Token} {joins : Joins t} {linked : Joins u} {b d : Row} :
    ∀ {a c : Row}, a.join t joins b = c.join u linked d →
      (a = c ∧ t = u ∧ b = d) ∨ (∃ between : Row, c = a.join t joins between ∧
        b = between.join u linked d) ∨
        ∃ between : Row, a = c.join u linked between ∧ d = between.join t joins b
  | single p, single q, same => by
      obtain ⟨rfl, rfl, rfl⟩ := Row.more.inj same
      exact Or.inl ⟨rfl, rfl, rfl⟩
  | single p, more q v between others, same => by
      obtain ⟨rfl, rfl, rfl⟩ := Row.more.inj same
      exact Or.inr (Or.inl ⟨others, rfl, rfl⟩)
  | more p v between others, single q, same => by
      obtain ⟨rfl, rfl, rfl⟩ := Row.more.inj same
      exact Or.inr (Or.inr ⟨others, rfl, rfl⟩)
  | more p v _ others, more q w _ others', same => by
      obtain ⟨rfl, rfl, rest⟩ := Row.more.inj same
      rcases join_eq_join rest with ⟨rfl, rfl, rfl⟩ | ⟨between, rfl, rfl⟩ | ⟨between, rfl, rfl⟩
      · exact Or.inl ⟨rfl, rfl, rfl⟩
      · exact Or.inr (Or.inl ⟨between, rfl, rfl⟩)
      · exact Or.inr (Or.inr ⟨between, rfl, rfl⟩)

end Row

namespace Tree

/-- The row that a tree groups. -/
def row : Tree → Row
  | atom t e stands => .single (.atom t e stands)
  | group first last opens closes inner => .single (.group first last opens closes inner.row)
  | node t joins left right => left.row.join t joins right.row

theorem tokens_row (tree : Tree) : tree.row.tokens = tree.tokens := by
  induction tree with
  | atom t e stands => rfl
  | group first last opens closes inner ih => simp only [row, Row.tokens, Piece.tokens, ih, tokens]
  | node t joins left right ihLeft ihRight => rw [row, Row.tokens_join, ihLeft, ihRight, tokens]

/-- Where the top binds as tightly as the level, every operator outside of parentheses does. -/
theorem le_operators {tree : Tree} (climbs : tree.Climbs) {level : Int}
    (high : ∀ u ∈ tree.top?, level ≤ precedence u) : ∀ u ∈ tree.row.operators, level ≤ precedence u := by
  induction tree generalizing level with
  | atom t e stands => simp [row, Row.operators]
  | group first last opens closes inner ih => simp [row, Row.operators]
  | node t joins left right ihLeft ihRight =>
      obtain ⟨leftClimbs, rightClimbs, low, lower⟩ := climbs
      have top : level ≤ precedence t := high t rfl
      have onLeft := ihLeft leftClimbs fun u isTop => Int.le_trans top (low u isTop)
      have onRight := ihRight rightClimbs fun u isTop =>
        Int.le_trans top (Int.le_of_lt (lower u isTop))
      intro u sees
      rw [row, Row.operators_join, List.mem_append, List.mem_cons] at sees
      rcases sees with sees | rfl | sees
      · exact onLeft u sees
      · exact top
      · exact onRight u sees

/-- The operators around the place where two trees of one row would differ bind in one order in the
first tree and in the other order in the second. -/
theorem not_between {t u : Token} {joins : Joins t} {linked : Joins u} {left right : Tree}
    {a b between : Row} (climbs : left.Climbs) (climbs' : right.Climbs)
    (low : ∀ v ∈ left.top?, precedence u ≤ precedence v)
    (lower : ∀ v ∈ right.top?, precedence t < precedence v)
    (onLeft : left.row = a.join t joins between) (onRight : right.row = between.join u linked b) :
    False := by
  have first := le_operators climbs low t (by simp [onLeft, Row.operators_join])
  have second := le_operators climbs' (fun v isTop => Int.add_one_le_of_lt (lower v isTop)) u
    (by simp [onRight, Row.operators_join])
  omega

/-- A row is grouped in one way only. -/
theorem row_injective {a b : Tree} (climbs : a.Climbs) (climbs' : b.Climbs) (same : a.row = b.row) :
    a = b := by
  induction a generalizing b with
  | atom t e stands =>
      cases b with
      | atom t' e' stands' =>
          obtain ⟨rfl, rfl⟩ := Piece.atom.inj (Row.single.inj same)
          rfl
      | group first last opens closes inner => exact Piece.noConfusion (Row.single.inj same)
      | node u linked left right => exact absurd same (Row.single_ne_join linked _ _ _)
  | group first last opens closes inner ih =>
      cases b with
      | atom t e stands => exact Piece.noConfusion (Row.single.inj same)
      | group first' last' opens' closes' inner' =>
          obtain ⟨rfl, rfl, inside⟩ := Piece.group.inj (Row.single.inj same)
          obtain rfl : inner = inner' := ih climbs climbs' inside
          rfl
      | node u linked left right => exact absurd same (Row.single_ne_join linked _ _ _)
  | node t joins left right ihLeft ihRight =>
      cases b with
      | atom t e stands => exact absurd same.symm (Row.single_ne_join joins _ _ _)
      | group first last opens closes inner =>
          exact absurd same.symm (Row.single_ne_join joins _ _ _)
      | node u linked left' right' =>
          obtain ⟨leftClimbs, rightClimbs, low, lower⟩ := climbs
          obtain ⟨leftClimbs', rightClimbs', low', lower'⟩ := climbs'
          rcases Row.join_eq_join same with ⟨onLeft, rfl, onRight⟩ | ⟨between, onLeft, onRight⟩ |
            ⟨between, onLeft, onRight⟩
          · rw [ihLeft leftClimbs leftClimbs' onLeft, ihRight rightClimbs rightClimbs' onRight]
          · exact (not_between leftClimbs' rightClimbs low' lower onLeft onRight).elim
          · exact (not_between leftClimbs rightClimbs' low lower' onLeft onRight).elim

/-- A tree with an operand and an operator put before it, as far down on the left as the operator binds
at least as tightly. -/
def push (p : Tree) (t : Token) (joins : Joins t) : Tree → Tree
  | node u linked left right =>
      if precedence t < precedence u then node t joins p (node u linked left right)
      else node u linked (push p t joins left) right
  | other => node t joins p other

theorem row_push (p : Tree) {t : Token} (joins : Joins t) (tree : Tree) :
    (push p t joins tree).row = p.row.join t joins tree.row := by
  induction tree with
  | atom t e stands => rfl
  | group first last opens closes inner ih => rfl
  | node u linked left right ihLeft ihRight =>
      by_cases tighter : precedence t < precedence u
      · simp only [push, tighter, if_true, row]
      · simp only [push, tighter, if_false, row, ihLeft, Row.join_assoc]

theorem top_push (p : Tree) {t : Token} (joins : Joins t) (tree : Tree) :
    ∀ u ∈ (push p t joins tree).top?, u = t ∨ u ∈ tree.top? := by
  cases tree with
  | atom t e stands => simp [push, top?]
  | group first last opens closes inner => simp [push, top?]
  | node u linked left right =>
      by_cases tighter : precedence t < precedence u <;> simp [push, tighter, top?]

theorem climbs_push {p : Tree} (climbs : p.Climbs) (alone : p.top? = none) {t : Token}
    (joins : Joins t) {tree : Tree} (climbs' : tree.Climbs) : (push p t joins tree).Climbs := by
  induction tree with
  | atom t e stands => exact ⟨climbs, climbs', by simp [alone], by simp [top?]⟩
  | group first last opens closes inner ih =>
      exact ⟨climbs, climbs', by simp [alone], by simp [top?]⟩
  | node u linked left right ihLeft ihRight =>
      by_cases tighter : precedence t < precedence u
      · simp only [push, tighter, if_true]
        exact ⟨climbs, climbs', by simp [alone], by simpa [top?] using tighter⟩
      · obtain ⟨leftClimbs, rightClimbs, low, lower⟩ := climbs'
        simp only [push, tighter, if_false]
        refine ⟨ihLeft leftClimbs, rightClimbs, ?_, lower⟩
        intro v isTop
        rcases top_push p joins left v isTop with rfl | isTop
        · omega
        · exact low v isTop

end Tree

mutual

def Piece.tree : Piece → Tree
  | .atom t e stands => .atom t e stands
  | .group first last opens closes inner => .group first last opens closes inner.tree

/-- The right grouping of a row. -/
def Row.tree : Row → Tree
  | .single p => p.tree
  | .more p t joins others => .push p.tree t joins others.tree

end

theorem Piece.top_tree (p : Piece) : p.tree.top? = none := by
  cases p <;> simp [Piece.tree, Tree.top?]

mutual

theorem Piece.climbs_tree : ∀ p : Piece, p.tree.Climbs
  | .atom t e stands => by simp [Piece.tree, Tree.Climbs]
  | .group first last opens closes inner => by
      simp only [Piece.tree, Tree.Climbs]
      exact inner.climbs_tree

theorem Row.climbs_tree : ∀ row : Row, row.tree.Climbs
  | .single p => by
      simp only [Row.tree]
      exact p.climbs_tree
  | .more p t joins others => by
      simp only [Row.tree]
      exact Tree.climbs_push p.climbs_tree p.top_tree joins others.climbs_tree

end

mutual

theorem Piece.row_tree : ∀ p : Piece, p.tree.row = .single p
  | .atom t e stands => by simp only [Piece.tree, Tree.row]
  | .group first last opens closes inner => by simp only [Piece.tree, Tree.row, inner.row_tree]

theorem Row.row_tree : ∀ row : Row, row.tree.row = row
  | .single p => by simp only [Row.tree, p.row_tree]
  | .more p t joins others => by
      simp only [Row.tree, Tree.row_push, p.row_tree, others.row_tree, Row.join]

end

theorem Atom.kind {t : Token} {e : Expr} (stands : Atom t e) :
    t.kind = some .number ∨ t.kind = some .string ∨ t.kind = some .identifier := by
  cases stands <;> simp [*]

theorem Atom.unique {t : Token} {e e' : Expr} (stands : Atom t e) (stands' : Atom t e') : e = e' := by
  cases stands <;> cases stands' <;> simp_all

mutual

theorem Piece.eq_of_tokens : ∀ (p q : Piece) {a b : List Token}, p.tokens ++ a = q.tokens ++ b →
    p = q ∧ a = b
  | .atom t e stands, .atom t' e' stands', a, b, same => by
      simp only [Piece.tokens, List.singleton_append, List.cons.injEq] at same
      obtain ⟨rfl, rest⟩ := same
      obtain rfl := stands.unique stands'
      exact ⟨rfl, rest⟩
  | .atom t e stands, .group first last opens closes inner, a, b, same => by
      simp only [Piece.tokens, List.cons_append, List.cons.injEq] at same
      have kind := stands.kind
      simp [same.1, opens.1] at kind
  | .group first last opens closes inner, .atom t e stands, a, b, same => by
      simp only [Piece.tokens, List.cons_append, List.cons.injEq] at same
      have kind := stands.kind
      simp [← same.1, opens.1] at kind
  | .group first last opens closes inner, .group first' last' opens' closes' inner', a, b, same => by
      simp only [Piece.tokens, List.cons_append, List.append_assoc, List.nil_append,
        List.cons.injEq] at same
      obtain ⟨rfl, inside⟩ := same
      obtain ⟨rfl, after⟩ := Row.eq_of_tokens inner inner' (by simp [closes.1]) (by simp [closes'.1])
        inside
      obtain ⟨rfl, rest⟩ := List.cons.inj after
      exact ⟨rfl, rest⟩

/-- The tokens say which row it is, also where others follow that go on with no operator. -/
theorem Row.eq_of_tokens : ∀ (r s : Row) {a b : List Token},
    (∀ t ∈ a.head?, t.kind ≠ some .operator) → (∀ t ∈ b.head?, t.kind ≠ some .operator) →
    r.tokens ++ a = s.tokens ++ b → r = s ∧ a = b
  | .single p, .single q, a, b, _, _, same => by
      simp only [Row.tokens] at same
      obtain ⟨rfl, rest⟩ := Piece.eq_of_tokens p q same
      exact ⟨rfl, rest⟩
  | .single p, .more q t joins others, a, b, stops, _, same => by
      simp only [Row.tokens, List.append_assoc] at same
      obtain ⟨rfl, rfl⟩ := Piece.eq_of_tokens p q same
      exact absurd joins.1 (stops t (by simp))
  | .more p t joins others, .single q, a, b, _, stops, same => by
      simp only [Row.tokens, List.append_assoc] at same
      obtain ⟨rfl, rfl⟩ := Piece.eq_of_tokens p q same
      exact absurd joins.1 (stops t (by simp))
  | .more p t joins others, .more q u linked others', a, b, stops, stops', same => by
      simp only [Row.tokens, List.append_assoc] at same
      obtain ⟨rfl, after⟩ := Piece.eq_of_tokens p q same
      obtain ⟨rfl, further⟩ := List.cons.inj after
      obtain ⟨rfl, rest⟩ := Row.eq_of_tokens others others' stops stops' further
      exact ⟨rfl, rest⟩

end

/-- A tree over the tokens of a row groups that row. -/
theorem Tree.row_of_tokens {tree : Tree} {row : Row} (same : tree.tokens = row.tokens) :
    tree.row = row := by
  have tokens : tree.row.tokens ++ [] = row.tokens ++ [] := by rw [tree.tokens_row, same]
  exact (Row.eq_of_tokens tree.row row (by simp) (by simp) tokens).1

/-- No sign and no bracket can be read as a number. -/
theorem plain_of_numberOf {t : Token} {e : Expr} (value : numberOf t.value = .ok e) : Plain t := by
  have refused : ∀ s ∈ ["-", "+", "++", "--", "!", "(", "\x7b"], (numberOf s).toOption = none := by
    decide
  have other (s : String) (among : s ∈ ["-", "+", "++", "--", "!", "(", "\x7b"]) : t.value ≠ s := by
    rintro rfl
    have none := refused t.value among
    simp [value, Except.toOption] at none
  simp [Plain, isUnary, other]

theorem Atom.operand {t : Token} {e : Expr} (stands : Atom t e) : Operand e [t] := by
  cases stands with
  | number kind value => exact .number kind (plain_of_numberOf value) value
  | string kind bracket brace => exact .string kind ⟨by simp [isUnary, kind], bracket, brace⟩
  | name kind plain => exact .name kind plain

/-- The right grouping is a phrase of the grammar. -/
theorem Tree.phrase {tree : Tree} (climbs : tree.Climbs) {level : Int}
    (high : ∀ u ∈ tree.top?, level ≤ precedence u) : Phrase level tree.expr tree.tokens := by
  induction tree generalizing level with
  | atom t e stands => exact .operand stands.operand
  | group first last opens closes inner ih =>
      have inside : Phrase 0 inner.expr inner.tokens := ih climbs fun u _ => precedence_nonneg u
      exact .operand (.group opens closes (.phrase inside))
  | node t joins left right ihLeft ihRight =>
      obtain ⟨leftClimbs, rightClimbs, low, lower⟩ := climbs
      exact .binary joins (high t rfl) (ihLeft leftClimbs low)
        (ihRight rightClimbs fun u isTop => Int.add_one_le_of_lt (lower u isTop))

/-- Operands with operators between them, up to a newline, are read as the one tree over their tokens
in which the operators climb. -/
theorem readExpr_row (row : Row) {newline : Token} (kind : newline.kind = some .newline)
    (value : newline.value ≠ "." ∧ newline.value ≠ "(" ∧ newline.value ≠ "=") (rest : List Token) :
    ∃ tree : Tree, (tree.tokens = row.tokens ∧ tree.Climbs) ∧
      (∀ other : Tree, other.tokens = row.tokens → other.Climbs → other = tree) ∧
      ∀ fuel, 8 * row.tokens.length + 2 ≤ fuel →
        (readExpr fuel 0).run (row.tokens ++ newline :: rest) = (.ok tree.expr, newline :: rest) := by
  have tokens : row.tree.tokens = row.tokens := by rw [← Tree.tokens_row, Row.row_tree]
  have ends : Ends newline := ⟨by simp [kind], by simp [kind], value⟩
  refine ⟨row.tree, ⟨tokens, row.climbs_tree⟩, ?_, ?_⟩
  · intro other same climbs
    apply Tree.row_injective climbs row.climbs_tree
    rw [Tree.row_of_tokens same, Row.row_tree]
  · intro fuel enough
    have phrase : Phrase 0 row.tree.expr row.tokens :=
      tokens ▸ Tree.phrase row.climbs_tree fun u _ => precedence_nonneg u
    exact readExpr_sentence (.phrase phrase) fuel (newline :: rest) enough
      (parted_of_ends _ _ ends) (loose_of_ends _ _ ends)

/-- The row `a - (b == "c") * 2 - e`. -/
def mixedRow : Row :=
  .more (.atom ⟨some .identifier, "a", 1, 1⟩ (.ident "a") (.name rfl (by simp [Plain, isUnary])))
    ⟨some .operator, "-", 1, 3⟩ (by simp [Joins, isLeftAssociative])
  (.more (.group ⟨some .lparen, "(", 1, 5⟩ ⟨some .rparen, ")", 1, 14⟩ ⟨rfl, rfl⟩ ⟨rfl, rfl⟩
      (.more (.atom ⟨some .identifier, "b", 1, 6⟩ (.ident "b") (.name rfl (by simp [Plain, isUnary])))
        ⟨some .operator, "==", 1, 8⟩ (by simp [Joins, isLeftAssociative])
      (.single (.atom ⟨some .string, "c", 1, 11⟩ (.str "c") (.string rfl (by simp) (by simp))))))
    ⟨some .operator, "*", 1, 16⟩ (by simp [Joins, isLeftAssociative])
  (.more (.atom ⟨some .number, "2", 1, 18⟩ (.int 2) (.number rfl rfl))
    ⟨some .operator, "-", 1, 20⟩ (by simp [Joins, isLeftAssociative])
  (.single (.atom ⟨some .identifier, "e", 1, 22⟩ (.ident "e") (.name rfl (by simp [Plain, isUnary]))))))

theorem readExpr_mixedRow : (readExpr 90 0).run (mixedRow.tokens ++ [⟨some .newline, "newline", 1, 23⟩]) =
    (.ok (.binary "-" (.binary "-" (.ident "a") (.binary "*" (.binary "==" (.ident "b") (.str "c"))
      (.int 2))) (.ident "e")), [⟨some .newline, "newline", 1, 23⟩]) := by
  obtain ⟨tree, -, unique, reads⟩ := @readExpr_row mixedRow ⟨some .newline, "newline", 1, 23⟩ rfl
    (by simp) []
  have known : mixedRow.tree = tree := by
    apply unique
    · rw [← Tree.tokens_row, Row.row_tree]
    · exact mixedRow.climbs_tree
  rw [reads 90 (by decide), ← known]
  rfl

theorem numberOf_superscript : numberOf "²" = .error (.notInt "²") := by
  have bare : Number.unpadded "²" = ['²'] := by decide +kernel
  simp [numberOf, Number.readInt, bare, Number.splitSign]

/-- What does not climb: an assignment with an operator groups to the right, an opening bracket after a
name begins arguments even if it is an operator or a newline, and not every digit can be read. -/
theorem readExpr_not_climbing :
    (readExpr 42 0).run [⟨some .identifier, "x", 1, 1⟩, ⟨some .operator, "+=", 1, 3⟩,
        ⟨some .identifier, "y", 1, 6⟩, ⟨some .operator, "+=", 1, 8⟩, ⟨some .identifier, "z", 1, 11⟩,
        ⟨some .newline, "newline", 1, 12⟩] =
      (.ok (.binary "+=" (.ident "x") (.binary "+=" (.ident "y") (.ident "z"))),
        [⟨some .newline, "newline", 1, 12⟩]) ∧
    (readExpr 26 0).run [⟨some .identifier, "x", 1, 1⟩, ⟨some .operator, "(", 1, 2⟩,
        ⟨some .identifier, "y", 1, 3⟩, ⟨some .newline, "newline", 1, 4⟩] =
      (.error (.unexpected (.token "TokenType.LPAREN") "TokenType.OPERATOR" 1),
        [⟨some .identifier, "y", 1, 3⟩, ⟨some .newline, "newline", 1, 4⟩]) ∧
    (readExpr 10 0).run [⟨some .identifier, "x", 1, 1⟩, ⟨some .newline, "(", 1, 2⟩] =
      (.error (.unexpected (.token "TokenType.LPAREN") "TokenType.NEWLINE" 1), []) ∧
    (readExpr 10 0).run [⟨some .number, "²", 1, 1⟩, ⟨some .newline, "newline", 1, 2⟩] =
      (.error (.notInt "²"), [⟨some .newline, "newline", 1, 2⟩]) := by
  refine ⟨rfl, rfl, rfl, ?_⟩
  simp [readExpr, readPrimary, dropNewlines, isUnary, numberOf_superscript]

end Scriptlet.Climbing
