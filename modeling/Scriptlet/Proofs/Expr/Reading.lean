import Scriptlet.Expr.Read

set_option autoImplicit false

/-! How the steps of a reading run on a list of tokens. -/

namespace Scriptlet.Reading

variable {α β : Type} (tokens rest : List Token)

@[simp] theorem run_pure (a : α) : (pure a : Reading α).run tokens = (.ok a, tokens) := rfl

@[simp] theorem run_throw (fault : Fault) :
    (throw fault : Reading α).run tokens = (.error fault, tokens) := rfl

@[simp] theorem run_bind (r : Reading α) (k : α → Reading β) :
    (r >>= k).run tokens =
      match r.run tokens with
      | (.ok a, left) => (k a).run left
      | (.error fault, left) => (.error fault, left) := by
  change StateT.run (ExceptT.run (r >>= k)) tokens = _
  cases result : r.run tokens with
  | mk outcome left =>
      have executed : StateT.run (ExceptT.run r) tokens = (outcome, left) := result
      cases outcome <;> simp [ExceptT.run_bind, StateT.run_bind, executed] <;> rfl

section Bind

variable {tokens} {left : List Token} {r : Reading α} {k : α → Reading β}

theorem run_bind_of_ok {a : α} (ran : r.run tokens = (.ok a, left)) :
    (r >>= k).run tokens = (k a).run left := by
  rw [run_bind, ran]

theorem run_bind_of_error {fault : Fault} (ran : (r.run tokens).1 = .error fault) :
    ((r >>= k).run tokens).1 = .error fault := by
  have failed : r.run tokens = (.error fault, (r.run tokens).2) := Prod.ext ran rfl
  rw [run_bind, failed]

end Bind

@[simp] theorem run_map (f : α → β) (r : Reading α) :
    (f <$> r).run tokens =
      match r.run tokens with
      | (.ok a, left) => (.ok (f a), left)
      | (.error fault, left) => (.error fault, left) := by
  rw [map_eq_pure_bind, run_bind]
  rfl

@[simp] theorem run_lift (e : Except Fault α) : (liftM e : Reading α).run tokens = (e, tokens) := rfl

@[simp] theorem run_current : current.run tokens = (.ok tokens.head?, tokens) := rfl

@[simp] theorem run_next : next.run tokens = (.ok tokens.head?, tokens.tail) := rfl

@[simp] theorem run_demand_some (member : String) (t : Token) :
    (demand member (some t)).run tokens = (.ok t, tokens) := rfl

@[simp] theorem run_fuelled (r : Nat → Reading α) :
    (fuelled r).run tokens = (r (fuelFor tokens)).run tokens := rfl

@[simp] theorem run_currentKind (t : Token) :
    currentKind.run (t :: rest) = (.ok t.kind, t :: rest) := rfl

@[simp] theorem run_currentValue (t : Token) :
    currentValue.run (t :: rest) = (.ok t.value, t :: rest) := rfl

@[simp] theorem run_skipNewlines (limit : Option Nat) :
    (skipNewlines limit).run tokens =
      (.ok (dropNewlines limit tokens).head?, dropNewlines limit tokens) := rfl

theorem run_take {t : Token} {kind : TokenKind} (right : t.kind = some kind) :
    (take kind).run (t :: rest) = (.ok t, rest) := by
  simp [take, right]

theorem run_takeOneOf {t : Token} {kinds : List TokenKind} {kind : TokenKind}
    (right : t.kind = some kind) (member : kind ∈ kinds) :
    (takeOneOf kinds).run (t :: rest) = (.ok t, rest) := by
  have found : ∃ k, k ∈ kinds ∧ t.kind = some k := ⟨kind, member, right⟩
  simp [takeOneOf, found]

/-- Takes the token at the front, which must pass a test. This is what taking a token of a kind, of some
kinds or of a spelling comes to. -/
def accept (member : String) (p : Token → Prop) [DecidablePred p] (fault : Token → Fault) :
    Reading Token := do
  let t ← demand member (← next)
  if p t then return t else throw (fault t)

section Accept

variable {member : String} {p : Token → Prop} [DecidablePred p] {fault : Token → Fault} {t : Token}

theorem run_accept (passes : p t) :
    (accept member p fault).run (t :: rest) = (.ok t, rest) := by
  simp [accept, passes]

theorem run_accept_other (other : ¬ p t) :
    (accept member p fault).run (t :: rest) = (.error (fault t), rest) := by
  simp [accept, other]

end Accept

theorem dropNewlines_cons {t : Token} (limit : Option Nat) (other : t.kind ≠ some .newline) :
    dropNewlines limit (t :: rest) = t :: rest := by
  simp [dropNewlines, other]

end Scriptlet.Reading
