import Scriptlet.Fault
import Scriptlet.Token

set_option autoImplicit false

/-!
Reading tokens from left to right, one at a time. A reading that fails keeps the tokens it has left, so
that another reading can go on from there.
-/

namespace Scriptlet

/-- A computation that takes tokens from the front of a list. -/
abbrev Reading := ExceptT Fault (StateM (List Token))

namespace Reading

/-- Runs a reading: its result or fault, and the tokens left. -/
def run {α : Type} (r : Reading α) (tokens : List Token) : Except Fault α × List Token :=
  StateT.run (ExceptT.run r) tokens

/-- The token at the front. -/
def current : Reading (Option Token) := do return (← get).head?

/-- Takes the token at the front. -/
def next : Reading (Option Token) := do
  let tokens ← get
  set tokens.tail
  return tokens.head?

/-- A token that must be there for its member to be looked at. -/
def demand (member : String) : Option Token → Reading Token
  | some token => return token
  | none => throw (.noAttribute "NoneType" member)

/-- The token at the front, of which the kind is wanted. -/
def currentKind : Reading (Option TokenKind) := do
  let token ← demand "type" (← current)
  return token.kind

/-- The token at the front, of which the spelling is wanted. -/
def currentValue : Reading String := do
  let token ← demand "value" (← current)
  return token.value

/-- What a token is asked to be. -/
inductive Item
  | anything
  | kind (k : TokenKind)
  | spelling (s : String)
  | oneOf (kinds : List TokenKind)
deriving Repr, DecidableEq

/-- Whether an item asks for nothing in particular. -/
def Item.isOpen : Item → Bool
  | anything => true
  | kind _ => false
  | spelling s => s.isEmpty
  | oneOf kinds => kinds.isEmpty

/-- Takes the token at the front if its kind is asked for, and else leaves it. -/
def takeIf (item : Item) : Reading (Option Token) := do
  let kind ← currentKind
  let wanted : Bool := match item with
    | .kind k => kind = some k
    | .oneOf kinds => kinds.any fun k => kind = some k
    | _ => false
  if wanted then next else return none

/-- Takes the token at the front, which must be of the kind. -/
def take (kind : TokenKind) : Reading Token := do
  let token ← demand "value" (← next)
  if token.kind = some kind then return token
  else throw (.unexpected (.token kind.text) token.kindText token.line)

/-- Takes the token at the front, which must have the spelling and not be a string. -/
def takeSpelled (spelling : String) : Reading Token := do
  let token ← demand "value" (← next)
  if token.value = spelling && token.kind ≠ some .string then return token
  else throw (.unexpected (.token spelling) token.kindText token.line)

/-- Takes the token at the front, which must be of one of the kinds. -/
def takeOneOf (kinds : List TokenKind) : Reading Token := do
  let token ← demand "type" (← next)
  if kinds.any fun k => token.kind = some k then return token
  else throw (.notJoinable 0 "TokenType")

/-- Takes the token at the front if it is what is asked for. If it is not, a soft reading leaves it
and any other takes it and fails. -/
def consume (item : Item) (soft : Bool) : Reading (Option Token) :=
  if item.isOpen then next
  else if soft then takeIf item
  else
    match item with
    | .anything => next
    | .kind k => some <$> take k
    | .spelling s => some <$> takeSpelled s
    | .oneOf kinds => some <$> takeOneOf kinds

/-- Drops the newlines at the front, at most so many if a limit is given. -/
def dropNewlines : Option Nat → List Token → List Token
  | _, [] => []
  | limit, token :: rest =>
    if token.kind = some .newline && limit ≠ some 0 then dropNewlines (limit.map (· - 1)) rest
    else token :: rest

/-- Skips newlines and gives the token after them. -/
def skipNewlines (limit : Option Nat) : Reading (Option Token) := do
  modify (dropNewlines limit)
  current

end Reading

end Scriptlet
