set_option autoImplicit false

/-! Classes of characters given as closed intervals of code points. -/

namespace Scriptlet.Text

/-- The interval holds the character. -/
def holds (c : Char) (span : Nat × Nat) : Bool := span.1 ≤ c.toNat && c.toNat ≤ span.2

/-- One of the intervals holds the character. -/
def covers (spans : Array (Nat × Nat)) (c : Char) : Bool := spans.any (holds c)

end Scriptlet.Text
