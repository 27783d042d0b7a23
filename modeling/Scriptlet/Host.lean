import Scriptlet.Listing
import Scriptlet.Value

set_option autoImplicit false

/-!
What a run leaves to the host that it runs on: where functions lie in memory, which their texts show,
and how programs are encoded for listings. Nothing in the language depends on what the host decides
but for the texts.
-/

namespace Scriptlet

/-- What is decided outside of the language. -/
structure Host where
  /-- The address of a function of the program, by the number of its definition. -/
  address : Nat → String
  /-- The address of a builtin function, by its name. -/
  builtinAddress : String → String
  /-- The document that a program is encoded as. -/
  encode : List Expr → Except Fault Listing

/-- The listing of a program, as it is printed before the program runs. -/
def Host.listing (host : Host) (program : List Expr) : Except Fault String := do
  (← host.encode program).announce

end Scriptlet
