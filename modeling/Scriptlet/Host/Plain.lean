import Scriptlet.Host
import Scriptlet.Listing.Encoding

set_option autoImplicit false

/-! The host of the program itself, which shows no addresses. -/

namespace Scriptlet.Host

/-- A mark in place of every address, and the usual encoding. -/
def plain : Host where
  address _ := Value.noAddress
  builtinAddress _ := Value.noAddress
  encode program := .ok (Listing.ofProgram program)

end Scriptlet.Host
