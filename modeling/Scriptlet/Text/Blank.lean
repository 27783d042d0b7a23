import Scriptlet.Text.Span

set_option autoImplicit false

/-! Blanks: the characters that stand between tokens. -/

namespace Scriptlet.Text

/-- Every blank: the ASCII controls 9 to 13 and 28 to 31, the space, and the spaces and line
separators of other scripts. -/
def blankSpans : Array (Nat × Nat) :=
  #[(9, 13), (28, 32), (133, 133), (160, 160), (5760, 5760), (8192, 8202), (8232, 8233),
    (8239, 8239), (8287, 8287), (12288, 12288)]

/-- A space, tab, line end or other separator. -/
def isBlank (c : Char) : Bool := covers blankSpans c

end Scriptlet.Text
