set_option autoImplicit false

/-! Going through a list one item at a time, with the next item in view. -/

namespace Scriptlet.Lookahead

/-- Takes the item in view: that item and the list after it. At the end there is none. -/
def take {α : Type} (items : List α) : Option α × List α := (items.head?, items.tail)

/-- Takes so many items: each with the one in view after it. -/
def walk {α : Type} : Nat → List α → List (Option α × Option α)
  | 0, _ => []
  | count + 1, items => (items.head?, items.tail.head?) :: walk count items.tail

end Scriptlet.Lookahead
