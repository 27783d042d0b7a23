import Scriptlet.Proofs.Expr.Ending
import Scriptlet.Proofs.Expr.Separation
import Scriptlet.Proofs.Source.RoundTrip

set_option autoImplicit false

/-!
Programs before other programs. The newline that ends the last line of a program divides it from every
text after it, except that a reassignment goes on with an operator at the start of the text.
-/

namespace Scriptlet.Source

open Reading

section Lines

variable {program : Block} {front back : List Token} {s : Token} {text : String} {q : List Expr}

/-- The lines of a program and a text after them are read as the statements of both. -/
theorem ofTokens_lines (spelled : Token.Spelled (front ++ [s]) program.words) (breaks : Breaks s)
    (scanned : Token.ofText text = .ok back) (read : Expr.ofTokens back = .ok q)
    (apart : program.EndsReassigning → Unsigned text) :
    Expr.ofTokens (front ++ s :: back) = .ok (program.exprs ++ q) := by
  have stops (m : Token) (follows : Follows [m]) (loose : program.EndsReassigning → Loose (-1) [m]) :
      Sequence (front ++ s :: m :: []) program.exprs (m :: []) := by
    have sequence := sequence_block program spelled follows loose
    rwa [List.append_assoc, List.singleton_append] at sequence
  by_cases ending : program.EndsReassigning
  · have zero := stops ⟨some .number, "0", 1, 1⟩ (by simp [Follows]) fun _ => by simp [Loose]
    exact ofTokens_of_stops (.inl ⟨rfl, rfl⟩) (.inl breaks.1) zero scanned read
      (.inr (apart ending back scanned))
  · have minus := stops ⟨some .operator, "-", 1, 1⟩ (by simp [Follows]) fun wrong => absurd wrong ending
    exact ofTokens_of_stops (.inr ⟨rfl, rfl⟩) (.inl breaks.1) minus scanned read (.inl ⟨rfl, rfl⟩)

/-- The newline after a program divides it from every text, or from those that do not begin with an
operator. -/
theorem block_divides (spelled : Token.Spelled (front ++ [s]) program.words) (breaks : Breaks s)
    (apart : program.EndsReassigning → Unsigned text) : DividesText front s text := by
  intro back scanned p q accepted read
  obtain rfl : p = program.exprs := eq_of_newline breaks accepted (ofTokens_block spelled)
  exact ofTokens_lines spelled breaks scanned read apart

end Lines

end Scriptlet.Source
