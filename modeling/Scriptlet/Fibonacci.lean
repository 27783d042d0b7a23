import Scriptlet.Evaluation

set_option autoImplicit false

/-! The recursive program for Fibonacci numbers: the smallest one that uses functions, conditions, returns
and nested scopes at once. -/

namespace Scriptlet.Fibonacci

/-- The definition of the function. -/
def definition : String :=
  "fun Fib(let n) \x7b if (n <= 1) \x7b return n \x7d return Fib(n - 2) + Fib(n - 1) \x7d"

/-- The definition and a call of it. -/
def text (n : Nat) : String := s!"{definition}\nFib({n})\n"

/-- What the call gives in a fresh machine without builtin functions. -/
def call (n : Nat) : Except Fault Value :=
  let program : Run Value := do
    match (← Run.runText (text n) [0] false none).getLast? with
    | some result => Run.snapshot result
    | none => throw .outOfRange
  (program.exec (.fresh (.ofInput "" false) .none false)).1

end Scriptlet.Fibonacci
