import Scriptlet.Evaluation

set_option autoImplicit false

/-!
A session: lines that are run one after another, each as a program of its own, in one outermost scope
and with one scanner. Faults are written out and do not end the session.
-/

namespace Scriptlet

/-- How a run of the program ended. -/
inductive Ending
  | done
  /-- The program was asked to stop. -/
  | exit
  | failed (fault : Fault)

/-- The state between two lines. -/
structure Session where
  machine : Machine
  cursor : Cursor
  verbose : Bool
  folder : Option Path

namespace Session

/-- The outermost scope, in which every line runs. -/
def scope : Scope := [0]

/-- What a line of a single name shows: the value of a variable, or a function. -/
def showName (name : String) : Run String := do
  match (← Run.lookup scope name).2 with
  | .record r => liftM r.value.text
  | .function f => liftM f.text

/-- What a program shows: its first result. -/
def showProgram (tokens : List Token) (verbose : Bool) (folder : Option Path) : Run String := do
  let program ← liftM (Expr.ofTokens tokens)
  if verbose then Run.write (← liftM ((← get).host.listing program))
  let program ← liftM (Expr.foldProgram program).1
  match ← Run.evalProgram Run.depthLimit program scope verbose folder with
  | [] => throw .outOfRange
  | first :: _ =>
    match ← Run.snapshot first with
    | .null => return "null"
    | v => liftM v.text

/-- What the tokens of a line show. -/
def showTokens (tokens : List Token) (verbose : Bool) (folder : Option Path) : Run String :=
  match tokens with
  | [token] =>
    if token.kind = some .identifier then showName token.value
    else showProgram tokens verbose folder
  | _ => showProgram tokens verbose folder

/-- Writes what a line shows, or the fault that it ends in. -/
def report (shown : Run String) : Run Unit := do
  try Run.write ((← shown) ++ "\n")
  catch fault =>
    if fault.isHandled then Run.write ("Exception: " ++ fault.message ++ "\n") else throw fault

/-- Runs a line. -/
def runLine (session : Session) (line : String) : Ending × Session :=
  if line = "exit" then (.exit, session)
  else
    let (tokens, cursor) := Token.scan line session.cursor
    let shown : Run String := do showTokens (← liftM tokens) session.verbose session.folder
    let (outcome, machine) := (report shown).exec session.machine
    let session := { session with machine, cursor }
    match outcome with
    | .ok () => (.done, session)
    | .error fault => (.failed fault, session)

/-- The text of a prompt. -/
def prompt : String := "> "

/-- Prompts for lines and runs them up to an empty line, a request to stop or the end of the input. The
fuel bounds the number of lines. -/
def loop : Nat → Session → Ending × Session
  | 0, session => (.failed .outOfFuel, session)
  | fuel + 1, session =>
    let (line, console) := (session.machine.console.write prompt).readLine
    let session := { session with machine := { session.machine with console } }
    match line with
    | .error .interrupted => (.exit, session)
    | .error fault => (.failed fault, session)
    | .ok line =>
      if line = "" then (.done, session)
      else
        match runLine session line with
        | (.done, session) => loop fuel session
        | stopped => stopped

end Session

end Scriptlet
