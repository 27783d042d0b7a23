import Scriptlet.Session

set_option autoImplicit false

/-!
The command line: help, a session, or the run of a file. Options may stand anywhere and count once.
-/

namespace Scriptlet.CommandLine

/-- What is shown on request. -/
def help : String :=
  "\n".intercalate
    ["jink - strongly typed, JavaScript-like programming language.",
      "https://www.github.com/jink-lang/jink",
      "",
      "args:",
      "  > -v -- verbose; will output AST.",
      "usage:",
      "  > [jink] help                 -- shows this prompt.",
      "  > [jink] path/to/file[.jk]    -- executes interpreter on file.",
      "  > [jink] -v path/to/file[.jk] -- executes interpreter on file verbose mode.",
      "  > [jink]                      -- launches interpreted interactive REPL.",
      "  > [jink] -v                   -- launches interpreted interactive REPL in verbose mode."] ++
    "\n"

/-- What a session begins with. -/
def greeting : String := "jink REPL - use '[jink] help' for help - type 'exit' to exit.\n"

/-- What a command line asks for. -/
inductive Command
  | help
  | session
  | file (path : String) (compiled : Bool)
deriving Repr, DecidableEq

/-- Drops the name of the program, if it is the name of a script. -/
def dropScript : List String → List String
  | name :: rest => if name.endsWith ".py" then rest else name :: rest
  | [] => []

/-- The command and whether it is verbose. -/
def parse (argv : List String) : Command × Bool :=
  let args := dropScript argv
  let verbose := args.contains "-v"
  let args := args.erase "-v"
  let compiled := args.contains "-c"
  let args := args.erase "-c"
  let command := match args with
    | [] | ["-v"] => .session
    | first :: _ => if first = "help" then .help else .file (" ".intercalate args) compiled
  (command, verbose)

/-- The text of a file to be run. -/
def fileText (files : Files) (path : Path) : Except Fault String :=
  if files.isDirectory path then .error (.directoryGiven (path.text files.root))
  else
    match files.read? path with
    | some text => .ok text
    | none =>
      .error (if files.passesFile path then .notDirectory (path.text files.root)
        else .fileMissing (path.text files.root))

/-- Runs a file in a fresh machine with builtin functions. -/
def runFile (console : Console) (files : Files) (path : Path) (compiled verbose : Bool)
    (host : Host) : Ending × Console :=
  let program : Run Unit := do
    let text ← liftM (fileText files path)
    if compiled then throw .noCompiler
    let _ ← Run.runText text Session.scope verbose (some path.parent)
  match program.exec (.freshWithBuiltins console files host) with
  | (.ok (), machine) => (.done, machine.console)
  | (.error fault, machine) => (.failed fault, machine.console)

/-- A session in a fresh machine without builtin functions. -/
def freshSession (console : Console) (files : Files) (verbose : Bool) (host : Host) : Session :=
  { machine := .fresh console files false host, cursor := .start, verbose, folder := some .here }

/-- Runs a command line on a console and files. -/
def run (argv : List String) (console : Console) (files : Files) (host : Host := .plain) :
    Ending × Console :=
  match parse argv with
  | (.help, _) => (.done, console.write help)
  | (.session, verbose) =>
    let session := freshSession (console.write greeting) files verbose host
    let (ending, session) := session.loop (console.input.length + 2)
    (ending, session.machine.console)
  | (.file path compiled, verbose) => runFile console files (.ofText path) compiled verbose host

end Scriptlet.CommandLine
