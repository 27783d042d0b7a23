import Scriptlet.CommandLine

set_option autoImplicit false

/-!
The program: the command line on the files of the working directory and the standard streams. A run that
asks for more input than there is starts again with one line more, and only what is new is written, so
the run itself stays pure.
-/

namespace Scriptlet.Main

/-- The text of a file, or nothing if it is not text. -/
def textOf (name : String) : IO (Option String) :=
  try return some (← IO.FS.readFile name) catch _ => return none

/-- The scripts below a directory, and the directories on the way. -/
partial def scriptsBelow (folder : String) (parts : List String) :
    IO (List (List String × Option String)) := do
  let mut found := []
  for entry in ← (← IO.FS.realPath folder).readDir do
    let parts := parts ++ [entry.fileName]
    if ← entry.path.isDir then
      if !entry.fileName.startsWith "." then
        found := found ++ [(parts, none)] ++ (← scriptsBelow entry.path.toString parts)
    else if entry.fileName.endsWith ".jk" then
      found := found ++ [(parts, ← textOf entry.path.toString)]
  return found

/-- The files that a command line can reach: the scripts, and the file that it names. -/
def files (args : List String) : IO Files := do
  let root := (← IO.currentDir).toString
  let scripts ← scriptsBelow root []
  let named ← match (CommandLine.parse args).1 with
    | .file path _ => do
      match ← textOf path with
      | some text => pure [((Path.ofText path).parts, some text)]
      | none => pure []
    | _ => pure []
  return ⟨root, scripts ++ named⟩

/-- Runs with the input so far, and again with more while more is asked for. -/
partial def loop (args : List String) (files : Files) (input : String) (written : Nat) :
    IO Ending := do
  let (ending, console) := CommandLine.run args (.ofInput input false) files
  let output ← IO.getStdout
  output.putStr (console.output.drop written).toString
  output.flush
  if console.starved then
    let line ← (← IO.getStdin).getLine
    if line.isEmpty then return ending
    loop args files (input ++ line) console.output.length
  else return ending

end Scriptlet.Main

def main (args : List String) : IO UInt32 := do
  match ← Scriptlet.Main.loop args (← Scriptlet.Main.files args) "" 0 with
  | .done | .exit => return 0
  | .failed fault =>
    IO.eprintln s!"{fault.className}: {fault.message}"
    return 1
