set_option autoImplicit false

/-!
Files in a directory. Paths are lists of names from that directory, or from the root of the file
system, where only the root itself is known.
-/

namespace Scriptlet

/-- A place in the file system: from the working directory, or absolute. -/
structure Path where
  absolute : Bool
  parts : List String
deriving Repr, DecidableEq

namespace Path

/-- The working directory. -/
def here : Path := ⟨false, []⟩

/-- Goes on from a path by one name: nothing and a point stay, two points go back. -/
def descend (parts : List String) (name : String) : List String :=
  if name = "" || name = "." then parts
  else if name = ".." then parts.dropLast
  else parts ++ [name]

/-- The path of a text, without detours. -/
def ofText (text : String) : Path :=
  ⟨text.startsWith "/", (text.splitOn "/").foldl descend []⟩

/-- A name inside a directory. An absolute name leaves the directory. -/
def join (path : Path) (name : String) : Path :=
  let inner := ofText name
  if inner.absolute then inner else { path with parts := inner.parts.foldl descend path.parts }

/-- The directory that a path lies in. -/
def parent (path : Path) : Path := { path with parts := path.parts.dropLast }

/-- The text of a path, given the text of the working directory. -/
def text (root : String) (path : Path) : String :=
  if path.absolute then "/" ++ "/".intercalate path.parts
  else "/".intercalate (root :: path.parts)

end Path

/-- The files of a directory by their paths; a path without contents is a directory. -/
structure Files where
  root : String
  entries : List (List String × Option String)

namespace Files

/-- No files. -/
def none : Files := ⟨"", []⟩

/-- The text of the working directory, with slashes only. -/
def workingDirectory (files : Files) : String :=
  String.ofList (files.root.toList.map fun c => if c = '\\' then '/' else c)

/-- Every line end as a line feed. -/
def plainLines : List Char → List Char
  | '\r' :: '\n' :: rest => '\n' :: plainLines rest
  | '\r' :: rest => '\n' :: plainLines rest
  | c :: rest => c :: plainLines rest
  | [] => []

/-- The text of a file. -/
def read? (files : Files) (path : Path) : Option String :=
  if path.absolute then .none
  else
    ((files.entries.find? fun e => e.1 = path.parts && e.2.isSome).bind (·.2)).map fun text =>
      String.ofList (plainLines text.toList)

/-- A directory: the working directory, one that was made, or one that holds something. -/
def isDirectory (files : Files) (path : Path) : Bool :=
  path.parts.isEmpty ||
    !path.absolute && files.entries.any fun e =>
      e.1 = path.parts && e.2.isNone || path.parts.isPrefixOf e.1 && path.parts ≠ e.1

/-- Whether some directory on the way to a path is a file. -/
def passesFile (files : Files) (path : Path) : Bool :=
  !path.absolute && files.entries.any fun e =>
    e.2.isSome && e.1.isPrefixOf path.parts && e.1 ≠ path.parts

end Files

end Scriptlet
