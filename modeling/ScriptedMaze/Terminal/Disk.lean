import ScriptedMaze.Maze.File

/-!
# Files

A disk gives the bytes of a file, or says why it cannot. Text files are UTF-8,
and whichever way a line ends in a file, it ends with a line feed once the file
is read; a byte order mark is a character like any other.

`Disk.ofFiles` is a disk that holds given files below the directory one is in,
and nothing else. A path is **walked** on it, name by name (`Tree.walk`): from
the root if it begins with a slash, otherwise from the directory one is in. A
walk goes on from directories only, so that `..` leads back from a directory
that is there and from nothing else. The directories around the one in which the
walk begins are there too, and hold nothing else that has a name.
-/

namespace ScriptedMaze.Terminal

/-- Why a file cannot be read. -/
inductive FileFault where
  | notFound
  | isDirectory
  | notDirectory
  | notText
  /-- The path, or a name on it, is longer than any may be. -/
  | tooLong
  /-- There is a NUL in the path, which can be in no name. -/
  | holdsNul
deriving DecidableEq, Repr

/-- What is printed about a file that cannot be read. -/
def FileFault.message : FileFault → String
  | notFound => "no such file"
  | isDirectory => "this is a directory"
  | notDirectory => "this is not a directory"
  | notText => "this is not a text file"
  | tooLong => "file name too long"
  | holdsNul => "embedded null byte"

/-- The files, by path. -/
abbrev Disk := String → Except FileFault ByteArray

/-- A place on a disk. -/
inductive Location where
  /-- A place below the directory one is in, by the names that lead there, the
  last one first. -/
  | below (names : List String)
  /-- A directory around the one that one is in. -/
  | around
deriving DecidableEq, Repr

/-- Files and directories, each by the names that lead there, the last one
first. -/
structure Tree where
  files : List (List String × ByteArray)
  directories : List (List String)

namespace Tree

/-- The places on the way to a file that is to be put on a disk, the file's own
one first. -/
def placesTo (path : String) : List (List String) :=
  (pathComponents path).foldl
    (fun seen name =>
      let here := seen.headD []
      (if name = ".." then here.drop 1 else name :: here) :: seen)
    [[]]

/-- The tree of some files, with the directories that they are in. -/
def ofFiles (files : List (String × ByteArray)) : Tree where
  files := files.map fun (path, bytes) => ((placesTo path).headD [], bytes)
  directories := [] :: files.flatMap fun (path, _) => (placesTo path).drop 1

/-- The file at a place. -/
def file? (t : Tree) : Location → Option ByteArray
  | .below names => (t.files.find? (·.1 = names)).map (·.2)
  | .around => none

/-- Whether there is something at a place. -/
def holds (t : Tree) (names : List String) : Bool :=
  t.directories.contains names || t.files.any (·.1 = names)

/-- The bytes of the longest name. -/
def longestName : Nat := 255

/-- The bytes of the longest path. -/
def longestPath : Nat := 4095

/-- One step of a walk. Two slashes in a row leave no name between them, and lead
no further than the dot does. -/
def step (t : Tree) (p : Location) (name : String) : Except FileFault Location :=
  if (t.file? p).isSome then .error .notDirectory
  else if name = "" ∨ name = "." then .ok p
  else if longestName < name.utf8ByteSize then .error .tooLong
  else
    match p with
    | .around => if name = ".." then .ok .around else .error .notFound
    | .below names =>
      if name = ".." then .ok (if names.isEmpty then .around else .below (names.drop 1))
      else if t.holds (name :: names) then .ok (.below (name :: names))
      else .error .notFound

/-- The place that names lead to. -/
def walk (t : Tree) (p : Location) : List String → Except FileFault Location
  | [] => .ok p
  | name :: rest =>
    match t.step p name with
    | .ok p => t.walk p rest
    | .error f => .error f

/-- The bytes of the file that a path leads to. -/
def read (t : Tree) (path : String) : Except FileFault ByteArray :=
  let cs := path.toList
  if cs.contains '\x00' then .error .holdsNul
  else if cs.isEmpty then .error .notFound
  else if longestPath < path.utf8ByteSize then .error .tooLong
  else
    let start := if cs.head? = some '/' then Location.around else .below []
    match t.walk start ((Text.pieces '/' cs).map String.ofList) with
    | .ok p =>
      match t.file? p with
      | some bytes => .ok bytes
      | none => .error .isDirectory
    | .error f => .error f

end Tree

namespace Disk

/-- A disk with the given files and no others. -/
def ofFiles (files : List (String × ByteArray)) : Disk := (Tree.ofFiles files).read

/-- The text of a file. -/
def readText (disk : Disk) (path : String) : Except FileFault String := do
  match String.fromUTF8? (← disk path) with
  | some text => return String.ofList (Text.unifyLineEnds text.toList)
  | none => throw .notText

/-- A path without the dots and the slashes that lead nowhere; the empty path is
the directory one is in. -/
def cleanPath (path : String) : String :=
  let front := if path.toList.head? = some '/' then "/" else ""
  let parts := pathComponents path
  if parts.isEmpty then (if front.isEmpty then "." else front)
  else front ++ "/".intercalate parts

end Disk

end ScriptedMaze.Terminal
