import Rollout.Failure.Cause
import Rollout.Text.Utf8

/-!
# Trees of files

A tree of directories and files, and how a path leads through it.  Paths are followed one part at a
time, from the root or from the working directory.  Every part but the last must be a directory, and
so must what stands before an empty part, a `.` or a `..`.  The parent of the root is the root.

A path holds no NUL, is not empty and is shorter than 4096 bytes, and its parts have at most 255
bytes.
-/

namespace Rollout

/-- Where something lies in a tree: the names on the way from the root, innermost first. -/
abbrev Location : Type := List String

/-- What can lie at a location. -/
inductive FileNode
  | directory
  | file (content : List UInt8)
  deriving DecidableEq, Repr, Inhabited

/-- A tree of directories and files. -/
structure FileTree where
  workingDirectory : Location
  /-- What lies where.  The root is a directory without being listed. -/
  nodes : List (Location × FileNode)
  deriving Repr, Inhabited

namespace FileTree

/-- What lies at a location. -/
def node? (tree : FileTree) (location : Location) : Option FileNode :=
  if location.isEmpty then some .directory else tree.nodes.lookup location

/-! ## Building a tree -/

/-- The tree with something at a location. -/
def put (location : Location) (node : FileNode) (tree : FileTree) : FileTree :=
  { tree with nodes := (location, node) :: tree.nodes.filter (·.1 ≠ location) }

/-- The tree with a directory at a location and all around it. -/
def putDirectories : Location → FileTree → FileTree
  | [], tree => tree
  | name :: around, tree => (putDirectories around tree).put (name :: around) .directory

/-- A tree with nothing in it but the working directory and the directories around it. -/
def empty (workingDirectory : Location) : FileTree :=
  putDirectories workingDirectory ⟨workingDirectory, []⟩

/-! ## Following a path -/

/-- The greatest number of bytes of a part. -/
def maxPartBytes : Nat := 255

/-- A path must be shorter than this number of bytes. -/
def pathLimit : Nat := 4096

/-- Follows the parts of a path from a location. -/
def follow (tree : FileTree) (location : Location) : List (List Char) → Except IoFault Location
  | [] => .ok location
  | part :: rest =>
      if tree.node? location ≠ some .directory then .error .notDirectory
      else if part = [] ∨ part = ['.'] then follow tree location rest
      else if part = ['.', '.'] then follow tree location.tail rest
      else
        let name := String.ofList part
        if maxPartBytes < name.utf8ByteSize then .error .nameTooLong
        else if (tree.node? (name :: location)).isNone then .error .notFound
        else follow tree (name :: location) rest

/-- Where a path starts. -/
def start (tree : FileTree) (path : Path) : Location :=
  if path.isAbsolute then [] else tree.workingDirectory

/-- Refuses a path that no system call takes. -/
def screen (path : Path) : Except IoFault Unit :=
  if '\x00' ∈ path.text.toList then .error .nulInPath
  else if path.text.isEmpty then .error .notFound
  else if pathLimit ≤ path.text.utf8ByteSize then .error .nameTooLong
  else .ok ()

/-- The location that a path leads to. -/
def locate (tree : FileTree) (path : Path) : Except IoFault Location := do
  screen path
  follow tree (tree.start path) path.parts

/-! ## Reading -/

/-- The content of the file at a path. -/
def readBytes (tree : FileTree) (path : Path) : Except IoFault (List UInt8) := do
  let location ← tree.locate path
  match tree.node? location with
  | some (.file content) => return content
  | some .directory => throw .isDirectory
  | none => throw .notFound

/-- The text of the file at a path. -/
def read (tree : FileTree) (path : Path) : Except IoFault String := do
  let content ← tree.readBytes path
  match Text.decode? (ByteArray.mk content.toArray) with
  | some text => return text
  | none => throw .notText

/-- Whether a path leads to a file. -/
def isFile (tree : FileTree) (path : Path) : Bool :=
  match tree.readBytes path with
  | .ok _ => true
  | .error _ => false

/-! ## Writing -/

/-- The parts of a path without empty ones at the end, and whether there were any. -/
def withoutTrailingSlash (parts : List (List Char)) : List (List Char) × Bool :=
  let kept := (parts.reverse.dropWhile (· = [])).reverse
  (kept, kept.length < parts.length)

/-- The tree with a file of the given text, which is made or replaced.  Its directory must exist,
and the path must not have the form of a directory's. -/
def write (tree : FileTree) (path : Path) (text : String) : Except IoFault FileTree := do
  screen path
  let (parts, slash) := withoutTrailingSlash path.parts
  -- the last part may be missing, but everything before it must be there
  let directory ← follow tree (tree.start path) parts.dropLast
  if tree.node? directory ≠ some .directory then throw .notDirectory
  match parts.getLast? with
  | none => throw .isDirectory
  | some last =>
      let name := String.ofList last
      if slash || last = ['.'] || last = ['.', '.'] then throw .isDirectory
      if maxPartBytes < name.utf8ByteSize then throw .nameTooLong
      if tree.node? (name :: directory) = some .directory then throw .isDirectory
      return tree.put (name :: directory) (.file text.toUTF8.toList)

/-! ## Programs -/

/-- Why a program whose name holds a slash cannot be started.  No file of a tree may be run. -/
def refusal (tree : FileTree) (path : Path) : IoFault :=
  match tree.locate path with
  | .ok _ => .permissionDenied
  | .error fault => fault

end FileTree
end Rollout
