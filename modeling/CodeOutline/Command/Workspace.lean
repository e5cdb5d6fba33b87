/-
  CodeOutline/Command/Workspace.lean
  ==================================
  **The files that a command sees.**

  A workspace is a directory with files in it and below it.  A path is followed component by
  component, and every component on the way must be a directory.  The directories above the
  workspace exist, but nothing is known of what else is in them.
-/
import CodeOutline.Text.FilePath
import CodeOutline.Text.Quoted
import CodeOutline.Text.Utf8
import CodeOutline.Tree.Node

namespace CodeOutline

open Text (Chars)

def parentName : Chars := ['.', '.']

/-- Where something stands: the names on the way to it, from the workspace or from the root on.
Double dots stand only at the front, where they lead above the workspace. -/
structure Location where
  root : Chars            -- empty when the way starts in the workspace
  names : List Chars
deriving DecidableEq, Repr

namespace Location

/-- Whether a location is the start of its ways or above it. -/
def isAbove (l : Location) : Bool :=
  l.names.all (· == parentName)

/-- Where a name leads from a location.  What is above the root is the root itself. -/
def enter (l : Location) (name : Chars) : Location :=
  if name ≠ parentName then { l with names := l.names ++ [name] }
  else if l.isAbove then
    if l.root = [] then { l with names := l.names ++ [name] } else l
  else { l with names := l.names.dropLast }

def toPath (l : Location) : FilePath :=
  ⟨l.root, l.names⟩

/-- The locations through which names lead, the last one among them. -/
def trail (l : Location) : List Chars → List Location
  | [] => [l]
  | name :: later => l :: (l.enter name).trail later

end Location

namespace FilePath

/-- Where a path starts. -/
def origin (path : FilePath) : Location :=
  ⟨path.root, []⟩

/-- Where a path leads, if all on the way are directories. -/
def goal (path : FilePath) : Location :=
  path.components.foldl Location.enter path.origin

def trail (path : FilePath) : List Location :=
  path.origin.trail path.components

end FilePath

/-- A file, with what the parser of its language makes of its text. -/
structure StoredFile where
  location : Location
  bytes : List UInt8
  parsed : Parsed
deriving Repr

structure Workspace where
  files : List StoredFile
  directories : List Location      -- beside those that hold the files
deriving Repr

inductive PathFault where
  | absent
  | notDirectory      -- a component on the way is a file
  | isDirectory       -- the path leads to a directory
deriving DecidableEq, Repr

/-- The system's number and words for a fault. -/
def PathFault.message : PathFault → String
  | .absent => "[Errno 2] No such file or directory"
  | .notDirectory => "[Errno 20] Not a directory"
  | .isDirectory => "[Errno 21] Is a directory"

namespace Workspace

def empty : Workspace := ⟨[], []⟩

def file? (w : Workspace) (l : Location) : Option StoredFile :=
  w.files.find? (·.location == l)

/-- Whether a file stands somewhere below a location. -/
def holdsFile (w : Workspace) (l : Location) : Bool :=
  w.files.any fun f =>
    f.location.root == l.root && l.names.isPrefixOf f.location.names
      && l.names.length < f.location.names.length

def isDirectory (w : Workspace) (l : Location) : Bool :=
  l.isAbove || w.directories.contains l || w.holdsFile l

/-- Follows names from a location on. -/
def follow (w : Workspace) (l : Location) : List Chars → Except PathFault Location
  | [] => .ok l
  | name :: later =>
    if w.isDirectory l then w.follow (l.enter name) later
    else .error (if (w.file? l).isSome then .notDirectory else .absent)

def locate (w : Workspace) (path : FilePath) : Except PathFault Location :=
  w.follow path.origin path.components

/-- The file that a path leads to. -/
def read (w : Workspace) (path : FilePath) : Except PathFault StoredFile := do
  let l ← w.locate path
  match w.file? l with
  | some f => .ok f
  | none => .error (if w.isDirectory l then .isDirectory else .absent)

/-- Writes a file, which may replace one; its directory must exist. -/
def write (w : Workspace) (path : FilePath) (bytes : List UInt8) : Except PathFault Workspace := do
  let l ← w.locate path
  if w.isDirectory l then .error .isDirectory
  else .ok { w with files := w.files.filter (·.location != l) ++ [⟨l, bytes, .noParser⟩] }

end Workspace

end CodeOutline
