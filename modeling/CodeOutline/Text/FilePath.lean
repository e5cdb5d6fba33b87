/-
  CodeOutline/Text/FilePath.lean
  ==============================
  **File paths.**

  A path is read as its components.  Empty components and single dots say nothing and are
  dropped; a double dot is kept, for what it means depends on the directories.
-/
import CodeOutline.Text.Blank
import CodeOutline.Text.LetterCase

namespace CodeOutline

open Text (Chars)

structure FilePath where
  root : Chars             -- empty for a relative path, else its leading slashes
  components : List Chars
deriving DecidableEq, Repr

namespace FilePath

/-- A path that starts in exactly two slashes keeps both. -/
def rootOf : Chars → Chars
  | '/' :: '/' :: '/' :: _ => ['/']
  | '/' :: '/' :: _ => ['/', '/']
  | '/' :: _ => ['/']
  | _ => []

def ofChars (s : Chars) : FilePath :=
  ⟨rootOf s, (Text.splitAtChar '/' s).filter fun part => part ≠ [] && part ≠ ['.']⟩

def ofString (s : String) : FilePath :=
  ofChars s.toList

/-- The path with single slashes between its components; a path of none is a dot. -/
def toChars (p : FilePath) : Chars :=
  match p.root, p.components with
  | [], [] => ['.']
  | root, components => root ++ Text.joinWith ['/'] components

def toString (p : FilePath) : String :=
  String.ofList p.toChars

/-- From the last dot of a name on, unless that dot is its first or its last character. -/
def suffixOfName (name : Chars) : Chars :=
  let after := name.reverse.takeWhile (· ≠ '.')
  if after = [] || name.length ≤ after.length + 1 then [] else '.' :: after.reverse

/-- The suffix of the last component, the dot included. -/
def suffix (p : FilePath) : Chars :=
  match p.components.getLast? with
  | none => []
  | some name => suffixOfName name

/-- The suffix by which a file's language is found. -/
def extensionOf (path : String) : String :=
  String.ofList (Text.lower (ofString path).suffix)

end FilePath

end CodeOutline
