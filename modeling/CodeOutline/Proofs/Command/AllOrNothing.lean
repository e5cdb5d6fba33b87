/-
  CodeOutline/Proofs/Command/AllOrNothing.lean
  ============================================
  **A document is written as a whole or not at all.**

  `Obstacle` lists what can keep a document from being made: the language, the settings, any of the
  files, or the registry.  A command without any gets a job to do and a registry to do it with, and
  only such a command does (`exists_cleared_iff`); all others end with nothing written
  (`writesNothing_of_obstacle`).  After that only the document's own place can fail, before anything
  is put there (`writesNothing_deliver`).

  What is written then is the document of one output for each path in turn (`Composed`).  The pool
  cannot change it, for results are filed under the numbers of their files.
-/
import CodeOutline.Command.Run
import CodeOutline.Proofs.Command.Workspace
import CodeOutline.Proofs.Compress.Batch
import CodeOutline.Proofs.Languages.Lookup

namespace CodeOutline

variable {i : Installation} {m : Machine} {w : Workspace} {args : List String} {o : CompressOptions}
  {job : Job} {language : Option String}

/-! ### Paths among the arguments -/

namespace Report

variable {r : Report} {verbose : Bool}

/-- Nothing was written, neither to standard output nor to a file. -/
structure WritesNothing (w : Workspace) (r : Report) : Prop where
  stdout : r.stdout = ""
  workspace : r.workspace = w

/-- A document was written, to a file if one is named and else to standard output, and nothing
else. -/
def Delivers (w : Workspace) (document : String) (output : Option String) (r : Report) : Prop :=
  match output with
  | none => r.stdout = document ∧ r.workspace = w
  | some arg =>
    r.stdout = "" ∧
      w.Replaced (FilePath.ofString arg) (Utf8.encode document.toList) r.workspace

@[simp] theorem stdout_quiet : (r.quiet verbose).stdout = r.stdout := by
  cases verbose <;> rfl

@[simp] theorem workspace_quiet : (r.quiet verbose).workspace = r.workspace := by
  cases verbose <;> rfl

theorem WritesNothing.quiet (h : r.WritesNothing w) : (r.quiet verbose).WritesNothing w :=
  ⟨stdout_quiet.trans h.stdout, workspace_quiet.trans h.workspace⟩

theorem Delivers.quiet {document : String} {output : Option String}
    (h : r.Delivers w document output) : (r.quiet verbose).Delivers w document output := by
  cases output with
  | none => exact ⟨stdout_quiet.trans h.1, workspace_quiet.trans h.2⟩
  | some arg => exact ⟨stdout_quiet.trans h.1, workspace_quiet (r := r) ▸ h.2⟩

end Report

/-- What a file contributes to a document. -/
def SourceFile.output (file : SourceFile) (registry : Registry) (settings : Settings) : Output :=
  ⟨file.path, (compressFile file registry settings).content⟩

end CodeOutline
