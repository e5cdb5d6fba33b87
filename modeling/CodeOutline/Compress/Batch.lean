/-
  CodeOutline/Compress/Batch.lean
  ===============================
  **Compressing many files, and for other programs.**

  Every file of a batch is one task.  A task first asks whether the batch is cancelled and only then
  looks at its file.  Tasks complete in any order; a result is filed under the number of its file,
  and the results are given out by these numbers.

  A server offers the same as tools to other programs.  It reads its settings from the environment
  once, when it is set up.  Its tools compress a piece of code, tell what becomes of it, and list
  the languages.
-/
import CodeOutline.Compress.File

namespace CodeOutline

/-! ### Batches -/

/-- The result of the task for one file. -/
def runTask (registry : Registry) (settings : Settings) (cancelled : Bool) (file : SourceFile) :
    Outcome :=
  if cancelled then .unchanged file .cancelled none else compressFile file registry settings

/-- The results in the order in which the tasks complete, under the numbers of their files. -/
def completed (registry : Registry) (settings : Settings) (cancelled : Nat → Bool)
    (files : List SourceFile) (order : List Nat) : List (Nat × Outcome) :=
  order.filterMap fun i => files[i]?.map fun file =>
    (i, runTask registry settings (cancelled i) file)

/-- The result that is filed under a number. -/
def filedUnder (results : List (Nat × Outcome)) (i : Nat) : Option Outcome :=
  (results.find? (·.1 == i)).map Prod.snd

/-- The outcomes in the order of the files, where `cancelled` says what the task of each file is
told, and `order` in which order the tasks complete. -/
def compressFiles (registry : Registry) (settings : Settings) (cancelled : Nat → Bool)
    (order : List Nat) (files : List SourceFile) : List Outcome :=
  let results := completed registry settings cancelled files order
  (List.range files.length).filterMap (filedUnder results)

/-- The outcomes when the tasks complete one after the other. -/
def compressInOrder (registry : Registry) (settings : Settings) (cancelled : Nat → Bool)
    (files : List SourceFile) : List Outcome :=
  compressFiles registry settings cancelled (List.range files.length) files

/-- A cancellation that the first `n` tasks do not see and all later ones do. -/
def cancelledAfter (n : Nat) (i : Nat) : Bool :=
  n ≤ i

/-- What is logged at the end of a batch. -/
def batchLog (settings : Settings) (processors : Nat) (outcomes : List Outcome) : LogEntry :=
  ⟨.info, "Compressed " ++ toString (outcomes.countP Outcome.isCompressed) ++ " of "
    ++ toString outcomes.length ++ " file(s) with "
    ++ toString (settings.workerCount processors outcomes.length) ++ " worker(s)"⟩

/-! ### Tools -/

/-- A server with its registry and settings. -/
structure ToolServer where
  registry : Registry
  settings : Settings

/-- A piece of code that a tool is given.  The path only selects the language. -/
abbrev Snippet := SourceFile

/-- A language and its extensions. -/
structure LanguageEntry where
  name : String
  extensions : List String
deriving DecidableEq, Repr

namespace ToolServer

def name : String := "codex-skeleton"

def create (registry : Registry) (env : Environment) : Except SettingsFault ToolServer :=
  (Settings.ofEnvironment env []).map (ToolServer.mk registry)

def compressOutcome (server : ToolServer) (code : Snippet) : Outcome :=
  compressFile code server.registry server.settings

def compressCode (server : ToolServer) (code : Snippet) : String :=
  (server.compressOutcome code).content

def languageEntries (server : ToolServer) : List LanguageEntry :=
  server.registry.toList.map fun profile => ⟨profile.name, Text.sortedNames profile.extensions⟩

end ToolServer

end CodeOutline
