/-
  CodeOutline/Compress/Outcome.lean
  =================================
  **Source files and what becomes of them.**

  The outcome for a file is its compressed text, or its own text and the reason why it was left
  alone.
-/
import CodeOutline.Tree.Node

namespace CodeOutline

structure SourceFile where
  path : String
  content : String
  language : Option String      -- asked for by name; found by the path when not given
  parsed : Parsed               -- what the parser of its language makes of the content
deriving Repr

/-- Why a file is left alone. -/
inductive Reason where
  | disabled
  | unsupportedLanguage
  | emptyRuleSet
  | parseFailure
  | malformedQuery
  | internalError
  | cancelled
deriving DecidableEq, Repr

def Reason.name : Reason → String
  | .disabled => "disabled"
  | .unsupportedLanguage => "unsupported-language"
  | .emptyRuleSet => "empty-rule-set"
  | .parseFailure => "parse-failure"
  | .malformedQuery => "malformed-query"
  | .internalError => "internal-error"
  | .cancelled => "cancelled"

/-- Whether a file was compressed. -/
inductive Status where
  | compressed
  | unchanged
deriving DecidableEq, Repr

def Status.name : Status → String
  | .compressed => "compressed"
  | .unchanged => "unchanged"

/-- What becomes of a file: its path and text, and the reason when it was left alone. -/
structure Outcome where
  path : String
  content : String
  result : Status
  reason : Option Reason
  language : Option String
deriving DecidableEq, Repr

/-- A path and the text that goes into a document under it. -/
structure Output where
  path : String
  content : String
deriving DecidableEq, Repr

namespace Outcome

def isCompressed (o : Outcome) : Bool :=
  o.result == .compressed

def status (o : Outcome) : String :=
  o.result.name

def toOutput (o : Outcome) : Output :=
  ⟨o.path, o.content⟩

def compressed (file : SourceFile) (content language : String) : Outcome :=
  ⟨file.path, content, .compressed, none, some language⟩

def unchanged (file : SourceFile) (reason : Reason) (language : Option String) : Outcome :=
  ⟨file.path, file.content, .unchanged, some reason, language⟩

end Outcome

end CodeOutline
