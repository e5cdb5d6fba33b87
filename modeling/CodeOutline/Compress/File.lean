/-
  CodeOutline/Compress/File.lean
  ==============================
  **Compressing one file.**

  The profile of a file is selected, its tree is checked, all rules are compiled, their matches are
  resolved into a line partition, and the partition is rendered.  `resolveFile` reports the failure
  of any step; `compressFile` never fails and leaves the file alone instead.
-/
import CodeOutline.Compress.Outcome
import CodeOutline.Coverage.Snap
import CodeOutline.Input.Settings
import CodeOutline.Languages.Registry
import CodeOutline.Rules.Capture

namespace CodeOutline

/-- A source that the parser of its language could not read. -/
structure UnreadableSource where
  language : String
  detail : String
deriving DecidableEq, Repr

/-- Why a file with a profile cannot be resolved. -/
inductive Failure where
  | noParser
  | unreadable (source : UnreadableSource)
  | malformedRule (rule : MalformedRule)
  | capture (fault : CaptureFault)
  | undecodable (fault : Utf8.Fault)
deriving DecidableEq, Repr

/-- Why a file cannot be resolved. -/
inductive ResolveFault where
  | unsupported (file : UnsupportedFile)
  | failed (failure : Failure)
deriving DecidableEq, Repr

namespace SourceFile

def bytes (file : SourceFile) : List UInt8 :=
  Utf8.encode file.content.toList

/-- The profile of the language that is asked for, or else of the path. -/
def selectProfile (file : SourceFile) (registry : Registry) : Except UnsupportedFile Profile :=
  match file.language with
  | none => registry.require file.path
  | some "" => registry.require file.path
  | some language =>
    match registry.get? language with
    | some profile => .ok profile
    | none => .error ⟨file.path ++ " (" ++ language ++ ")"⟩

/-- The tree of the file, unless there is none or nothing was recognised in it. -/
def parse (file : SourceFile) (profile : Profile) : Except Failure Node :=
  match file.parsed with
  | .noParser => .error .noParser
  | .refused detail => .error (.unreadable ⟨profile.name, detail⟩)
  | .noTree => .error (.unreadable ⟨profile.name, "parser returned no tree"⟩)
  | .tree root =>
    if root.parseFails file.bytes then
      .error (.unreadable ⟨profile.name, "input is a single error node"⟩)
    else .ok root

end SourceFile

def Failure.message : Failure → String
  | .unreadable source => "Could not parse " ++ source.language ++ " source: " ++ source.detail
  | .malformedRule rule =>
    "Rule #" ++ toString rule.index ++ " for " ++ rule.language ++ " is malformed"
  | .noParser => "no parser"
  | .capture (.outsideSource _) => "index out of range"
  | .capture (.invalidSpan span) => span.message
  | .undecodable fault => fault.message

/-- All matches of a file under a profile. -/
def matchesOf (file : SourceFile) (profile : Profile) : Except Failure (List Match) := do
  let root ← file.parse profile
  let rules ← profile.compile.mapError .malformedRule
  let claims ← (captureMatches rules file.bytes root).mapError .capture
  .ok (claims.map Counted.value)

/-- Whether bytes outside all matches are kept. -/
def retains (settings : Settings) (profile : Profile) : Bool :=
  settings.retainUnclaimed.getD profile.retainUnclaimed

/-- The line partition of a file under a profile. -/
def plan (file : SourceFile) (profile : Profile) (settings : Settings) :
    Except Failure (List Range) := do
  let claims ← matchesOf file profile
  .ok (resolve file.bytes claims (retains settings profile))

/-- The line partition of a file. -/
def resolveFile (file : SourceFile) (registry : Registry) (settings : Settings) :
    Except ResolveFault (List Range) := do
  let profile ← (file.selectProfile registry).mapError .unsupported
  (plan file profile settings).mapError .failed

/-! ### The outcome -/

/-- Why a file is left alone, as far as it got. -/
inductive Fallback where
  | disabled
  | unsupported
  | noRules (language : String)
  | failed (language : String) (failure : Failure)
deriving DecidableEq, Repr

def Failure.reason : Failure → Reason
  | .unreadable _ => .parseFailure
  | .malformedRule _ => .malformedQuery
  | _ => .internalError

namespace Fallback

def reason : Fallback → Reason
  | .disabled => .disabled
  | .unsupported => .unsupportedLanguage
  | .noRules _ => .emptyRuleSet
  | .failed _ failure => failure.reason

def language : Fallback → Option String
  | .disabled => none
  | .unsupported => none
  | .noRules language => some language
  | .failed language _ => some language

end Fallback

/-- The language of a file and its compressed text. -/
def tryCompress (file : SourceFile) (registry : Registry) (settings : Settings) :
    Except Fallback (String × String) :=
  if !settings.enabled then .error .disabled
  else do
    let profile ← (file.selectProfile registry).mapError fun _ => .unsupported
    if profile.rules.isEmpty then .error (.noRules profile.name)
    else do
      let ranges ← (plan file profile settings).mapError (.failed profile.name)
      let text ← (render file.bytes ranges settings.placeholder).mapError fun fault =>
        .failed profile.name (.undecodable fault)
      .ok (profile.name, text)

/-- What becomes of a file. -/
def compressFile (file : SourceFile) (registry : Registry) (settings : Settings) : Outcome :=
  match tryCompress file registry settings with
  | .ok (language, text) => .compressed file text language
  | .error fallback => .unchanged file fallback.reason fallback.language

/-! ### What is logged -/

inductive Level where
  | debug
  | info
  | warning
  | error
deriving DecidableEq, Repr

def Level.name : Level → String
  | .debug => "DEBUG"
  | .info => "INFO"
  | .warning => "WARNING"
  | .error => "ERROR"

structure LogEntry where
  level : Level
  message : String
deriving DecidableEq, Repr

def LogEntry.text (entry : LogEntry) : String :=
  entry.level.name ++ ": " ++ entry.message

/-- What is logged about a file that is left alone. -/
def Fallback.log (path : String) : Fallback → List LogEntry
  | .disabled => []
  | .unsupported => [⟨.debug, "Skipping " ++ path ++ ": unsupported language"⟩]
  | .noRules language => [⟨.debug, "Skipping " ++ path ++ ": no capture rules for " ++ language⟩]
  | .failed _ failure =>
    let unchanged := "Leaving " ++ path ++ " unchanged: " ++ failure.message
    match failure.reason with
    | .parseFailure => [⟨.debug, unchanged⟩]
    | .malformedQuery => [⟨.warning, unchanged⟩]
    | _ => [⟨.error, "Unexpected error compressing " ++ path⟩]

/-- What is logged when a file is compressed. -/
def fileLog (file : SourceFile) (registry : Registry) (settings : Settings) : List LogEntry :=
  match tryCompress file registry settings with
  | .ok _ => []
  | .error fallback => fallback.log file.path

end CodeOutline
