/-
  CodeOutline/Input/Settings.lean
  ===============================
  **Settings, from named values and from the environment.**

  Environment variables come first and explicit values override them.  The two decisions among the
  variables are read at once, by words of their own; everything else is read when all is put
  together.
-/
import CodeOutline.Input.Field
import CodeOutline.Source.Render
import CodeOutline.Text.LetterCase

namespace CodeOutline

/-- Whether a text may stand for an elided range: it is one line and not empty. -/
def isPlaceholder (s : String) : Bool :=
  s != "" && !s.toList.contains '\n' && !s.toList.contains '\r'

structure Settings where
  enabled : Bool
  placeholder : String
  workers : Option Nat              -- as many as there are processors when none is given
  retainUnclaimed : Option Bool     -- overrides what the language says
  placeholder_line : isPlaceholder placeholder = true
deriving DecidableEq, Repr

namespace Settings

def default : Settings :=
  ⟨true, defaultPlaceholder, none, none, by decide⟩

instance : Inhabited Settings := ⟨default⟩

def readPlaceholder (v : Value) : Except FieldFault { s : String // isPlaceholder s = true } := do
  let s ← readText v
  if h : isPlaceholder s = true then .ok ⟨s, h⟩
  else .error (.rule "placeholder must be a non-empty single line")

def readWorkers (v : Value) : Except FieldFault Nat := do
  let n ← readInt v
  if n < 1 then .error (.rule "workers must be at least 1") else .ok n.toNat

/-- The settings that the named values give; other names are passed over. -/
def ofFields (fields : List (String × Value)) : Checked Settings :=
  ((((fieldOr true fields "enabled" readDecision).pair
    (fieldOr ⟨defaultPlaceholder, by decide⟩ fields "placeholder" readPlaceholder)).pair
    (fieldOr none fields "workers" (readOptional readWorkers))).pair
    (fieldOr none fields "retain_unclaimed" (readOptional readDecision))).map
    fun (((enabled, placeholder), workers), retainUnclaimed) =>
      ⟨enabled, placeholder.1, workers, retainUnclaimed, placeholder.2⟩

/-- How many workers compress a number of files on a machine with so many processors. -/
def workerCount (settings : Settings) (processors files : Nat) : Nat :=
  min (settings.workers.getD processors) files

end Settings

/-! ### The environment -/

/-- Environment variables and their values. -/
abbrev Environment := List (String × String)

def variableStem : String := "CODEX_SKELETON_"

/-- The value of the variable for a setting. -/
def settingVariable (env : Environment) (setting : String) : Option String :=
  (env.find? (·.1 == variableStem ++ setting)).map Prod.snd

inductive SettingsFault where
  | notDecision (name word : String)
  | refused (issues : List Issue)
deriving DecidableEq, Repr

/-- How every message about refused settings starts. -/
def refusedSettings : String := "Invalid compression settings"

def SettingsFault.message : SettingsFault → String
  | .notDecision name word => name ++ " must be a boolean, got " ++ Text.quoted word
  | .refused issues =>
    refusedSettings ++ ": " ++ String.intercalate "; " (issues.map Issue.message)

/-- The decision that a variable states, blanks around it and letter case aside. -/
def variableDecision? (word : String) : Option Bool :=
  let plain := String.ofList (Text.lower (Text.trim word.toList))
  if ["1", "true", "yes", "on"].contains plain then some true
  else if ["0", "false", "no", "off"].contains plain then some false
  else none

/-- The value under `field` that the variable for a decision gives. -/
def decisionFromVariable (env : Environment) (setting field : String) :
    Except SettingsFault (List (String × Value)) :=
  match settingVariable env setting with
  | none => .ok []
  | some word => match variableDecision? word with
    | some b => .ok [(field, .bool b)]
    | none => .error (.notDecision (variableStem ++ setting) word)

/-- The value under `field` that the variable for a text gives. -/
def textFromVariable (env : Environment) (setting field : String) : List (String × Value) :=
  ((settingVariable env setting).map fun word => (field, Value.text word)).toList

/-- The settings of an environment, with overrides; an override that is null says nothing. -/
def Settings.ofEnvironment (env : Environment) (overrides : List (String × Value)) :
    Except SettingsFault Settings := do
  let enabled ← decisionFromVariable env "ENABLED" "enabled"
  let retain ← decisionFromVariable env "RETAIN_UNCLAIMED" "retain_unclaimed"
  let fields := enabled ++ textFromVariable env "PLACEHOLDER" "placeholder"
    ++ textFromVariable env "WORKERS" "workers" ++ retain
    ++ overrides.filter fun (_, v) => match v with
      | .null => false
      | _ => true
  (Settings.ofFields fields).mapError .refused

end CodeOutline
