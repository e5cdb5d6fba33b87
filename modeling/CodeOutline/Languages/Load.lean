/-
  CodeOutline/Languages/Load.lean
  ===============================
  **Profiles from a directory of rule files.**

  The rule file of a language is named after it.  A profile is made of the rules in the file, its
  options, the grammar of the language and the extensions known for it.  Queries are not compiled
  here: a query that does not fit its grammar only matters to the files of its language.
-/
import CodeOutline.Languages.Registry
import CodeOutline.Rules.File
import CodeOutline.Text.Utf8

namespace CodeOutline

/-- A directory of rule files, under the name by which messages know it.  It holds nothing at all
if it does not exist. -/
structure RuleDirectory where
  name : String
  files : Option (List (String × List UInt8))
deriving DecidableEq, Repr

inductive LoadFault where
  | noDirectory (name : String)
  | noFile (path : String)
  | undecodable (fault : Utf8.Fault)
  | rule (language : String) (fault : RuleFault)
  | unknownOptions (language : String) (names : List String)
  | noGrammar (language : String)
  | retainNotDecision (language word : String)
deriving DecidableEq, Repr

def LoadFault.message : LoadFault → String
  | .noDirectory name => "Query bundle directory not found: " ++ name
  | .noFile path => "Query file not found: " ++ path
  | .undecodable fault => fault.message
  | .rule language fault => language ++ ": " ++ fault.message
  | .unknownOptions language names => language ++ ": unknown options " ++ Text.quotedList names
  | .noGrammar language =>
    "Grammar for " ++ language ++ " is not available: Could not find language library for "
      ++ language
  | .retainNotDecision language word =>
    language ++ ": retain-unclaimed must be a boolean, got " ++ Text.quoted word

/-- The option that says whether bytes outside all matches are kept. -/
def retainOption : String := "retain-unclaimed"

/-- The decision that a rule file states in a word. -/
def retainWord? (word : String) : Option Bool :=
  if ["true", "yes", "1"].contains word then some true
  else if ["false", "no", "0"].contains word then some false
  else none

def readRetain (language : String) (options : List Argument) : Except LoadFault Bool :=
  let word := String.ofList (Text.lower ((lastValue? options retainOption).getD "true").toList)
  match retainWord? word with
  | some retain => .ok retain
  | none => .error (.retainNotDecision language word)

/-- The name of a language's rule file. -/
def ruleFileName (language : String) : String :=
  language ++ ".scm"

/-- The text of a language's rule file, with its newlines unified. -/
def RuleDirectory.text (directory : RuleDirectory) (language : String) :
    Except LoadFault Text.Chars :=
  match (directory.files.getD []).find? (·.1 == ruleFileName language) with
  | none => .error (.noFile (directory.name ++ "/" ++ ruleFileName language))
  | some file => (Utf8.decode file.2).map Text.unifyNewlines |>.mapError .undecodable

/-- The profile of a language from its rule file, if there is a grammar for the language. -/
def loadProfile (grammar? : String → Option Grammar) (directory : RuleDirectory)
    (language : String) : Except LoadFault Profile := do
  let text ← directory.text language
  let file ← (RuleFile.read text).mapError (.rule language)
  match unknownKeys [retainOption] file.options with
  | [] =>
    match grammar? language with
    | none => .error (.noGrammar language)
    | some grammar => do
      let retain ← readRetain language file.options
      .ok ⟨language, extensionsOf language, grammar, file.rules, retain⟩
  | names => .error (.unknownOptions language names)

def loadProfiles (grammar? : String → Option Grammar) (directory : RuleDirectory) :
    List String → Except LoadFault (List Profile)
  | [] => .ok []
  | language :: later => do
    let profile ← loadProfile grammar? directory language
    let rest ← loadProfiles grammar? directory later
    .ok (profile :: rest)

/-- The registry of all supported languages from a directory of rule files. -/
def loadRegistry (grammar? : String → Option Grammar) (directory : RuleDirectory) :
    Except LoadFault Registry :=
  if directory.files.isNone then .error (.noDirectory directory.name)
  else (loadProfiles grammar? directory supportedLanguages).map Registry.mk

/-- There is a grammar for every supported language. -/
def supportedGrammar? (language : String) : Option Grammar :=
  if supportedLanguages.contains language then some Grammar.unrestricted else none

end CodeOutline
