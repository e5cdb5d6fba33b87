/-
  CodeOutline/Rules/File.lean
  ===========================
  **Rule files.**

  A rule file is a list of lines.  A directive line starts with semicolons and says `rule:` or
  `option:`.  A rule directive opens a rule, whose query is made of the lines up to the next rule
  directive; option directives and other lines that start with a semicolon are not part of it.
  Lines before the first rule are passed over.  A rule is read when the next one opens, or at the
  end, and the first fault met in this order refuses the file.
-/
import CodeOutline.Rules.Capture
import CodeOutline.Text.Integer
import CodeOutline.Text.LetterCase
import CodeOutline.Text.Quoted

namespace CodeOutline

open Text (Chars)

/-! ### Directives -/

inductive Directive where
  | rule (header : Chars)
  | option (arguments : Chars)
deriving DecidableEq, Repr

/-- What stands after a word at the start of a text, if it starts so. -/
def afterWord? (word text : Chars) : Option Chars :=
  if word.isPrefixOf text then some (text.drop word.length) else none

/-- What stands after the colon that follows a directive's word. -/
def afterColon? (text : Chars) : Option Chars :=
  match Text.trimLeft text with
  | ':' :: rest => some (Text.trim rest)
  | _ => none

/-- The directive on a line, if there is one. -/
def Directive.ofLine? (line : Chars) : Option Directive :=
  match Text.trim line with
  | ';' :: rest =>
    let body := Text.trimLeft (rest.dropWhile (· == ';'))
    match afterWord? "rule".toList body with
    | some rest => (afterColon? rest).map .rule
    | none =>
      match afterWord? "option".toList body with
      | some rest => (afterColon? rest).map .option
      | none => none
  | _ => none

/-- Whether a line that is no directive is a comment. -/
def isCommentLine (line : Chars) : Bool :=
  (Text.trimLeft line).head? == some ';'

/-! ### Faults -/

inductive RuleFault where
  | noRole
  | unknownRole (word : String)
  | bodyRole
  | malformedArgument (word : String)
  | unknownArguments (names : List String)
  | priorityNotInteger (word : String)
  | noDefinition (header : String)
deriving DecidableEq, Repr

/-- The fault in the words of a message that starts with the language. -/
def RuleFault.message : RuleFault → String
  | .noRole => "rule directive without a role"
  | .unknownRole word => "unknown capture role " ++ Text.quoted word
  | .bodyRole => "'body' matches are derived, not declared"
  | .malformedArgument word => "malformed directive argument " ++ Text.quoted word
  | .unknownArguments names => "unknown rule arguments " ++ Text.quotedList names
  | .priorityNotInteger word => "priority must be an integer, got " ++ Text.quoted word
  | .noDefinition header => "rule " ++ Text.quoted header ++ " does not capture @definition"

/-! ### Arguments -/

/-- A key and the value given to it. -/
abbrev Argument := String × String

/-- A key in lower case and its value, with an equals sign between them. -/
def readArgument (word : Chars) : Except RuleFault Argument :=
  let key := word.takeWhile (· ≠ '=')
  let value := (word.drop key.length).drop 1
  if key = [] ∨ value = [] then .error (.malformedArgument (String.ofList word))
  else .ok (String.ofList (Text.lower key), String.ofList value)

def readArguments : List Chars → Except RuleFault (List Argument)
  | [] => .ok []
  | word :: later => do
    let argument ← readArgument word
    let rest ← readArguments later
    .ok (argument :: rest)

/-- The value given to a key, the last one where there are several. -/
def lastValue? (arguments : List Argument) (key : String) : Option String :=
  (arguments.reverse.find? (·.1 == key)).map Prod.snd

/-- Gives a key a value in place of the one it had. -/
def setValue (arguments : List Argument) (argument : Argument) : List Argument :=
  arguments.filter (·.1 != argument.1) ++ [argument]

/-! ### Rules -/

def readRole? (word : Chars) : Except RuleFault Role :=
  match Role.ofName? (String.ofList word) with
  | none => .error (.unknownRole (String.ofList word))
  | some .body => .error .bodyRole
  | some role => .ok role

def readPriority (arguments : List Argument) : Except RuleFault Int :=
  match lastValue? arguments "priority" with
  | none => .ok defaultPriority
  | some word =>
    match Text.readInteger word.toList with
    | some n => .ok n
    | none => .error (.priorityNotInteger word)

/-- The hints between the commas, trimmed, less the empty ones. -/
def readHints (arguments : List Argument) : List String :=
  match lastValue? arguments "body" with
  | none => defaultHints
  | some list =>
    (((Text.splitAtChar ',' list.toList).map Text.trim).filter (· ≠ [])).map String.ofList

/-- The keys that a rule directive may give, and the others. -/
def unknownKeys (known : List String) (arguments : List Argument) : List String :=
  Text.sortedNames ((arguments.map Prod.fst).filter fun key => !known.contains key)

def queryText (lines : List Chars) : Chars :=
  Text.trim (Text.joinWith ['\n'] lines)

/-- The rule of a directive with the given header and the query lines after it. -/
def readRule (header : Chars) (lines : List Chars) : Except RuleFault Rule :=
  match Text.words header with
  | [] => .error .noRole
  | word :: words => do
    let role ← readRole? word
    let arguments ← readArguments words
    match unknownKeys ["priority", "body"] arguments with
    | [] => do
      let priority ← readPriority arguments
      let query := queryText lines
      if Text.contains "@definition".toList query then
        .ok ⟨role, priority, readHints arguments, String.ofList query⟩
      else .error (.noDefinition (String.ofList header))
    | names => .error (.unknownArguments names)

/-! ### Files -/

/-- A rule whose query lines are still being collected, the latest first. -/
structure OpenRule where
  header : Chars
  lines : List Chars
deriving DecidableEq, Repr

/-- What is read of a rule file so far. -/
structure FileReading where
  rules : List Rule            -- the latest first
  options : List Argument
  current : Option OpenRule
deriving DecidableEq, Repr

/-- What a rule file says. -/
structure RuleFile where
  rules : List Rule
  options : List Argument
deriving DecidableEq, Repr

namespace FileReading

def start : FileReading :=
  ⟨[], [], none⟩

/-- Reads the open rule, if there is one. -/
def close (s : FileReading) : Except RuleFault FileReading :=
  match s.current with
  | none => .ok s
  | some rule => do
    let rule ← readRule rule.header rule.lines.reverse
    .ok { s with rules := rule :: s.rules, current := none }

/-- Adds a line to the query of the open rule, if there is one. -/
def addLine (s : FileReading) (line : Chars) : FileReading :=
  { s with current := s.current.map fun rule => { rule with lines := line :: rule.lines } }

def step (s : FileReading) (line : Chars) : Except RuleFault FileReading :=
  match Directive.ofLine? line with
  | some (.option text) => do
    let arguments ← readArguments (Text.words text)
    .ok { s with options := arguments.foldl setValue s.options }
  | some (.rule header) => do
    let closed ← s.close
    .ok { closed with current := some ⟨header, []⟩ }
  | none => .ok (if isCommentLine line then s else s.addLine line)

def run (s : FileReading) : List Chars → Except RuleFault FileReading
  | [] => s.close
  | line :: later => do
    let next ← s.step line
    next.run later

end FileReading

/-- The rules and options of a rule file. -/
def RuleFile.read (text : Chars) : Except RuleFault RuleFile := do
  let s ← FileReading.start.run (Text.lines text)
  .ok ⟨s.rules.reverse, s.options⟩

end CodeOutline
