/-
  CodeOutline/Command/Arguments.lean
  ==================================
  **Reading a command line.**

  The first argument names the command.  After it, options and files may stand in any order, until
  two hyphens end the options.  A long option takes its value after an equals sign or from the next
  argument; short options may be run together, and the last of them may have its value attached.
  Of an option given twice the last value counts.

  The commands are `compress`, `explain` and `languages`.  The command `serve`, which starts a
  server for the tools of `Compress/Batch.lean`, is left out, and its name is not understood here.
  So are the texts of the help: asking for help leads to a command that shows nothing.
-/
import CodeOutline.Document.Context
import CodeOutline.Text.Integer

namespace CodeOutline

open Text (Chars)

/-! ### Options -/

/-- An option of a command, under a key. -/
structure OptionSpec where
  key : String
  long : String
  short : Option Char
  takesValue : Bool
deriving DecidableEq, Repr

/-- A key and the value given with it; a flag has none. -/
structure Given where
  key : String
  value : Option String
deriving DecidableEq, Repr

/-- What one argument is. -/
inductive Argued where
  | positional
  | given (options : List Given)                      -- complete in itself
  | awaiting (options : List Given) (key : String)    -- the next argument is the last one's value
  | unknown
deriving DecidableEq, Repr

/-- Reads options that are run together after one hyphen. -/
def readShort (specs : List OptionSpec) (done : List Given) : Chars → Argued
  | [] => .given done
  | c :: rest =>
    match specs.find? (·.short == some c) with
    | none => .unknown
    | some spec =>
      if spec.takesValue then
        if rest = [] then .awaiting done spec.key
        else .given (done ++ [⟨spec.key, some (String.ofList rest)⟩])
      else readShort specs (done ++ [⟨spec.key, none⟩]) rest

/-- Reads a long option and the value after its equals sign, if there is one. -/
def readLong (spec : OptionSpec) : Option String → Argued
  | some value => if spec.takesValue then .given [⟨spec.key, some value⟩] else .unknown
  | none => if spec.takesValue then .awaiting [] spec.key else .given [⟨spec.key, none⟩]

def classify (specs : List OptionSpec) (arg : String) : Argued :=
  match arg.toList with
  | '-' :: c :: rest =>
    let all := '-' :: c :: rest
    let name := all.takeWhile (· ≠ '=')
    let value := match all.drop name.length with
      | [] => none
      | _ :: text => some (String.ofList text)
    match specs.find? (·.long == String.ofList name) with
    | some spec => readLong spec value
    | none => if c = '-' then .unknown else readShort specs [] (c :: rest)
  | _ => .positional

/-- The options and the other arguments of a command line. -/
structure Arguments where
  options : List Given
  positional : List String
deriving DecidableEq, Repr

/-- Splits a command line, or nothing when an option is unknown or lacks its value. -/
def Arguments.read (specs : List OptionSpec) : List String → Option Arguments
  | [] => some ⟨[], []⟩
  | "--" :: rest => some ⟨[], rest⟩
  | arg :: rest =>
    match classify specs arg with
    | .unknown => none
    | .positional =>
      (Arguments.read specs rest).map fun a => { a with positional := arg :: a.positional }
    | .given options =>
      (Arguments.read specs rest).map fun a => { a with options := options ++ a.options }
    | .awaiting options key =>
      match rest with
      | [] => none
      | value :: later =>
        (Arguments.read specs later).map fun a =>
          { a with options := options ++ ⟨key, some value⟩ :: a.options }

namespace Arguments

def has (a : Arguments) (key : String) : Bool :=
  a.options.any (·.key == key)

def value? (a : Arguments) (key : String) : Option String :=
  (a.options.reverse.find? (·.key == key)).bind Given.value

end Arguments

/-! ### Commands -/

structure CompressOptions where
  paths : List String
  language : Option String
  noCompress : Bool
  style : Style
  output : Option String
  workers : Option Int
  placeholder : Option String
  header : Option String
  instruction : Option String
  verbose : Bool
deriving DecidableEq, Repr

inductive Command where
  | compress (options : CompressOptions)
  | languages
  | explain (path : String) (language : Option String) (verbose : Bool)
  | help
deriving DecidableEq, Repr

namespace Command

/-- The files that a command reads. -/
def sources : Command → List String
  | .compress o => o.paths
  | .explain path _ _ => [path]
  | _ => []

/-- The file that a command writes. -/
def target : Command → Option String
  | .compress o => o.output
  | _ => none

def helpSpec : OptionSpec := ⟨"help", "--help", some 'h', false⟩
def languageSpec : OptionSpec := ⟨"language", "--language", none, true⟩
def verboseSpec : OptionSpec := ⟨"verbose", "--verbose", some 'v', false⟩

def compressSpecs : List OptionSpec :=
  [helpSpec, languageSpec, verboseSpec, ⟨"no-compress", "--no-compress", none, false⟩,
    ⟨"style", "--style", none, true⟩, ⟨"output", "--output", some 'o', true⟩,
    ⟨"workers", "--workers", none, true⟩, ⟨"placeholder", "--placeholder", none, true⟩,
    ⟨"header", "--header", none, true⟩, ⟨"instruction", "--instruction", none, true⟩]

def explainSpecs : List OptionSpec := [helpSpec, languageSpec, verboseSpec]

def languagesSpecs : List OptionSpec := [helpSpec]

/-- An option's value under a reading that may refuse it. -/
def readValue {α : Type} (read : String → Option α) : Option String → Option (Option α)
  | none => some none
  | some s => (read s).map some

def styleNamed (s : String) : Option Style :=
  (styleChoices.find? (·.1 == s)).map Prod.snd

def readCompress (a : Arguments) : Option Command :=
  if a.has helpSpec.key then some .help
  else do
    let style ← readValue styleNamed (a.value? "style")
    let workers ← readValue (fun s => Text.readInteger s.toList) (a.value? "workers")
    if a.positional.isEmpty then none
    else some (.compress
      ⟨a.positional, a.value? languageSpec.key, a.has "no-compress", style.getD .plain,
        a.value? "output", workers, a.value? "placeholder", a.value? "header",
        a.value? "instruction", a.has verboseSpec.key⟩)

def readExplain (a : Arguments) : Option Command :=
  if a.has helpSpec.key then some .help
  else match a.positional with
    | [path] => some (.explain path (a.value? languageSpec.key) (a.has verboseSpec.key))
    | _ => none

def readLanguages (a : Arguments) : Option Command :=
  if a.has helpSpec.key then some .help
  else if a.positional.isEmpty then some .languages else none

/-- How the commands are called. -/
def usage : List String :=
  let shown (spec : OptionSpec) : String := spec.long ++ if spec.takesValue then " VALUE" else ""
  let options (specs : List OptionSpec) := specs.map fun spec => "    [" ++ shown spec ++ "]"
  "compress FILE..." :: options compressSpecs
    ++ "explain FILE" :: options explainSpecs
    ++ "languages" :: options languagesSpecs

/-- The command named by the first of the arguments. -/
def readNamed : List String → Option Command
  | "compress" :: rest => (Arguments.read compressSpecs rest).bind readCompress
  | "explain" :: rest => (Arguments.read explainSpecs rest).bind readExplain
  | "languages" :: rest => (Arguments.read languagesSpecs rest).bind readLanguages
  | _ => none

/-- The command that a command line asks for, or nothing for one that is not understood. -/
def read : List String → Option Command
  | "--" :: rest => readNamed rest
  | "--help" :: _ => some .help
  | "-h" :: _ => some .help
  | args => readNamed args

end Command

end CodeOutline
