/-
  CodeOutline/Command/Run.lean
  ============================
  **Running a command.**

  A command reads everything it needs before it writes anything: the language, the settings and all
  files come first, and the first of them that fails ends the command.  Only then is the document
  written, either to a file or to standard output.

  The registry is loaded when a command first looks into it: for the list of languages, and for
  files that are to be compressed.  When it cannot be loaded such a command fails, after it has
  read everything else; the other commands do not notice.
-/
import CodeOutline.Command.Arguments
import CodeOutline.Command.Console
import CodeOutline.Command.Workspace
import CodeOutline.Compress.Batch
import CodeOutline.Document.Render
import CodeOutline.Languages.Load

namespace CodeOutline

/-- What a command finds beside its arguments and files. -/
structure Machine where
  registry : Registry
  environment : Environment
  now : Timestamp
  processors : Nat

/-- What a command leaves behind. -/
structure Report where
  exit : Nat
  usage : Option String := none        -- what was wrong with the command line
  stdout : String := ""
  console : List String := []
  tables : List Table := []
  log : List LogEntry := []
  workspace : Workspace

namespace Report

/-- A command line that is not understood. -/
def misused (w : Workspace) (usage : Option String) : Report :=
  { exit := 2, usage, workspace := w }

/-- A failure that is reported. -/
def failed (w : Workspace) (message : String) : Report :=
  { exit := 1, console := [Console.failure message], workspace := w }

/-- The report without the log entries that are only for verbose runs. -/
def quiet (verbose : Bool) (r : Report) : Report :=
  if verbose then r
  else { r with log := r.log.filter fun entry => entry.level = .warning ∨ entry.level = .error }

/-- What a report shows beside the document, as lines of plain text. -/
def screen (r : Report) : List String :=
  r.log.map LogEntry.text ++ r.tables.flatMap Table.lines ++ r.console.map Console.plain
    ++ if r.exit = 2 then r.usage.toList ++ Command.usage else []

end Report

/-! ### Reading -/

/-- Why a command ends early. -/
inductive Abort where
  | language (fault : UnknownLanguage)
  | settings (fault : SettingsFault)
  | unreadable (file : FilePath) (fault : PathFault)
  | encoding (file : FilePath) (fault : Utf8.Fault)
deriving DecidableEq, Repr

def Abort.report (w : Workspace) : Abort → Report
  | .language fault => .misused w (some fault.message)
  | .settings fault => .failed w fault.message
  | .unreadable path fault =>
    .failed w ("Cannot read " ++ path.toString ++ ": " ++ fault.message ++ ": "
      ++ Text.quoted path.toString)
  | .encoding path fault => .failed w ("Cannot read " ++ path.toString ++ ": " ++ fault.message)

def readLanguage : Option String → Except Abort (Option String)
  | none => .ok none
  | some name => ((normalizeLanguage name).map some).mapError .language

/-- A source file as it is read: as UTF-8, with its newlines unified. -/
def readSource (w : Workspace) (language : Option String) (arg : String) :
    Except Abort SourceFile := do
  let path := FilePath.ofString arg
  let file ← (w.read path).mapError (.unreadable path)
  let text ← (Utf8.decode file.bytes).mapError (.encoding path)
  .ok ⟨path.toString, String.ofList (Text.unifyNewlines text), language, file.parsed⟩

def readSources (w : Workspace) (language : Option String) :
    List String → Except Abort (List SourceFile)
  | [] => .ok []
  | arg :: later => do
    let file ← readSource w language arg
    let rest ← readSources w language later
    .ok (file :: rest)

/-! ### Compressing -/

/-- The settings that the options override. -/
def CompressOptions.overrides (o : CompressOptions) : List (String × Value) :=
  (if o.noCompress then [("enabled", .bool false)] else [])
    ++ (o.workers.map fun n => ("workers", Value.int n)).toList
    ++ (o.placeholder.map fun s => ("placeholder", Value.text s)).toList

/-- Everything that a document is made from. -/
structure Job where
  settings : Settings
  files : List SourceFile

def CompressOptions.prepare (o : CompressOptions) (m : Machine) (w : Workspace) :
    Except Abort Job := do
  let language ← readLanguage o.language
  let settings ← (Settings.ofEnvironment m.environment o.overrides).mapError .settings
  let files ← readSources w language o.paths
  .ok ⟨settings, files⟩

/-- The outcomes of a job, one for each file. -/
def Job.outcomes (job : Job) (m : Machine) : List Outcome :=
  compressInOrder m.registry job.settings (fun _ => false) job.files

def Job.log (job : Job) (m : Machine) : List LogEntry :=
  job.files.flatMap (fun file => fileLog file m.registry job.settings)
    ++ [batchLog job.settings m.processors (job.outcomes m)]

/-- The document of a job. -/
def Job.document (job : Job) (o : CompressOptions) (m : Machine) : String :=
  Document.render (Context.ofFiles ((job.outcomes m).map Outcome.toOutput) m.now.toString o.style
    job.settings.enabled job.settings.placeholder o.header o.instruction)

/-- Writes a document where it is to go. -/
def deliver (w : Workspace) (count : Nat) (document : String) : Option String → Report
  | none => { exit := 0, stdout := document, workspace := w }
  | some arg =>
    let path := FilePath.ofString arg
    match w.write path (Utf8.encode document.toList) with
    | .ok written =>
      { exit := 0, workspace := written,
        console := [Console.coloured "green" "Wrote" ++ " " ++ toString count ++ " file(s) to "
          ++ path.toString] }
    | .error _ => { exit := 1, workspace := w }

def runCompress (m : Machine) (w : Workspace) (o : CompressOptions) : Report :=
  match o.prepare m w with
  | .error abort => abort.report w
  | .ok job =>
    { deliver w job.files.length (job.document o m) o.output with log := job.log m }

/-! ### The other commands -/

def runLanguages (m : Machine) (w : Workspace) : Report :=
  let table : Table :=
    ⟨["language", "extensions", "rules"], m.registry.toList.map fun profile =>
      [profile.name, String.intercalate ", " (Text.sortedNames profile.extensions),
        toString profile.rules.length]⟩
  { exit := 0, tables := [table], console := [table.footer], workspace := w }

/-- The number of the line on which the byte at an offset stands. -/
def lineNumber (source : List UInt8) (offset : Int) : Nat :=
  (source.take offset.toNat).count lineFeed + 1

/-- The lines of a range and its decision. -/
structure Row where
  first : Nat
  last : Nat
  keep : Bool
deriving DecidableEq, Repr

def rowOf (source : List UInt8) (r : Range) : Row :=
  ⟨lineNumber source r.start, lineNumber source (r.stop - 1), r.keep⟩

def Row.cells (row : Row) : List String :=
  [toString row.first, toString row.last, if row.keep then "keep" else "elide"]

def explainTable (source : List UInt8) (ranges : List Range) : Table :=
  ⟨["start_line", "end_line", "decision"], ranges.map fun r => (rowOf source r).cells⟩

def ResolveFault.message : ResolveFault → String
  | .unsupported file => file.message
  | .failed failure => failure.message

/-- Tells which lines of a file are kept. -/
def explainFile (m : Machine) (w : Workspace) (settings : Settings) (file : SourceFile) : Report :=
  let outcome := compressFile file m.registry settings
  let log := fileLog file m.registry settings
  if !outcome.isCompressed then
    { exit := 0, log, workspace := w,
      console := [Console.coloured "yellow" "Unchanged"
        ++ " (" ++ (outcome.reason.map Reason.name).getD "None" ++ ")"] }
  else
    match resolveFile file m.registry settings with
    | .error fault => { Report.failed w fault.message with log }
    | .ok ranges =>
      let table := explainTable file.bytes ranges
      { exit := 0, log, workspace := w, tables := [table],
        console := [table.footer,
          Console.coloured "green" "Compressed" ++ " (" ++ outcome.language.getD "None" ++ ")"] }

def prepareExplain (m : Machine) (w : Workspace) (arg : String) (language : Option String) :
    Except Abort Job := do
  let language ← readLanguage language
  let file ← readSource w language arg
  let settings ← (Settings.ofEnvironment m.environment []).mapError .settings
  .ok ⟨settings, [file]⟩

def runExplain (m : Machine) (w : Workspace) (arg : String) (language : Option String) : Report :=
  match prepareExplain m w arg language with
  | .error abort => abort.report w
  | .ok job =>
    match job.files with
    | [file] => explainFile m w job.settings file
    | _ => { exit := 1, workspace := w }

/-! ### All commands -/

def Command.run (m : Machine) (w : Workspace) : Command → Report
  | .compress o => (runCompress m w o).quiet o.verbose
  | .languages => runLanguages m w
  | .explain path language verbose => (runExplain m w path language).quiet verbose
  | .help => { exit := 0, workspace := w }

/-- What a command line does. -/
def runCommandLine (m : Machine) (w : Workspace) (args : List String) : Report :=
  match Command.read args with
  | some command => command.run m w
  | none => .misused w none

/-! ### Starting a command -/

/-- What a command starts from. -/
structure Installation where
  loaded : Except LoadFault Registry      -- the registry, or why there is none
  environment : Environment
  now : Timestamp
  processors : Nat

namespace Installation

/-- The registry, an empty one if it cannot be loaded. -/
def registry (i : Installation) : Registry :=
  i.loaded.toOption.getD ⟨[]⟩

def machine (i : Installation) : Machine :=
  ⟨i.registry, i.environment, i.now, i.processors⟩

end Installation

/-- Whether the files of a job are looked up in the registry. -/
def Job.asksRegistry (job : Job) : Bool :=
  job.settings.enabled && !job.files.isEmpty

/-- Whether a command comes as far as looking into the registry. -/
def Command.asksRegistry (m : Machine) (w : Workspace) : Command → Bool
  | .compress o => (o.prepare m w).toOption.any Job.asksRegistry
  | .languages => true
  | .explain path language _ => (prepareExplain m w path language).toOption.any Job.asksRegistry
  | .help => false

/-- The report of a command that needs a registry and has none.  Explaining a file does not expect
this, and no command expects a rule file that is no text: these end without a message. -/
def LoadFault.report (w : Workspace) (command : Command) (fault : LoadFault) : Report :=
  match command, fault with
  | .explain _ _ _, _ => { exit := 1, workspace := w }
  | _, .undecodable _ => { exit := 1, workspace := w }
  | _, _ => .failed w fault.message

/-- What a command line does where the registry may be one that cannot be loaded. -/
def startCommandLine (i : Installation) (w : Workspace) (args : List String) : Report :=
  match i.loaded, Command.read args with
  | .error fault, some command =>
    if command.asksRegistry i.machine w then fault.report w command
    else command.run i.machine w
  | _, _ => runCommandLine i.machine w args

end CodeOutline
