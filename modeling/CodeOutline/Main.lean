/-
  CodeOutline/Main.lean
  =====================
  **The command line program.**

  The files, the environment and the clock are read first.  What is made of them is decided by
  `startCommandLine`; its report is then shown, and the file that it wrote is stored.  The tree of a
  source file is read from its listing, which stands beside it under the same name with `.tree`
  at its end.
-/
import CodeOutline.Command.Run
import CodeOutline.Languages.Bundle
import CodeOutline.Tree.Node
import Std.Time.DateTime

namespace CodeOutline

/-! ### Reading -/

/-- The tree that is listed beside a file. -/
def readTree (path : String) : IO (Option Node) := do
  try
    let bytes ← IO.FS.readBinFile (path ++ ".tree")
    return (Utf8.decode bytes.toList).toOption.bind Node.ofText
  catch _ => return none

/-- Adds what stands at a location, as far as there is anything. -/
def look (w : Workspace) (l : Location) : IO Workspace := do
  let path := l.toPath.toString
  try
    let place ← IO.FS.realPath path
    if ← place.isDir then return { w with directories := l :: w.directories }
    let bytes ← IO.FS.readBinFile path
    let tree ← readTree path
    return { w with files := ⟨l, bytes.toList, tree⟩ :: w.files }
  catch _ => return w

/-- All that stands on the way of a path. -/
def lookAlong (w : Workspace) (path : String) : IO Workspace :=
  (FilePath.ofString path).trail.foldlM look w

/-- The variables for the settings. -/
def readEnvironment : IO Environment := do
  let names := ["ENABLED", "PLACEHOLDER", "WORKERS", "RETAIN_UNCLAIMED"].map (variableStem ++ ·)
  names.filterMapM fun name => do
    return (← IO.getEnv name).map fun word => (name, word)

/-- The present time, as universal time. -/
def readClock : IO Timestamp := do
  let instant ← Std.Time.Timestamp.now
  let now := Std.Time.DateTime.ofTimestamp instant Std.Time.TimeZone.ZoneRules.UTC
  return ⟨now.year.toInt.toNat, now.month.val.toNat, now.day.val.toNat, now.hour.val.toNat,
    now.minute.val.toNat, now.second.val.toNat, now.nanosecond.val.toNat / 1000, some 0⟩

/-- The number of processors, or one where the system does not list them. -/
def countProcessors : IO Nat := do
  try
    let lines ← IO.FS.lines "/proc/cpuinfo"
    return max 1 (lines.toList.countP fun line => "processor".isPrefixOf line)
  catch _ => return 1

/-! ### Showing -/

/-- Stores the file that a command wrote. -/
def store (written : Workspace) (target : String) : IO Unit :=
  match written.read (FilePath.ofString target) with
  | .ok file => IO.FS.writeBinFile target ⟨file.bytes.toArray⟩
  | .error _ => return ()

def showReport (report : Report) : IO Unit := do
  IO.print report.stdout
  report.screen.forM fun line => IO.eprintln line

end CodeOutline

open CodeOutline in
def main (args : List String) : IO UInt32 := do
  let command := (Command.read args).getD .help
  let paths := command.sources ++ command.target.toList
  let w ← paths.foldlM lookAlong Workspace.empty
  let loaded := loadRegistry supportedGrammar? Bundle.directory
  let installation : Installation := ⟨loaded, ← readEnvironment, ← readClock, ← countProcessors⟩
  let report := startCommandLine installation w args
  if report.exit = 0 then
    command.target.forM (store report.workspace)
    if command = .help then Command.usage.forM fun line => IO.println line
  showReport report
  return UInt32.ofNat report.exit
