/-
  CodeOutline/Proofs/Command/Explain.lean
  =======================================
  **The rows that tell which lines of a file are kept.**

  The numbers in a row are counted anew from the offsets of a range: a line has as many line feeds
  before it as there are lines before it.  The last byte of a range may itself be a line feed, or
  the source may end without one; either way it stands on the last line of the range
  (`rowOf_lines`).  So a row holds the lines of one run, numbered on from the row before
  (`map_rowOf_runs`), and the rows number all lines of the text (`numbersLines_resolve`).

  A report that tells that a file was compressed comes with these rows, made a second time from the
  file, and with the outcome that the first time gave (`explain_numbersLines`).
-/
import CodeOutline.Command.Run
import CodeOutline.Proofs.Compress.Steps
import CodeOutline.Proofs.Coverage.Partition
import CodeOutline.Proofs.Rules.Directive

namespace CodeOutline

open Text (Chars)

/-! ### Rows and lines -/

def Row.holds (row : Row) (line : Nat) : Prop :=
  row.first ≤ line ∧ line ≤ row.last

/-- Each row goes on where the one before it ended, from the line `first` up to the line `last`. -/
def FollowOn (first last : Nat) : List Row → Prop
  | [] => first = last + 1
  | row :: later => row.first = first ∧ row.first ≤ row.last ∧ FollowOn (row.last + 1) last later

/-- The number of lines of a text: one for each line feed, and one more when the text goes on after
the last line feed. -/
def lineCount (text : Chars) : Nat :=
  text.count '\n' + if text = [] ∨ ['\n'] <:+ text then 0 else 1

/-- The rows number all lines of a text from one on, and tell which of them are kept. -/
structure NumbersLines (text : Chars) (lines : List RuledLine) (rows : List Row) : Prop where
  lines_eq : lines.map RuledLine.chars = cutAfter '\n' text
  followOn : FollowOn 1 (lineCount text) rows
  alternate : rows.IsChain fun a b => a.keep ≠ b.keep
  kept_iff : ∀ (k : Nat) (line : RuledLine), lines[k]? = some line →
    ((∃ row ∈ rows, row.keep = true ∧ row.holds (k + 1)) ↔ line.keep = true)

theorem length_eq_lineCount {text : Chars} {lines : List RuledLine}
    (hlines : lines.map RuledLine.chars = cutAfter '\n' text) : lines.length = lineCount text := by
  have hcount := length_of_areLines (areLines_cutAfter '\n' text)
  rwa [flatten_cutAfter, ← hlines, List.length_map] at hcount

theorem first_le_of_followOn {rows : List Row} {first last : Nat}
    (hfollow : FollowOn first last rows) : first ≤ last + 1 := by
  induction rows generalizing first with
  | nil => exact Nat.le_of_eq hfollow
  | cons row later ih =>
    obtain ⟨hfirst, hle, hlater⟩ := hfollow
    have hrest := ih hlater
    omega

/-- A text without lines has no rows. -/
theorem eq_nil_of_followOn {rows : List Row} (hfollow : FollowOn 1 0 rows) : rows = [] := by
  cases rows with
  | nil => rfl
  | cons row later =>
    obtain ⟨hfirst, hle, hlater⟩ := hfollow
    have hend := first_le_of_followOn hlater
    omega

/-! ### The row of a run -/

theorem lineNumber_of_take {source earlier : List UInt8} {offset : Int}
    (htake : source.take offset.toNat = earlier) :
    lineNumber source offset = earlier.count lineFeed + 1 := by
  rw [lineNumber, htake]

/-- A range over lines has the numbers of the first and of the last of them. -/
theorem rowOf_lines {before run after : List (List UInt8)} {start stop : Int} (keep : Bool)
    (hlines : AreLines lineFeed (before ++ (run ++ after))) (hrun : run ≠ [])
    (hstart : start = before.flatten.length) (hstop : stop = start + run.flatten.length) :
    rowOf (before ++ (run ++ after)).flatten ⟨start, stop, keep⟩ =
      ⟨before.length + 1, before.length + run.length, keep⟩ := by
  obtain ⟨hbefore, hended, hrest⟩ := areLines_append_iff.mp hlines
  obtain ⟨hhere, -, -⟩ := areLines_append_iff.mp hrest
  have hcount : before.flatten.count lineFeed = before.length :=
    count_flatten_of_ended hbefore.inside (hended (by simp [hrun]))
  have hfull : 0 < run.flatten.length := by
    rw [List.length_pos_iff, ne_eq, hhere.flatten_eq_nil_iff]
    exact hrun
  have hfirst : (before ++ (run ++ after)).flatten.take start.toNat = before.flatten := by
    rw [List.flatten_append, hstart, Int.toNat_natCast, List.take_left]
  have hlast : (before ++ (run ++ after)).flatten.take (stop - 1).toNat =
      before.flatten ++ run.flatten.dropLast := by
    have hoffset : (stop - 1).toNat = before.flatten.length + (run.flatten.length - 1) := by omega
    rw [hoffset, List.flatten_append, List.take_length_add_append, List.flatten_append,
      List.take_append_of_le_length (Nat.sub_le _ _), List.dropLast_eq_take]
  have hinside := count_dropLast_flatten hhere hrun
  rw [rowOf, lineNumber_of_take hfirst, lineNumber_of_take hlast, List.count_append, hcount,
    Nat.add_assoc, hinside]

/-! ### The rows of all runs -/

def RuledLine.bytes (line : RuledLine) : List UInt8 :=
  Utf8.encode line.chars

/-- One row for each run of lines, where `before` lines stand before the first. -/
def runRows (before : Nat) : List (List RuledLine) → List Row
  | [] => []
  | run :: later =>
    ⟨before + 1, before + run.length, run.any RuledLine.keep⟩
      :: runRows (before + run.length) later

theorem keep_of_isRun {run : List RuledLine} {keep : Bool} (hrun : IsRun run keep) :
    run.any RuledLine.keep = keep := by
  cases keep with
  | true =>
    obtain ⟨line, hline⟩ := List.exists_mem_of_ne_nil run hrun.nonempty
    exact List.any_eq_true.mpr ⟨line, hline, hrun.alike line hline⟩
  | false =>
    apply List.any_eq_false.mpr
    intro line hline
    simp [hrun.alike line hline]

theorem followOn_runRows {runs : List (List RuledLine)} (hfull : [] ∉ runs) (before : Nat) :
    FollowOn (before + 1) (before + runs.flatten.length) (runRows before runs) := by
  induction runs generalizing before with
  | nil => rfl
  | cons run later ih =>
    rw [List.mem_cons, not_or] at hfull
    have hlength : 0 < run.length := List.length_pos_iff.mpr (Ne.symm hfull.1)
    have hlater := ih hfull.2 (before + run.length)
    rw [List.flatten_cons, List.length_append, ← Nat.add_assoc]
    refine ⟨rfl, ?_, hlater⟩
    show before + 1 ≤ before + run.length
    omega

theorem before_lt_of_mem_runRows {runs : List (List RuledLine)} {before : Nat} {row : Row}
    (hrow : row ∈ runRows before runs) : before < row.first := by
  induction runs generalizing before with
  | nil => simp [runRows] at hrow
  | cons run later ih =>
    rw [runRows, List.mem_cons] at hrow
    rcases hrow with rfl | hrow
    · exact Nat.lt_succ_self before
    · exact Nat.lt_of_le_of_lt (Nat.le_add_right _ _) (ih hrow)

/-- A line lies in a row that keeps just when its own run is kept. -/
theorem kept_runRows_iff {runs : List (List RuledLine)}
    (hruns : ∀ run ∈ runs, ∃ keep, IsRun run keep) (before : Nat) {k : Nat} {line : RuledLine}
    (hline : runs.flatten[k]? = some line) :
    (∃ row ∈ runRows before runs, row.keep = true ∧ row.holds (before + (k + 1))) ↔
      line.keep = true := by
  induction runs generalizing before k with
  | nil => simp at hline
  | cons run later ih =>
    obtain ⟨⟨keep, hrun⟩, hlater⟩ := List.forall_mem_cons.mp hruns
    rw [runRows, List.exists_mem_cons_iff, keep_of_isRun hrun]
    rw [List.flatten_cons] at hline
    rcases Nat.lt_or_ge k run.length with hhere | hthere
    · -- the line belongs to this run, and all later rows start after it
      rw [List.getElem?_append_left hhere] at hline
      rw [hrun.alike line (List.mem_of_getElem? hline)]
      constructor
      · intro hkept
        rcases hkept with ⟨hkeep, -⟩ | ⟨row, hrow, -, hfirst, -⟩
        · exact hkeep
        · have hafter := before_lt_of_mem_runRows hrow
          omega
      · intro hkeep
        refine .inl ⟨hkeep, ?_⟩
        show before + 1 ≤ before + (k + 1) ∧ before + (k + 1) ≤ before + run.length
        omega
    · rw [List.getElem?_append_right hthere] at hline
      rw [← ih hlater (before + run.length) hline,
        show before + run.length + (k - run.length + 1) = before + (k + 1) by omega]
      apply or_iff_right
      intro hfirst
      have hlast : before + (k + 1) ≤ before + run.length := hfirst.2.2
      omega

/-- The ranges over the runs of a text have the rows of these runs. -/
theorem map_rowOf_runs {runs : List (List RuledLine)}
    (hruns : ∀ run ∈ runs, ∃ keep, IsRun run keep) (before : List RuledLine)
    (hlines : AreLines lineFeed ((before ++ runs.flatten).map RuledLine.bytes)) {start stop : Int}
    (hstart : start = (before.map RuledLine.bytes).flatten.length)
    (hadjoin : Adjoin start stop (runs.flatten.map RuledLine.range)) :
    ((runs.map (List.map RuledLine.range)).filterMap Range.overRun).map
        (rowOf ((before ++ runs.flatten).map RuledLine.bytes).flatten) =
      runRows before.length runs := by
  -- `before` grows by the lines of a run with every row
  induction runs generalizing before start with
  | nil => rfl
  | cons run later ih =>
    obtain ⟨⟨keep, hrun⟩, hlater⟩ := List.forall_mem_cons.mp hruns
    rw [List.flatten_cons, List.map_append] at hadjoin
    obtain ⟨between, hhere, hthere⟩ := adjoin_append_iff.mp hadjoin
    have hover : Range.overRun (run.map RuledLine.range) = some ⟨start, between, keep⟩ :=
      overRun_of_adjoin hhere (by simpa using hrun.nonempty)
        (by rw [List.forall_mem_map]; exact hrun.alike)
    have hbetween : between = start + (run.map RuledLine.bytes).flatten.length := by
      rw [stop_of_adjoin hhere, Utf8.encode_flatten, List.map_map]
      rfl
    have hrow : rowOf ((before ++ (run :: later).flatten).map RuledLine.bytes).flatten
        ⟨start, between, keep⟩ = ⟨before.length + 1, before.length + run.length, keep⟩ := by
      rw [List.flatten_cons, List.map_append, List.map_append] at hlines ⊢
      rw [rowOf_lines keep hlines (by simpa using hrun.nonempty) hstart hbetween,
        List.length_map, List.length_map]
    have hrest : (before ++ (run :: later).flatten) = (before ++ run) ++ later.flatten := by
      rw [List.flatten_cons, List.append_assoc]
    have hnext : between = ((before ++ run).map RuledLine.bytes).flatten.length := by
      rw [hbetween, hstart, List.map_append, List.flatten_append, List.length_append,
        Int.natCast_add]
    rw [List.map_cons, List.filterMap_cons_some hover, List.map_cons, hrow, runRows,
      keep_of_isRun hrun, hrest]
    rw [hrest] at hlines
    rw [ih hlater (before ++ run) hlines hnext hthere, List.length_append]

/-! ### The rows of a text -/

theorem bytes_ruledText (keep : Int → Prop) [DecidablePred keep] (text : Chars) :
    (ruledText keep text).map RuledLine.bytes = cutAfter lineFeed (Utf8.encode text) := by
  rw [cutAfter_encode, ← chars_ruledLines keep 0 (cutAfter '\n' text), List.map_map]
  rfl

theorem map_rowOf_resolve (text : Chars) (claims : List Match) (retain : Bool) :
    (resolve (Utf8.encode text) claims retain).map (rowOf (Utf8.encode text)) =
      runRows 0 ((ruledText (KeptAt retain claims) text).splitBy fun a b => a.keep == b.keep) := by
  obtain ⟨stop, hadjoin⟩ := adjoin_ruledText (KeptAt retain claims) text
  have hbytes := bytes_ruledText (KeptAt retain claims) text
  have hlines := areLines_cutAfter lineFeed (Utf8.encode text)
  have hflat := flatten_cutAfter lineFeed (Utf8.encode text)
  rw [← hbytes] at hlines hflat
  rw [resolve_encode, joinRuns, splitBy_map]
  rw [← List.flatten_splitBy (fun a b : RuledLine => a.keep == b.keep)
    (ruledText (KeptAt retain claims) text)] at hadjoin hlines hflat
  have hrows := map_rowOf_runs (fun run => exists_isRun_of_mem) [] hlines rfl hadjoin
  rw [List.nil_append, hflat] at hrows
  exact hrows

/-- **The rows of a partition number the lines of the text.** -/
theorem numbersLines_resolve (text : Chars) (claims : List Match) (retain : Bool) :
    NumbersLines text (ruledText (KeptAt retain claims) text)
      ((resolve (Utf8.encode text) claims retain).map (rowOf (Utf8.encode text))) := by
  have hchars : (ruledText (KeptAt retain claims) text).map RuledLine.chars = cutAfter '\n' text :=
    chars_ruledLines _ _ _
  refine ⟨hchars, ?_, ?_, ?_⟩
  · have hfollow := followOn_runRows (List.nil_notMem_splitBy (fun a b => a.keep == b.keep)
      (ruledText (KeptAt retain claims) text)) 0
    rw [map_rowOf_resolve, ← length_eq_lineCount hchars]
    rwa [List.flatten_splitBy, Nat.zero_add, Nat.zero_add] at hfollow
  · rw [List.isChain_map]
    exact (partitions_resolve (Utf8.encode text) claims retain).alternate
  · intro k line hline
    rw [← List.flatten_splitBy (fun a b : RuledLine => a.keep == b.keep)
      (ruledText (KeptAt retain claims) text)] at hline
    have hkept := kept_runRows_iff (fun run => exists_isRun_of_mem) 0 hline
    rwa [map_rowOf_resolve, ← Nat.zero_add (k + 1)]

/-! ### Reports -/

/-- The report says that a file was compressed. -/
def Report.TellsCompressed (r : Report) : Prop :=
  ∃ language, Console.coloured "green" "Compressed" ++ " (" ++ language ++ ")" ∈ r.console

@[simp] theorem console_quiet (verbose : Bool) (r : Report) :
    (r.quiet verbose).console = r.console := by
  cases verbose <;> rfl

@[simp] theorem tables_quiet (verbose : Bool) (r : Report) :
    (r.quiet verbose).tables = r.tables := by
  cases verbose <;> rfl

/-- Messages whose colours begin differently are different. -/
theorem green_ne_coloured {colour : String} {c : Char} {later : Chars}
    (hcolour : colour.toList = c :: later) (hc : 'g' ≠ c) (text other rest more : String) :
    Console.coloured "green" text ++ rest ≠ Console.coloured colour other ++ more := by
  intro heq
  have hchars := congrArg String.toList heq
  simp [Console.coloured, hcolour, hc] at hchars

theorem not_tellsCompressed_abort (w : Workspace) (abort : Abort) :
    ¬ (abort.report w).TellsCompressed := by
  intro htells
  obtain ⟨language, hmem⟩ := htells
  have hfailed : ∀ message, Console.coloured "green" "Compressed" ++ " (" ++ language ++ ")" ∉
      (Report.failed w message).console := by
    intro message hmem
    simp only [Report.failed, String.append_assoc, List.mem_singleton] at hmem
    rw [Console.failure, ← String.append_empty (s := Console.coloured "red" _)] at hmem
    exact green_ne_coloured rfl (by decide) _ _ _ _ hmem
  cases abort with
  | language fault => cases hmem
  | settings fault => exact hfailed _ hmem
  | unreadable path fault => exact hfailed _ hmem
  | encoding path fault => exact hfailed _ hmem

section

variable {m : Machine} {w : Workspace} {settings : Settings} {file : SourceFile}

theorem tables_explainFile {ranges : List Range}
    (hcompressed : (compressFile file m.registry settings).isCompressed = true)
    (hresolve : resolveFile file m.registry settings = .ok ranges) :
    (explainFile m w settings file).tables = [explainTable file.bytes ranges] := by
  simp [explainFile, hcompressed, hresolve]

/-- A file is explained as compressed just when it is compressed. -/
theorem tellsCompressed_explainFile_iff :
    (explainFile m w settings file).TellsCompressed ↔
      (compressFile file m.registry settings).isCompressed = true := by
  constructor
  · intro htells
    by_contra hunchanged
    obtain ⟨language, hmem⟩ := htells
    rw [explainFile, if_pos (by simpa using hunchanged)] at hmem
    simp only [String.append_assoc, List.mem_singleton] at hmem
    exact green_ne_coloured rfl (by decide) _ _ _ _ hmem
  · intro hcompressed
    obtain ⟨profile, ranges, -, hselect, hplan, -, -⟩ := steps_of_compressed hcompressed
    have hresolve := resolveFile_of_plan hselect hplan
    simp [explainFile, hcompressed, hresolve, Report.TellsCompressed]

end

theorem exists_file_of_prepareExplain {m : Machine} {w : Workspace} {path : String}
    {language : Option String} {job : Job} (hjob : prepareExplain m w path language = .ok job) :
    ∃ settings file, job = ⟨settings, [file]⟩ := by
  obtain ⟨asked, -, hread⟩ := bind_eq_ok_iff.mp hjob
  obtain ⟨file, -, hrest⟩ := bind_eq_ok_iff.mp hread
  obtain ⟨settings, -, heq⟩ := bind_eq_ok_iff.mp hrest
  exact ⟨settings, file, (Except.ok.inj heq).symm⟩

/-- A report that tells of a compressed file is about a file that was read and compressed. -/
theorem exists_explainFile_of_tells {m : Machine} {w : Workspace} {path : String}
    {language : Option String} (htells : (runExplain m w path language).TellsCompressed) :
    ∃ settings file, prepareExplain m w path language = .ok ⟨settings, [file]⟩ ∧
      runExplain m w path language = explainFile m w settings file ∧
      (compressFile file m.registry settings).isCompressed = true := by
  cases hjob : prepareExplain m w path language with
  | error abort =>
    rw [runExplain, hjob] at htells
    exact absurd htells (not_tellsCompressed_abort w abort)
  | ok job =>
    obtain ⟨settings, file, rfl⟩ := exists_file_of_prepareExplain hjob
    have hrun : runExplain m w path language = explainFile m w settings file := by
      rw [runExplain, hjob]
    rw [hrun] at htells
    exact ⟨settings, file, rfl, hrun, tellsCompressed_explainFile_iff.mp htells⟩

/-- **When a file is explained as compressed, the rows number its lines** and tell which of them
are left in the compressed text. -/
theorem explain_numbersLines (m : Machine) (w : Workspace) (path : String)
    (language : Option String) (verbose : Bool)
    (htells : ((Command.explain path language verbose).run m w).TellsCompressed) :
    ∃ settings file profile content lines rows,
      prepareExplain m w path language = .ok ⟨settings, [file]⟩ ∧
      file.selectProfile m.registry = .ok profile ∧
      compressFile file m.registry settings = .compressed file content profile.name ∧
      LeavesOutline settings.placeholder.toList lines file.content.toList content.toList ∧
      ((Command.explain path language verbose).run m w).tables =
        [⟨["start_line", "end_line", "decision"], rows.map Row.cells⟩] ∧
      NumbersLines file.content.toList lines rows ∧
      (∃ claims, matchesOf file profile = .ok claims ∧
        lines = ruledText (KeptAt (retains settings profile) claims) file.content.toList) ∧
      (file.content = "" → rows = []) := by
  have hrun : (runExplain m w path language).TellsCompressed := by
    simpa [Command.run, Report.TellsCompressed] using htells
  obtain ⟨settings, file, hjob, hreport, hcompressed⟩ := exists_explainFile_of_tells hrun
  obtain ⟨profile, ranges, content, hselect, hplan, hrender, houtcome⟩ :=
    steps_of_compressed hcompressed
  obtain ⟨claims, hclaims, rfl⟩ := exists_matchesOf_of_plan hplan
  have hresolve := resolveFile_of_plan hselect hplan
  obtain ⟨-, output, houtput, houtline⟩ := render_resolve_leavesOutline file.content claims
    (retains settings profile) settings.placeholder settings.placeholder_line
  obtain rfl : output = content := Except.ok.inj (houtput.symm.trans hrender)
  have hnumbers := numbersLines_resolve file.content.toList claims (retains settings profile)
  refine ⟨settings, file, profile, output, _, _, hjob, hselect, houtcome, houtline, ?_, hnumbers,
    ⟨claims, hclaims, rfl⟩, ?_⟩
  · rw [Command.run, tables_quiet, hreport, tables_explainFile hcompressed hresolve, explainTable,
      List.map_map]
    rfl
  · intro hempty
    have hfollow := hnumbers.followOn
    rw [hempty] at hfollow
    rw [hempty]
    exact eq_nil_of_followOn hfollow

/-- A language whose functions are captured for their signatures. -/
def signatureProfile : Profile :=
  ⟨"lua", [".lua"], ⟨fun _ => true, fun _ => true⟩,
    [⟨.signatureOnly, 10, ["body"], "(function_declaration) @definition"⟩], true⟩

def signatureMachine : Machine :=
  ⟨⟨[signatureProfile]⟩, [], ⟨2024, 5, 1, 12, 0, 0, 0, none⟩, 1⟩

/-- A file of five lines, the last of them without a line feed. -/
def openEndedFile : SourceFile :=
  ⟨"a.lua", "local x = 1\nfunction f()\n  g()\nend\nreturn f", none,
    .tree ⟨"chunk", true, [], 0, 43,
      [⟨"function_declaration", true, [], 12, 34, [⟨"block", true, ["body"], 27, 30, []⟩]⟩]⟩⟩

def openEndedWorkspace : Workspace :=
  ⟨[⟨⟨[], ["a.lua".toList]⟩, openEndedFile.bytes, openEndedFile.parsed⟩], []⟩

def openEndedClaims : List Match :=
  [⟨12, 24, .signatureOnly, 10, "function_declaration", by decide, by decide⟩,
    ⟨24, 34, .body, 10, "block", by decide, by decide⟩]

/-- The fourth line is elided with the body, and the row of the fifth line is the last. -/
theorem explain_numbersLines_openEnded :
    ((Command.explain "a.lua" none false).run signatureMachine
        openEndedWorkspace).TellsCompressed ∧
      ∃ rows : List Row,
        ((Command.explain "a.lua" none false).run signatureMachine openEndedWorkspace).tables =
          [⟨["start_line", "end_line", "decision"], rows.map Row.cells⟩] ∧
        FollowOn 1 5 rows ∧ (¬ ∃ row ∈ rows, row.keep = true ∧ row.holds 4) ∧
          ∃ row ∈ rows, row.keep = true ∧ row.holds 5 := by
  have hprepare : prepareExplain signatureMachine openEndedWorkspace "a.lua" none =
      .ok ⟨.default, [openEndedFile]⟩ := by rfl
  have hselect : openEndedFile.selectProfile signatureMachine.registry = .ok signatureProfile := by
    rfl
  have hclaims : matchesOf openEndedFile signatureProfile = .ok openEndedClaims := by
    decide +kernel
  have hplan : plan openEndedFile signatureProfile .default = .ok _ := plan_of_matchesOf hclaims
  obtain ⟨content, hrender⟩ := render_of_plan hplan
  have hcompressed :
      (compressFile openEndedFile signatureMachine.registry .default).isCompressed = true := by
    rw [compressFile_compressed rfl hselect (by decide) hplan hrender]
    rfl
  have htells : ((Command.explain "a.lua" none false).run signatureMachine
      openEndedWorkspace).TellsCompressed := by
    have hexplain := tellsCompressed_explainFile_iff (w := openEndedWorkspace).mpr hcompressed
    simpa [Command.run, Report.TellsCompressed, runExplain, hprepare] using hexplain
  obtain ⟨settings, file, profile, -, lines, rows, hjob, hprofile, -, -, htables, hnumbers,
    ⟨claims, hmatches, hlines⟩, -⟩ := explain_numbersLines _ _ _ _ _ htells
  obtain ⟨rfl, rfl⟩ : Settings.default = settings ∧ openEndedFile = file := by
    simpa using Except.ok.inj (hprepare.symm.trans hjob)
  obtain rfl : signatureProfile = profile := Except.ok.inj (hselect.symm.trans hprofile)
  obtain rfl : openEndedClaims = claims := Except.ok.inj (hclaims.symm.trans hmatches)
  subst hlines
  have hcount : lineCount openEndedFile.content.toList = 5 := by decide
  have hfourth : (ruledText (KeptAt (retains .default signatureProfile) openEndedClaims)
      openEndedFile.content.toList)[3]? = some ⟨31, "end\n".toList, false⟩ := by decide
  have hfifth : (ruledText (KeptAt (retains .default signatureProfile) openEndedClaims)
      openEndedFile.content.toList)[4]? = some ⟨35, "return f".toList, true⟩ := by decide
  refine ⟨htells, rows, htables, hcount ▸ hnumbers.followOn, ?_, ?_⟩
  · rw [hnumbers.kept_iff 3 _ hfourth]
    decide
  · rw [hnumbers.kept_iff 4 _ hfifth]

end CodeOutline
