/-
  CodeOutline/Proofs/Document/Fence.lean
  ======================================
  **Where the fenced blocks of a Markdown document end.**

  A block goes from the line that opens it to the first line that closes it: one of at most three
  spaces, at least as many backticks as the fence has, and nothing visible after them (`Closes`).
  The fence is longer than any run of backticks in the contents, so nothing in the block of a file
  closes it (`holds_of_longestRun_lt`).

  The block of the directory listing has the same fence, which has not been made for it.  Its lines
  are read off the paths (`holds_listing_iff`), and a name among them may close it.
-/
import CodeOutline.Document.Render
import CodeOutline.Proofs.Document.Preorder
import CodeOutline.Proofs.Document.ReadBack
import CodeOutline.Proofs.Languages.Lookup
import Mathlib.Data.List.Fold
import Mathlib.Data.List.MinMax

namespace CodeOutline

open Text (Chars)

namespace Fence

/-! ### Lines that close a block -/

/-- The characters that end a line of a Markdown text. -/
def endsLine (c : Char) : Bool :=
  c == '\n' || c == '\r'

/-- The lines of a Markdown text.  A carriage return and a line feed after it have an empty line
between them, which opens and closes nothing. -/
def lines (s : Chars) : List Chars :=
  s.splitOnP endsLine

/-- Whether the line closes a block whose fence is so wide. -/
def Closes (width : Nat) (line : Chars) : Prop :=
  ∃ indent run after, indent ≤ 3 ∧ width ≤ run ∧ (∀ c ∈ after, c = ' ' ∨ c = '\t') ∧
    line = List.replicate indent ' ' ++ (List.replicate run backtick ++ after)

/-- No line of the text closes a block that it stands in. -/
def Holds (width : Nat) (text : Chars) : Prop :=
  ∀ line ∈ lines text, ¬ Closes width line

theorem not_closes_nil {width : Nat} (hwidth : 0 < width) : ¬ Closes width [] := by
  rintro ⟨indent, run, after, -, hrun, -, hline⟩
  have hlength := congrArg List.length hline
  simp only [List.length_nil, List.length_append, List.length_replicate] at hlength
  omega

theorem replicate_infix_of_closes {width : Nat} {line : Chars} (hcloses : Closes width line) :
    List.replicate width backtick <:+: line := by
  obtain ⟨indent, run, after, -, hrun, -, rfl⟩ := hcloses
  have hsplit : List.replicate run backtick =
      List.replicate width backtick ++ List.replicate (run - width) backtick := by
    rw [List.replicate_append_replicate, Nat.add_sub_cancel' hrun]
  refine ⟨List.replicate indent ' ', List.replicate (run - width) backtick ++ after, ?_⟩
  rw [hsplit]
  simp only [List.append_assoc]

/-! ### Lines of a text -/

theorem lines_append_lineFeed (s rest : Chars) :
    lines (s ++ '\n' :: rest) = lines s ++ lines rest :=
  List.splitOnP_append_cons s rest (by decide)

theorem lines_of_forall {s : Chars} (hs : ∀ c ∈ s, endsLine c = false) : lines s = [s] :=
  List.splitOnP_eq_singleton hs

theorem lines_unlines (parts : List Chars) (rest : Chars) :
    lines (Text.unlines parts ++ rest) = parts.flatMap lines ++ lines rest := by
  induction parts with
  | nil => rfl
  | cons part later ih =>
    have hunlines : Text.unlines (part :: later) ++ rest =
        part ++ '\n' :: (Text.unlines later ++ rest) := by simp [Text.unlines]
    rw [hunlines, lines_append_lineFeed, ih, List.flatMap_cons, List.append_assoc]

theorem lines_joinWith {parts : List Chars} (hne : parts ≠ []) :
    lines (Text.joinWith ['\n'] parts) = parts.flatMap lines := by
  induction parts with
  | nil => exact absurd rfl hne
  | cons part later ih =>
    cases later with
    | nil => simp [Text.joinWith]
    | cons next later =>
      rw [Text.joinWith_cons_of_ne_nil (List.cons_ne_nil _ _), List.append_assoc,
        List.singleton_append, lines_append_lineFeed, ih (List.cons_ne_nil _ _)]
      rfl

theorem lines_eq_cons (s : Chars) :
    lines s = s.takeWhile (fun c => !endsLine c) :: (lines s).tail := by
  induction s with
  | nil => rfl
  | cons c s ih =>
    rw [lines, List.splitOnP_cons_eq_if_modifyHead]
    split
    · rename_i hend
      simp [hend]
    · rename_i hinside
      have hsplit : s.splitOnP endsLine = lines s := rfl
      rw [hsplit, ih]
      simp [hinside]

theorem infix_of_mem_lines {s line : Chars} (hline : line ∈ lines s) : line <:+: s := by
  induction s with
  | nil =>
    rw [lines, List.splitOnP_nil, List.mem_singleton] at hline
    rw [hline]
  | cons c s ih =>
    rw [lines, List.splitOnP_cons_eq_if_modifyHead] at hline
    split at hline
    · rcases List.mem_cons.mp hline with rfl | hline
      · exact List.nil_infix
      · exact (ih hline).trans (List.infix_cons s.infix_refl)
    · have hsplit : s.splitOnP endsLine = lines s := rfl
      rw [hsplit, lines_eq_cons, List.modifyHead_cons] at hline
      rcases List.mem_cons.mp hline with rfl | hline
      · exact (List.prefix_cons_inj c).mpr (List.takeWhile_prefix _) |>.isInfix
      · have hlater : line ∈ lines s := by
          rw [lines_eq_cons]
          exact List.mem_cons_of_mem _ hline
        exact (ih hlater).trans (List.infix_cons s.infix_refl)

theorem holds_joinWith_iff {width : Nat} (hwidth : 0 < width) {parts : List Chars} :
    Holds width (Text.joinWith ['\n'] parts) ↔ ∀ part ∈ parts, Holds width part := by
  by_cases hne : parts = []
  · subst hne
    have hempty : lines [] = [[]] := rfl
    simp [Holds, Text.joinWith, hempty, not_closes_nil hwidth]
  · simp only [Holds, lines_joinWith hne, List.mem_flatMap]
    constructor
    · intro hall part hpart line hline
      exact hall line ⟨part, hpart, hline⟩
    · rintro hall line ⟨part, hpart, hline⟩
      exact hall part hpart line hline

/-! ### Runs of backticks -/

theorem longestRunFrom_mono {current best current' best' : Nat} (hcurrent : current ≤ current')
    (hbest : best ≤ best') (s : Chars) :
    longestRunFrom current best s ≤ longestRunFrom current' best' s := by
  induction s generalizing current best current' best' with
  | nil =>
    rw [longestRunFrom, longestRunFrom]
    omega
  | cons c s ih =>
    rw [longestRunFrom, longestRunFrom]
    split
    · exact ih (Nat.add_le_add_right hcurrent 1) hbest
    · exact ih (Nat.le_refl 0) (by omega)

/-- Runs that have been seen are not forgotten. -/
theorem le_longestRunFrom (current best : Nat) (s : Chars) :
    max current best ≤ longestRunFrom current best s := by
  induction s generalizing current best with
  | nil => exact Nat.le_refl _
  | cons c s ih =>
    rw [longestRunFrom]
    split
    · have := ih (current + 1) best
      omega
    · have := ih 0 (max current best)
      omega

theorem le_longestRunFrom_replicate (current best n : Nat) (rest : Chars) :
    current + n ≤ longestRunFrom current best (List.replicate n backtick ++ rest) := by
  induction n generalizing current with
  | zero =>
    have := le_longestRunFrom current best rest
    rw [List.replicate_zero, List.nil_append]
    omega
  | succ n ih =>
    have := ih (current + 1)
    rw [List.replicate_succ, List.cons_append, longestRunFrom, if_pos rfl]
    omega

theorem longestRun_le_append (front s : Chars) : longestRun s ≤ longestRun (front ++ s) := by
  have hfrom : ∀ current best,
      longestRun s ≤ longestRunFrom current best (front ++ s) := by
    induction front with
    | nil => exact fun current best => longestRunFrom_mono (Nat.zero_le _) (Nat.zero_le _) s
    | cons c front ih =>
      intro current best
      rw [List.cons_append, longestRunFrom]
      split
      · exact ih _ _
      · exact ih _ _
  exact hfrom 0 0

/-- No run of backticks is longer than the longest one. -/
theorem le_longestRun_of_infix {n : Nat} {s : Chars} (hrun : List.replicate n backtick <:+: s) :
    n ≤ longestRun s := by
  obtain ⟨front, rest, rfl⟩ := hrun
  have hhere := le_longestRunFrom_replicate 0 0 n rest
  have hlater := longestRun_le_append front (List.replicate n backtick ++ rest)
  rw [List.append_assoc]
  rw [Nat.zero_add] at hhere
  exact Nat.le_trans hhere hlater

/-- A text holds in a fence that is longer than its runs of backticks, and so does a part of it. -/
theorem holds_of_longestRun_lt {width : Nat} {text part : Chars} (hpart : part <:+: text)
    (hshorter : longestRun text < width) : Holds width part := by
  intro line hline hcloses
  have hrun := (replicate_infix_of_closes hcloses).trans ((infix_of_mem_lines hline).trans hpart)
  have := le_longestRun_of_infix hrun
  omega

/-- How wide the fence for some contents is. -/
def widthFor (contents : List String) : Nat :=
  max leastWidth (((contents.map fun s => longestRun s.toList).foldl max 0) + 1)

theorem toList_forContents (contents : List String) :
    (forContents contents).toList = List.replicate (widthFor contents) backtick := by
  rw [forContents, ofWidth, String.toList_ofList, widthFor]

theorem longestRun_lt_widthFor {contents : List String} {content : String}
    (hcontent : content ∈ contents) : longestRun content.toList < widthFor contents := by
  have hlongest : longestRun content.toList ≤
      (contents.map fun s => longestRun s.toList).foldl max 0 := by
    rw [List.foldl_eq_foldr]
    exact List.le_max_of_le' 0 (List.mem_map_of_mem hcontent) (Nat.le_refl _)
  rw [widthFor]
  omega

theorem forall_forContents {p : Char → Bool} (hp : p backtick = false) (contents : List String) :
    ∀ c ∈ (forContents contents).toList, p c = false := by
  intro c hc
  rw [toList_forContents] at hc
  rw [List.eq_of_mem_replicate hc, hp]

theorem length_forContents (contents : List String) :
    (forContents contents).length = widthFor contents := by
  rw [← String.length_toList, toList_forContents, List.length_replicate]

theorem closes_forContents (contents : List String) :
    Closes (forContents contents).length (forContents contents).toList := by
  refine ⟨0, widthFor contents, [], Nat.zero_le 3, (length_forContents contents).le, by simp, ?_⟩
  rw [toList_forContents]
  simp

theorem pos_length_forContents (contents : List String) : 0 < (forContents contents).length := by
  rw [length_forContents, widthFor, leastWidth]
  omega

theorem lines_forContents (contents : List String) :
    lines (forContents contents).toList = [(forContents contents).toList] :=
  lines_of_forall (forall_forContents (by decide) contents)

end Fence

namespace Document

/-! ### Blocks of a document -/

/-- The line that opens a fenced block, and the text in the block. -/
structure FencedBlock where
  opening : Chars
  body : Chars
deriving DecidableEq, Repr

def listingBlock (c : Context) : FencedBlock :=
  ⟨c.fence.toList, c.listing.toList⟩

def fileBlock (fence : Chars) (file : Output) : FencedBlock :=
  ⟨fence ++ ((detectLanguage file.path).getD "").toList, dropFinalNewlines file.content.toList⟩

/-- The blocks of a Markdown document in their order. -/
def fencedBlocks (c : Context) : List FencedBlock :=
  listingBlock c :: c.files.map (fileBlock c.fence.toList)

/-- A block stands between its opening line and a line that is the fence. -/
theorem infix_markdown {c : Context} {block : FencedBlock} (hblock : block ∈ fencedBlocks c) :
    [block.opening, block.body, c.fence.toList, []] <:+: markdown c := by
  simp only [markdown]
  rcases List.mem_cons.mp hblock with rfl | hfile
  · have hsection : [c.fence.toList, c.listing.toList, c.fence.toList, []] <:+:
        ["# Directory Structure".toList, [], c.fence.toList, c.listing.toList, c.fence.toList, [],
          "# Files".toList, []] := ⟨[_, _], [_, _], rfl⟩
    exact ((hsection.trans (List.suffix_append _ _).isInfix).trans
      (List.prefix_append _ _).isInfix).trans (List.prefix_append _ _).isInfix
  · obtain ⟨file, hmem, rfl⟩ := List.mem_map.mp hfile
    have hsection : [(fileBlock c.fence.toList file).opening, (fileBlock c.fence.toList file).body,
        c.fence.toList, []] <:+: markdownFile c.fence.toList file := ⟨[_, _], [], rfl⟩
    have hfiles : markdownFile c.fence.toList file <:+:
        c.files.flatMap (markdownFile c.fence.toList) := by
      rw [List.flatMap_def]
      exact List.infix_of_mem_flatten (List.mem_map_of_mem hmem)
    exact ((hsection.trans hfiles).trans (List.suffix_append _ _).isInfix).trans
      (List.prefix_append _ _).isInfix

theorem head?_joinWith_markdown (c : Context) :
    (Text.joinWith ['\n'] (markdown c)).head? = some 'T' := by
  obtain ⟨rest, hsummary⟩ := exists_summary c
  have hparts : markdown c = c.summary.toList :: (markdown c).tail := rfl
  have htail : (markdown c).tail ≠ [] := List.cons_ne_nil _ _
  rw [hparts, Text.joinWith_cons_of_ne_nil htail, hsummary, String.toList_append]
  rfl

theorem parts_of_markdown {c : Context} (hstyle : c.style = .markdown) : parts c = markdown c := by
  rw [parts, hstyle]

/-- Nothing is dropped before a line feed that comes after something visible. -/
theorem exists_trim_lineFeed {s : Chars} (rest : Chars)
    (hfirst : ∀ c ∈ s.head?, Text.isBlank c = false)
    (hlast : ∀ c ∈ s.getLast?, Text.isBlank c = false) (hs : s ≠ []) :
    ∃ later, Text.trim (s ++ '\n' :: rest) ++ ['\n'] = s ++ '\n' :: later := by
  have hprefix : Text.trimRight ('\n' :: rest) <+: '\n' :: rest := List.rdropWhile_prefix _ _
  rw [Text.trim_append _ hfirst hlast hs, List.append_assoc]
  rcases List.prefix_cons_iff.mp hprefix with hnil | ⟨later, hlater, -⟩
  · exact ⟨[], by rw [hnil]; rfl⟩
  · exact ⟨later ++ ['\n'], by rw [hlater]; rfl⟩

theorem endsLine_of_mem_languageExtensions :
    ∀ entry ∈ languageExtensions, entry.2.toList.any Fence.endsLine = false := by
  decide +kernel

section

variable {c : Context} {contents : List String} (hfence : c.fence = Fence.forContents contents)

include hfence

/-- The line that opens a block is one line. -/
theorem lines_opening {block : FencedBlock} (hblock : block ∈ fencedBlocks c) :
    Fence.lines block.opening = [block.opening] := by
  have hbackticks : ∀ d ∈ c.fence.toList, Fence.endsLine d = false := by
    rw [hfence]
    exact Fence.forall_forContents (by decide) contents
  apply Fence.lines_of_forall
  rcases List.mem_cons.mp hblock with rfl | hfile
  · exact hbackticks
  · obtain ⟨file, -, rfl⟩ := List.mem_map.mp hfile
    intro d hd
    rcases List.mem_append.mp hd with hd | hhint
    · exact hbackticks d hd
    · cases hlanguage : detectLanguage file.path with
      | none =>
        rw [hlanguage] at hhint
        cases hhint
      | some language =>
        rw [hlanguage] at hhint
        exact Text.eq_false_of_any
          (endsLine_of_mem_languageExtensions _ (detectLanguage_eq_some_iff.mp hlanguage)) d hhint

/-- The text of a document up to the end of a block, which nothing is dropped from. -/
theorem exists_render (hstyle : c.style = .markdown) {block : FencedBlock}
    (hblock : block ∈ fencedBlocks c) :
    ∃ before later, (render c).toList = Text.unlines (before ++ [block.opening, block.body]) ++
      (c.fence.toList ++ '\n' :: later) := by
  obtain ⟨before, after, hmarkdown⟩ := infix_markdown hblock
  have hjoin : Text.joinWith ['\n'] (markdown c) =
      (Text.unlines (before ++ [block.opening, block.body]) ++ c.fence.toList) ++
        '\n' :: Text.joinWith ['\n'] ([] :: after) := by
    have hsplit : markdown c =
        ((before ++ [block.opening, block.body]) ++ [c.fence.toList]) ++ ([] :: after) := by
      rw [← hmarkdown]
      simp
    rw [hsplit, Text.joinWith_append (List.cons_ne_nil _ _), Text.unlines_concat]
    simp
  have hne : c.fence.toList ≠ [] := by
    rw [hfence, ← List.length_pos_iff, String.length_toList]
    exact Fence.pos_length_forContents contents
  have hs := List.append_ne_nil_of_right_ne_nil
    (Text.unlines (before ++ [block.opening, block.body])) hne
  -- the summary starts with a letter and the fence ends with a backtick
  have hfirst : ∀ d ∈ (Text.unlines (before ++ [block.opening, block.body]) ++
      c.fence.toList).head?, Text.isBlank d = false := by
    have hhead := head?_joinWith_markdown c
    rw [hjoin, List.head?_append_of_ne_nil _ hs] at hhead
    rw [hhead]
    simp only [Option.mem_def, Option.some.injEq, forall_eq']
    decide
  have hlast : ∀ d ∈ (Text.unlines (before ++ [block.opening, block.body]) ++
      c.fence.toList).getLast?, Text.isBlank d = false := by
    rw [List.getLast?_append_of_ne_nil _ hne, hfence]
    exact fun d hd => Fence.forall_forContents (by decide) contents d (List.mem_of_mem_getLast? hd)
  obtain ⟨later, hlater⟩ :=
    exists_trim_lineFeed (Text.joinWith ['\n'] ([] :: after)) hfirst hlast hs
  refine ⟨before, later, ?_⟩
  rw [render, String.toList_ofList, renderChars, parts_of_markdown hstyle, hjoin, hlater,
    List.append_assoc]

/-- The lines of a document in which a block stands. -/
theorem exists_lines (hstyle : c.style = .markdown) {block : FencedBlock}
    (hblock : block ∈ fencedBlocks c) :
    ∃ front back, Fence.lines (render c).toList =
      front ++ block.opening :: (Fence.lines block.body ++ c.fence.toList :: back) := by
  obtain ⟨before, later, hrender⟩ := exists_render hfence hstyle hblock
  have hclosing : Fence.lines c.fence.toList = [c.fence.toList] := by
    rw [hfence]
    exact Fence.lines_forContents contents
  refine ⟨before.flatMap Fence.lines, Fence.lines later, ?_⟩
  rw [hrender, Fence.lines_unlines, Fence.lines_append_lineFeed, hclosing]
  simp [lines_opening hfence hblock]

end

/-! ### What holds -/

theorem of_build {files : List Output} {date : Timestamp} {options : List (String × Value)}
    {c : Context} (hbuild : Context.build files date options = .ok c) :
    c.files = files ∧ c.listing = Listing.ofPaths (files.map Output.path) ∧
      c.fence = Fence.forContents (files.map Output.content) := by
  simp only [Context.build] at hbuild
  split at hbuild
  · cases hbuild
  · split at hbuild
    · cases hbuild
    · cases hbuild
      exact ⟨rfl, rfl, rfl⟩

/-- Nothing in a content closes a block whose fence is made for all contents. -/
theorem holds_content {files : List Output} {file : Output} (hfile : file ∈ files) {part : Chars}
    (hpart : part <:+: file.content.toList) :
    Fence.Holds (Fence.forContents (files.map Output.content)).length part := by
  rw [Fence.length_forContents]
  exact Fence.holds_of_longestRun_lt hpart
    (Fence.longestRun_lt_widthFor (List.mem_map_of_mem hfile))

theorem holds_listing_iff {width : Nat} (hwidth : 0 < width) (paths : List String) :
    Fence.Holds width (Listing.ofPaths paths).toList ↔
      ∀ line, Listing.IsLineOf (Listing.Along paths) 0 line → Fence.Holds width line := by
  rw [Listing.ofPaths, String.toList_ofList, Fence.holds_joinWith_iff hwidth]
  simp only [Listing.mem_lines_iff]

/-- **Fenced blocks.**  Every block of a Markdown document stands between the line that opens it
and a line that closes it.  No line of a file closes it earlier; all blocks hold just when no name
at the end of a way along the paths gives a line of the listing that does. -/
theorem fencedBlocks_hold_iff {files : List Output} {date : Timestamp}
    {options : List (String × Value)} {c : Context}
    (hbuild : Context.build files date options = .ok c) (hstyle : c.style = .markdown) :
    Fence.Closes c.fence.length c.fence.toList ∧
      (∀ block ∈ fencedBlocks c, ∃ front back, Fence.lines (render c).toList =
        front ++ block.opening :: (Fence.lines block.body ++ c.fence.toList :: back)) ∧
      (∀ file ∈ files, Fence.Holds c.fence.length file.content.toList) ∧
      ((∀ block ∈ fencedBlocks c, Fence.Holds c.fence.length block.body) ↔
        ∀ line, Listing.IsLineOf (Listing.Along (files.map Output.path)) 0 line →
          Fence.Holds c.fence.length line) := by
  obtain ⟨hfiles, hlisting, hfence⟩ := of_build hbuild
  refine ⟨?_, fun block => exists_lines hfence hstyle, ?_, ?_⟩
  · rw [hfence]
    exact Fence.closes_forContents _
  · intro file hfile
    rw [hfence]
    exact holds_content hfile List.infix_rfl
  · have hbodies : ∀ file ∈ files,
        Fence.Holds c.fence.length (fileBlock c.fence.toList file).body := by
      intro file hfile
      rw [hfence]
      exact holds_content hfile (List.rdropWhile_prefix _ _).isInfix
    have hpos : 0 < c.fence.length := hfence ▸ Fence.pos_length_forContents _
    rw [fencedBlocks, List.forall_mem_cons, hfiles, List.forall_mem_map, and_iff_left hbodies,
      listingBlock, hlisting, holds_listing_iff hpos]

/-! ### Two documents -/

def firstOfMay : Timestamp :=
  ⟨2024, 5, 1, 12, 0, 0, 0, some 0⟩

/-- A file with a fence in it, and one that is named after a shorter fence. -/
def nestedFences : List Output :=
  [⟨"docs/a.md", "````\ncode\n````"⟩, ⟨"docs/```", "```"⟩]

theorem fencedBlocks_hold_nestedFences :
    ∃ c, Context.build nestedFences firstOfMay [("style", .text "markdown")] = .ok c ∧
      c.style = .markdown ∧ c.listing = "docs/\n  ```\n  a.md" ∧ c.fence = "`````" ∧
      ∀ block ∈ fencedBlocks c, Fence.Holds c.fence.length block.body := by
  have hbuild : Context.build nestedFences firstOfMay [("style", .text "markdown")] =
      .ok (Context.ofFiles nestedFences firstOfMay.toString .markdown true defaultPlaceholder none
        none) := rfl
  have hlines :
      Listing.arrange (Listing.blocks 0 (Listing.entriesOf (nestedFences.map Output.path))) =
        ["docs/".toList, "  ```".toList, "  a.md".toList] := by decide +kernel
  have hshort : ∀ line ∈ ["docs/".toList, "  ```".toList, "  a.md".toList],
      Fence.longestRun line < 5 := by decide +kernel
  obtain ⟨-, -, -, hiff⟩ := fencedBlocks_hold_iff hbuild rfl
  refine ⟨_, hbuild, rfl, by decide +kernel, by decide +kernel, hiff.mpr ?_⟩
  intro line hline
  rw [← Listing.mem_lines_iff, hlines] at hline
  exact Fence.holds_of_longestRun_lt List.infix_rfl (hshort line hline)

/-- The fence is not made for the names of files: where a file is named like the fence, the block of
the listing ends at that name. -/
theorem not_fencedBlocks_hold_backticks :
    ¬ ∀ (files : List Output) (date : Timestamp) (options : List (String × Value)) (c : Context),
      Context.build files date options = .ok c → c.style = .markdown →
        Fence.Holds c.fence.length c.listing.toList ∧
          ∀ file ∈ files, Fence.Holds c.fence.length file.content.toList := by
  intro hall
  obtain ⟨hlisting, -⟩ := hall [⟨"```", "x\n"⟩] firstOfMay [("style", .text "markdown")] _ rfl rfl
  have hline : (Listing.ofPaths ["```"]).toList = "```".toList := by decide +kernel
  refine hlisting "```".toList ?_ ⟨0, 3, [], by decide, by decide +kernel, by simp, rfl⟩
  show _ ∈ Fence.lines (Listing.ofPaths ["```"]).toList
  rw [hline]
  decide +kernel

end Document

end CodeOutline
