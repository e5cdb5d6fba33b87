/-
  CodeOutline/Proofs/Rules/Layout.lean
  ====================================
  **What the layout of a rule file leaves as it is.**

  A comment is passed over in every state of the reader, whether a rule is open or not
  (`step_of_isComment`), so a run comes to the same with comments as without them, and to the same
  fault where it fails (`run_filter_isComment`).  An option belongs to no rule, wherever it stands:
  rules are read from the other lines alone (`ruleBlocks_filter`), and options from theirs
  (`optionWords_filter`).

  `read_layout` puts this together with what is known of lines, and says which texts are read alike.
-/
import CodeOutline.Proofs.Rules.Format
import CodeOutline.Proofs.Text.Lines

namespace CodeOutline

open Text (Chars)

/-! ### Comments -/

/-- Whether a line is a comment: the first character on it that is not blank is a semicolon, and it
is no directive. -/
def isComment (line : Chars) : Bool :=
  isCommentLine line && (Directive.ofLine? line).isNone

theorem isComment_iff {line : Chars} :
    isComment line = true ↔
      (Text.trimLeft line).head? = some ';' ∧ ∀ d : Directive, ¬ d.On line := by
  rw [isComment, Bool.and_eq_true, isCommentLine, beq_iff_eq, Option.isNone_iff_eq_none,
    Option.eq_none_iff_forall_ne_some]
  simp only [ne_eq, ofLine?_eq_some_iff]

theorem step_of_isComment (s : FileReading) {line : Chars} (hline : isComment line = true) :
    s.step line = .ok s := by
  rw [isComment, Bool.and_eq_true, Option.isNone_iff_eq_none] at hline
  obtain ⟨hcomment, hnone⟩ := hline
  rw [FileReading.step, hnone]
  exact congrArg Except.ok (if_pos hcomment)

theorem run_filter_isComment (s : FileReading) (lines : List Chars) :
    s.run (lines.filter fun line => !isComment line) = s.run lines := by
  induction lines generalizing s with
  | nil => rfl
  | cons line later ih =>
    rw [List.filter_cons]
    cases hline : isComment line with
    | true =>
      rw [if_neg (by simp), ih, FileReading.run, step_of_isComment s hline]
      rfl
    | false =>
      rw [if_pos (by simp), FileReading.run, FileReading.run]
      cases s.step line with
      | error fault => rfl
      | ok next => exact ih next

/-- Texts whose lines differ in comments are read alike, or refused for the same fault. -/
theorem read_congr_of_filter {text other : Chars}
    (hlines : (Text.lines other).filter (fun line => !isComment line) =
      (Text.lines text).filter fun line => !isComment line) :
    RuleFile.read other = RuleFile.read text := by
  rw [RuleFile.read, RuleFile.read, ← run_filter_isComment, hlines, run_filter_isComment]

/-! ### Options -/

/-- Whether a line is an option directive. -/
def isOption (line : Chars) : Bool :=
  (optionText? line).isSome

theorem isOption_iff {line : Chars} :
    isOption line = true ↔ ∃ arguments, (Directive.option arguments).On line := by
  simp only [isOption, optionText?, ← ofLine?_eq_some_iff]
  cases Directive.ofLine? line with
  | none => simp
  | some d => cases d <;> simp

theorem ruleHeader?_of_isOption {line : Chars} (hline : isOption line = true) :
    ruleHeader? line = none ∧ isQueryLine line = false := by
  obtain ⟨arguments, hon⟩ := isOption_iff.mp hline
  have hoption := ofLine?_eq_some_iff.mpr hon
  simp [ruleHeader?, isQueryLine, hoption]

theorem queryLines_filter (lines : List Chars) :
    queryLines (lines.filter fun line => !isOption line) = queryLines lines := by
  induction lines with
  | nil => rfl
  | cons line later ih =>
    rw [queryLines, queryLines] at ih
    rw [queryLines, queryLines, List.filter_cons]
    cases hline : isOption line with
    | true =>
      obtain ⟨hheader, hquery⟩ := ruleHeader?_of_isOption hline
      rw [if_neg (by simp), ih, List.takeWhile_cons_of_pos (by simp [hheader]),
        List.filter_cons_of_neg (by simp [hquery])]
    | false =>
      rw [if_pos (by simp), List.takeWhile_cons, List.takeWhile_cons]
      split
      · rw [List.filter_cons, List.filter_cons, ih]
      · rfl

/-- Rules are read from the lines that are no options. -/
theorem ruleBlocks_filter (lines : List Chars) :
    ruleBlocks (lines.filter fun line => !isOption line) = ruleBlocks lines := by
  induction lines with
  | nil => rfl
  | cons line later ih =>
    rw [List.filter_cons]
    cases hline : isOption line with
    | true =>
      obtain ⟨hheader, -⟩ := ruleHeader?_of_isOption hline
      rw [if_neg (by simp), ih, ruleBlocks, hheader]
    | false =>
      rw [if_pos (by simp), ruleBlocks, ruleBlocks, queryLines_filter, ih]

/-- Options are read from the lines that are options. -/
theorem optionWords_filter (lines : List Chars) :
    optionWords (lines.filter isOption) = optionWords lines := by
  rw [optionWords, optionWords, List.filterMap_filter]
  congr 2
  funext line
  cases hline : optionText? line with
  | none => simp [isOption, hline]
  | some text => simp [isOption, hline]

/-- Whether the lines of a text are those of another with its options moved, neither the options nor
the other lines being put in another order. -/
structure OptionsMoved (text other : Chars) : Prop where
  options : (Text.lines other).filter isOption = (Text.lines text).filter isOption
  others : (Text.lines other).filter (fun line => !isOption line) =
    (Text.lines text).filter fun line => !isOption line

theorem read_of_optionsMoved {text other : Chars} {file : RuleFile}
    (hmoved : OptionsMoved text other) (hread : RuleFile.read text = .ok file) :
    RuleFile.read other = .ok file := by
  rw [read_eq_ok_iff, ← ruleBlocks_filter, ← optionWords_filter] at hread ⊢
  rwa [hmoved.options, hmoved.others]

/-! ### Texts that are read alike -/

/-- Comments that stand where a line ends are as if they were not there. -/
theorem read_insert {above comments below : Chars} (htext : Text.MeetAtEnd above below)
    (hcomments : ∀ line ∈ Text.lines comments, isComment line = true)
    (habove : Text.MeetAtEnd above (comments ++ below)) (hbelow : Text.MeetAtEnd comments below) :
    RuleFile.read (above ++ (comments ++ below)) = RuleFile.read (above ++ below) := by
  have hnone : (Text.lines comments).filter (fun line => !isComment line) = [] := by
    rw [List.filter_eq_nil_iff]
    intro line hline
    simp [hcomments line hline]
  apply read_congr_of_filter
  rw [Text.lines_append habove, Text.lines_append hbelow, Text.lines_append htext,
    List.filter_append, List.filter_append, hnone, List.nil_append, List.filter_append]

/-- Comments below a last line that was not ended are as if they were not there. -/
theorem read_below_open {text comments : Chars} (hne : text ≠ [])
    (hopen : ∀ c ∈ text.getLast?, Text.isLineBoundary c = false)
    (hcomments : ∀ line ∈ Text.lines comments, isComment line = true) :
    RuleFile.read (text ++ '\n' :: comments) = RuleFile.read text := by
  have hended : ∀ rest, Text.MeetAtEnd (text ++ ['\n']) rest := fun rest =>
    .of_getLast? List.getLast?_concat (by decide) (by decide)
  have hinsert := read_insert (hended []) hcomments (hended _)
    ⟨fun h => absurd rfl h, fun _ => by simp⟩
  rw [List.append_nil, List.append_nil, List.append_assoc, List.singleton_append] at hinsert
  rw [hinsert, RuleFile.read, Text.lines_concat_lineFeed hne hopen, ← RuleFile.read]

/-- **Comments, the ends of lines and the places of options make no difference to a rule file.**
Comments may be put in or left out wherever a line ends, at the end of the text too, and what is
read or refused stays the same; so it does when line feeds are written with carriage returns.  A
file that is read is read alike when its options stand in other places, in the same order. -/
theorem read_layout (text : Chars) :
    (∀ other, (Text.lines other).filter (fun line => !isComment line) =
        (Text.lines text).filter (fun line => !isComment line) →
      RuleFile.read other = RuleFile.read text) ∧
    (∀ above comments below, text = above ++ below → Text.MeetAtEnd above below →
      (∀ line ∈ Text.lines comments, isComment line = true) →
      Text.MeetAtEnd above (comments ++ below) → Text.MeetAtEnd comments below →
        RuleFile.read (above ++ (comments ++ below)) = RuleFile.read text) ∧
    (∀ comments, text ≠ [] → (∀ c ∈ text.getLast?, Text.isLineBoundary c = false) →
      (∀ line ∈ Text.lines comments, isComment line = true) →
        RuleFile.read (text ++ '\n' :: comments) = RuleFile.read text) ∧
    ('\r' ∉ text → RuleFile.read (Text.withReturns text) = RuleFile.read text) ∧
    (∀ other file, OptionsMoved text other → RuleFile.read text = .ok file →
      RuleFile.read other = .ok file) ∧
    ∀ line, (isComment line = true ↔
        (Text.trimLeft line).head? = some ';' ∧ ∀ d : Directive, ¬ d.On line) ∧
      (isOption line = true ↔ ∃ arguments, (Directive.option arguments).On line) := by
  refine ⟨fun other => read_congr_of_filter, ?_, fun comments => read_below_open, ?_,
    fun other file => read_of_optionsMoved, fun line => ⟨isComment_iff, isOption_iff⟩⟩
  · rintro above comments below rfl htext hcomments habove hbelow
    exact read_insert htext hcomments habove hbelow
  · intro hreturn
    rw [RuleFile.read, Text.lines_withReturns hreturn, ← RuleFile.read]

/-- A rule of two query lines between two options. -/
def anchorText : Chars :=
  "; option: a=1\n; rule: name-anchor\n(a)\n@definition\n;; option: b=2".toList

def anchorFile : RuleFile :=
  ⟨[⟨.nameAnchor, 10, ["body"], "(a)\n@definition"⟩], [("a", "1"), ("b", "2")]⟩

/-- Both options of the rule file stand in the query of its rule. -/
def anchorMoved : Chars :=
  "; rule: name-anchor\r; option: a=1\n(a)\n;; option: b=2\n@definition".toList

theorem read_layout_anchor :
    RuleFile.read anchorText = .ok anchorFile ∧
      RuleFile.read ("; option: a=1\n; rule: name-anchor\n(a)\n".toList ++
        (" ;; rules: a=2\n".toList ++ "@definition\n;; option: b=2".toList)) = .ok anchorFile ∧
      RuleFile.read (anchorText ++ '\n' :: "; note".toList) = .ok anchorFile ∧
      RuleFile.read (Text.withReturns anchorText) = .ok anchorFile ∧
      RuleFile.read anchorMoved = .ok anchorFile := by
  have hread : RuleFile.read anchorText = .ok anchorFile := by decide +kernel
  have hmoved : OptionsMoved anchorText anchorMoved := ⟨by decide +kernel, by decide +kernel⟩
  obtain ⟨-, hinsert, hend, hreturns, hoptions, -⟩ := read_layout anchorText
  refine ⟨hread, ?_, ?_, ?_, hoptions _ _ hmoved hread⟩
  · rw [← hread]
    have hfirst : "; option: a=1\n; rule: name-anchor\n(a)\n".toList.getLast? = some '\n' := by
      decide
    have hsecond : " ;; rules: a=2\n".toList.getLast? = some '\n' := by decide
    exact hinsert _ _ _ rfl (.of_getLast? hfirst (by decide) (by decide)) (by decide +kernel)
      (.of_getLast? hfirst (by decide) (by decide)) (.of_getLast? hsecond (by decide) (by decide))
  · rw [← hread]
    have hlast : anchorText.getLast? = some '2' := by decide
    refine hend _ (by decide) ?_ (by decide +kernel)
    intro c hc
    obtain rfl := Option.some.inj (hlast.symm.trans hc)
    decide
  · rw [← hread]
    exact hreturns (by decide)

end CodeOutline
