/-
  CodeOutline/Proofs/Rules/Writing.lean
  =====================================
  **Rule files that are written are read back.**

  A rule is written as its directive, with all that the directive can give, and the lines of its
  query.  The query lines must not look like directives or comments (`Rule.Writable`).  The blocks
  that the reader finds are then the written ones (`ruleBlocks_flatMap_lines`), and a block says
  its rule (`says_header`); `read_write` follows for files of any length.
-/
import CodeOutline.Proofs.Text.Lines
import CodeOutline.Proofs.Rules.Format

namespace CodeOutline

open Text (Chars)

/-! ### Writing -/

/-- The line of a directive. -/
def Directive.line (d : Directive) : Chars :=
  "; ".toList ++ (d.word ++ (": ".toList ++ d.text))

namespace Rule

/-- The hints of a rule with commas between them. -/
def hintList (rule : Rule) : Chars :=
  Text.joinWith [','] (rule.hints.map String.toList)

/-- The words of a rule's directive: its role, its priority and its hints. -/
def header (rule : Rule) : Chars :=
  rule.role.name.toList ++
    (" priority=".toList ++ ((toString rule.priority).toList ++ (" body=".toList ++ rule.hintList)))

def queryLines (rule : Rule) : List Chars :=
  Text.splitAtChar '\n' rule.query.toList

def lines (rule : Rule) : List Chars :=
  (Directive.rule rule.header).line :: rule.queryLines

/-- Whether a rule can be written so that it is read back. -/
structure Writable (rule : Rule) : Prop where
  declared : rule.role ≠ .body
  digits : (Nat.toDigits 10 rule.priority.natAbs).length ≤ Text.digitLimit
  hinted : rule.hints ≠ []
  hints : ∀ hint ∈ rule.hints, hint ≠ "" ∧ ∀ c ∈ hint.toList, Text.isBlank c = false ∧ c ≠ ','
  trimmed : Text.trim rule.query.toList = rule.query.toList
  definition : "@definition".toList <:+: rule.query.toList
  breaks : ∀ c ∈ rule.query.toList, Text.isLineBoundary c = true → c = '\n'
  plain : ∀ line ∈ rule.queryLines, (Text.trimLeft line).head? ≠ some ';'

def isWritable (rule : Rule) : Bool :=
  rule.role != .body && decide ((Nat.toDigits 10 rule.priority.natAbs).length ≤ Text.digitLimit) &&
    rule.hints != [] &&
    rule.hints.all (fun hint =>
      hint != "" && hint.toList.all fun c => !Text.isBlank c && c != ',') &&
    Text.trim rule.query.toList == rule.query.toList &&
    Text.contains "@definition".toList rule.query.toList &&
    rule.query.toList.all (fun c => !Text.isLineBoundary c || c == '\n') &&
    rule.queryLines.all fun line => (Text.trimLeft line).head? != some ';'

theorem isWritable_iff {rule : Rule} : rule.isWritable = true ↔ rule.Writable := by
  simp only [isWritable, Bool.and_eq_true, bne_iff_ne, ne_eq, decide_eq_true_eq, List.all_eq_true,
    Bool.not_eq_true', Bool.or_eq_true, beq_iff_eq, Text.contains_iff_infix]
  constructor
  · rintro ⟨⟨⟨⟨⟨⟨⟨hdeclared, hdigits⟩, hhinted⟩, hhints⟩, htrimmed⟩, hdefinition⟩, hbreaks⟩, hplain⟩
    refine ⟨hdeclared, hdigits, hhinted, hhints, htrimmed, hdefinition, ?_, hplain⟩
    intro c hc hboundary
    rcases hbreaks c hc with hinner | hfeed
    · rw [hboundary] at hinner
      cases hinner
    · exact hfeed
  · rintro ⟨hdeclared, hdigits, hhinted, hhints, htrimmed, hdefinition, hbreaks, hplain⟩
    refine ⟨⟨⟨⟨⟨⟨⟨hdeclared, hdigits⟩, hhinted⟩, hhints⟩, htrimmed⟩, hdefinition⟩, ?_⟩, hplain⟩
    intro c hc
    cases hboundary : Text.isLineBoundary c with
    | false => exact .inl rfl
    | true => exact .inr (hbreaks c hc hboundary)

end Rule

/-- The option that says whether unclaimed code is kept. -/
def retainUnclaimed (value : String) : Chars :=
  "retain-unclaimed".toList ++ '=' :: value.toList

/-- The lines of a rule file with one option and the given rules. -/
def RuleFile.lines (value : String) (rules : List Rule) : List Chars :=
  (Directive.option (retainUnclaimed value)).line :: rules.flatMap Rule.lines

/-- The text of a rule file; a line feed may end its last line. -/
def RuleFile.write (value : String) (rules : List Rule) (ending : Chars) : Chars :=
  Text.joinWith ['\n'] (RuleFile.lines value rules) ++ ending

/-! ### Lines -/

theorem ofLine?_line {d : Directive} (hne : d.text ≠ [])
    (hfirst : ∀ c ∈ d.text.head?, Text.isBlank c = false)
    (hlast : ∀ c ∈ d.text.getLast?, Text.isBlank c = false) :
    Directive.ofLine? d.line = some d := by
  apply ofLine?_of_on
  have hspace : ∀ c ∈ [' '], Text.isBlank c = true := List.forall_mem_singleton.mpr (by decide)
  refine ⟨[';'], [' '], [], ' ' :: d.text, ?_, by simp, by simp, hspace, by simp, ?_⟩
  · show Text.trim (';' :: ' ' :: (d.word ++ ':' :: ' ' :: d.text)) = _
    apply Text.trim_of_ends
    · intro c hc
      obtain rfl := Option.some.inj hc
      decide
    · have hend : (';' :: ' ' :: (d.word ++ ':' :: ' ' :: d.text)).getLast? = d.text.getLast? := by
        rw [show ';' :: ' ' :: (d.word ++ ':' :: ' ' :: d.text) =
          (';' :: ' ' :: (d.word ++ [':', ' '])) ++ d.text by simp]
        exact List.getLast?_append_of_ne_nil _ hne
      rwa [hend]
  · have htrim : Text.trim ([' '] ++ d.text) = d.text := by
      rw [Text.trim_append_of_blank _ hspace, Text.trim_of_ends hfirst hlast]
    exact htrim.symm

theorem ofLine?_of_head? {line : Chars} (hline : (Text.trimLeft line).head? ≠ some ';') :
    Directive.ofLine? line = none := by
  rw [Option.eq_none_iff_forall_ne_some]
  intro d hd
  obtain ⟨marks, gap, space, rest, htrim, hne, hmarks, -⟩ := on_of_ofLine? hd
  obtain ⟨m, marks, rfl⟩ := List.exists_cons_of_ne_nil hne
  obtain rfl : m = ';' := hmarks m List.mem_cons_self
  obtain ⟨tail, htail⟩ := Text.trim_prefix_trimLeft line
  apply hline
  rw [← htail, htrim]
  rfl

theorem isQueryLine_of_head? {line : Chars} (hline : (Text.trimLeft line).head? ≠ some ';') :
    isQueryLine line = true := by
  simp [isQueryLine, ofLine?_of_head? hline, isCommentLine, hline]

/-! ### Words -/

theorem isBlank_of_mem_name {role : Role} {c : Char} (hc : c ∈ role.name.toList) :
    Text.isBlank c = false := by
  have hname : role.name.toList.any Text.isBlank = false := by
    cases role <;> decide
  exact Text.eq_false_of_any hname c hc

theorem name_ne_nil (role : Role) : role.name.toList ≠ [] := by
  cases role <;> decide

/-- A key with a value after it is one word. -/
theorem isBlank_of_mem_word {key value : Chars} (hkey : key.any Text.isBlank = false)
    (hvalue : ∀ c ∈ value, Text.isBlank c = false) :
    ∀ c ∈ key ++ '=' :: value, Text.isBlank c = false := by
  intro c hc
  rcases List.mem_append.mp hc with hmem | hrest
  · exact Text.eq_false_of_any hkey c hmem
  · rcases List.mem_cons.mp hrest with rfl | hmem
    · decide
    · exact hvalue c hmem

namespace Rule

variable {rule : Rule}

theorem isBlank_of_mem_hintList (hrule : rule.Writable) :
    ∀ c ∈ rule.hintList, Text.isBlank c = false := by
  intro c hc
  rcases Text.mem_joinWith hc with hmark | ⟨_, hpart, hmem⟩
  · rw [List.mem_singleton.mp hmark]
    decide
  · obtain ⟨hint, hhint, rfl⟩ := List.mem_map.mp hpart
    exact ((hrule.hints hint hhint).2 c hmem).1

theorem hintList_ne_nil (hrule : rule.Writable) : rule.hintList ≠ [] := by
  obtain ⟨hint, later, hhints⟩ := List.exists_cons_of_ne_nil hrule.hinted
  have hhint : hint.toList ≠ [] := by
    have hne := (hrule.hints hint (hhints ▸ List.mem_cons_self)).1
    simpa using hne
  cases later <;> simp [hintList, hhints, Text.joinWith, hhint]

theorem words_header (hrule : rule.Writable) :
    Text.words rule.header = [rule.role.name.toList,
      "priority".toList ++ '=' :: (toString rule.priority).toList,
      "body".toList ++ '=' :: rule.hintList] := by
  have hheader : rule.header = rule.role.name.toList ++ ' ' ::
      (("priority".toList ++ '=' :: (toString rule.priority).toList) ++ ' ' ::
        ("body".toList ++ '=' :: rule.hintList)) := by
    simp [header]
  rw [hheader, Text.words_append_blank _ (name_ne_nil _) (fun c => isBlank_of_mem_name) (by decide),
    Text.words_append_blank _ (by simp) _ (by decide), Text.words_of_forall (by simp)]
  · exact isBlank_of_mem_word (by decide) (isBlank_of_mem_hintList hrule)
  · exact isBlank_of_mem_word (by decide) fun c => Text.isBlank_of_mem_toString

/-- The arguments of a rule's directive. -/
def arguments (rule : Rule) : List Argument :=
  [("priority", toString rule.priority), ("body", String.ofList rule.hintList)]

theorem argumentsOf_words_header (hrule : rule.Writable) :
    ArgumentsOf (Text.words rule.header).tail rule.arguments := by
  rw [words_header hrule]
  refine .cons ⟨_, _, ⟨rfl, by decide, by decide, Text.toString_ne_nil _⟩, ?_⟩
    (.cons ⟨_, _, ⟨rfl, by decide, by decide, hintList_ne_nil hrule⟩, ?_⟩ .nil)
  · rw [String.ofList_toList, show Text.lower "priority".toList = "priority".toList by decide,
      String.ofList_toList]
  · rw [show Text.lower "body".toList = "body".toList by decide, String.ofList_toList]

theorem partsOf_hintList (hrule : rule.Writable) :
    partsOf (String.ofList rule.hintList) = rule.hints := by
  have hsplit : Text.splitAtChar ',' rule.hintList = rule.hints.map String.toList := by
    apply Text.splitAtChar_joinWith
    · simpa using hrule.hinted
    · intro part hpart hcomma
      obtain ⟨hint, hhint, rfl⟩ := List.mem_map.mp hpart
      exact ((hrule.hints hint hhint).2 _ hcomma).2 rfl
  have htrim : (rule.hints.map String.toList).map Text.trim = rule.hints.map String.toList := by
    rw [List.map_map]
    apply List.map_congr_left
    intro hint hhint
    exact Text.trim_of_forall fun c hc => ((hrule.hints hint hhint).2 c hc).1
  have hfilter : (rule.hints.map String.toList).filter (· ≠ []) = rule.hints.map String.toList := by
    rw [List.filter_eq_self]
    intro part hpart
    obtain ⟨hint, hhint, rfl⟩ := List.mem_map.mp hpart
    simpa using (hrule.hints hint hhint).1
  rw [partsOf, String.toList_ofList, hsplit, htrim, hfilter, List.map_map]
  simp

theorem joinWith_queryLines (rule : Rule) :
    Text.joinWith ['\n'] rule.queryLines = rule.query.toList :=
  Text.joinWith_splitAtChar '\n' rule.query.toList

/-- What is written of a rule says the rule. -/
theorem says_header (hrule : rule.Writable) :
    Says rule.header rule.queryLines rule.arguments rule where
  role := by rw [words_header hrule, List.head?_cons]
  declared := hrule.declared
  given := argumentsOf_words_header hrule
  known := by simp [arguments]
  priority := .inr ⟨_, ⟨[], _, rfl, by simp⟩, Text.spellsInteger_toString hrule.digits⟩
  hints := .inr ⟨_, ⟨[_], [], rfl, by simp⟩, (partsOf_hintList hrule).symm⟩
  query := by rw [joinWith_queryLines, hrule.trimmed]
  definition := hrule.definition

theorem ofLine?_header (hrule : rule.Writable) :
    Directive.ofLine? (Directive.rule rule.header).line = some (.rule rule.header) := by
  apply ofLine?_line
  · exact List.append_ne_nil_of_left_ne_nil (name_ne_nil _) _
  · intro c hc
    rw [Directive.text, header, List.head?_append_of_ne_nil _ (name_ne_nil _)] at hc
    exact isBlank_of_mem_name (List.mem_of_mem_head? hc)
  · intro c hc
    rw [Directive.text, header] at hc
    simp only [← List.append_assoc] at hc
    rw [List.getLast?_append_of_ne_nil _ (hintList_ne_nil hrule)] at hc
    exact isBlank_of_mem_hintList hrule c (List.mem_of_mem_getLast? hc)

/-! ### Blocks -/

/-- The rule and its query lines, as the reader finds them. -/
def block (rule : Rule) : RuleBlock :=
  ⟨rule.header, rule.queryLines⟩

end Rule

section

variable {lines later : List Chars} (hlines : ∀ line ∈ lines, (Text.trimLeft line).head? ≠ some ';')

include hlines in
theorem ruleBlocks_append : ruleBlocks (lines ++ later) = ruleBlocks later := by
  induction lines with
  | nil => rfl
  | cons line lines ih =>
    obtain ⟨hline, hlater⟩ := List.forall_mem_cons.mp hlines
    rw [List.cons_append, ruleBlocks, ruleHeader?, ofLine?_of_head? hline, ih hlater]

include hlines in
theorem queryLines_append : queryLines (lines ++ later) = lines ++ queryLines later := by
  have hheader : ∀ line ∈ lines, (ruleHeader? line).isNone = true := by
    intro line hline
    rw [ruleHeader?, ofLine?_of_head? (hlines line hline)]
    rfl
  have hquery : ∀ line ∈ lines, isQueryLine line = true := by
    intro line hline
    exact isQueryLine_of_head? (hlines line hline)
  rw [queryLines, List.takeWhile_append_of_pos hheader, List.filter_append,
    List.filter_eq_self.mpr hquery, queryLines]

include hlines in
theorem optionWords_append : optionWords (lines ++ later) = optionWords later := by
  have hnone : lines.filterMap optionText? = [] := by
    rw [List.filterMap_eq_nil_iff]
    intro line hline
    rw [optionText?, ofLine?_of_head? (hlines line hline)]
  rw [optionWords, List.filterMap_append, hnone, List.nil_append, optionWords]

end

variable {rules : List Rule}

/-- The lines of written rules start with a rule directive, if there are any. -/
theorem queryLines_flatMap_lines (hrules : ∀ rule ∈ rules, rule.Writable) :
    queryLines (rules.flatMap Rule.lines) = [] := by
  cases rules with
  | nil => rfl
  | cons rule later =>
    have hrule := hrules rule List.mem_cons_self
    simp [List.flatMap_cons, Rule.lines, queryLines, ruleHeader?, Rule.ofLine?_header hrule]

/-- The blocks in a file of written rules are theirs. -/
theorem ruleBlocks_flatMap_lines (hrules : ∀ rule ∈ rules, rule.Writable) :
    ruleBlocks (rules.flatMap Rule.lines) = rules.map Rule.block := by
  induction rules with
  | nil => rfl
  | cons rule later ih =>
    obtain ⟨hrule, hlater⟩ := List.forall_mem_cons.mp hrules
    have hquery : queryLines (rule.queryLines ++ later.flatMap Rule.lines) = rule.queryLines := by
      rw [queryLines_append hrule.plain, queryLines_flatMap_lines hlater, List.append_nil]
    rw [List.flatMap_cons, Rule.lines, List.cons_append, ruleBlocks, ruleHeader?,
      Rule.ofLine?_header hrule, ruleBlocks_append hrule.plain, ih hlater]
    simp only [hquery]
    rfl

theorem optionWords_flatMap_lines (hrules : ∀ rule ∈ rules, rule.Writable) :
    optionWords (rules.flatMap Rule.lines) = [] := by
  induction rules with
  | nil => rfl
  | cons rule later ih =>
    obtain ⟨hrule, hlater⟩ := List.forall_mem_cons.mp hrules
    have hnone : optionText? (Directive.rule rule.header).line = none := by
      rw [optionText?, Rule.ofLine?_header hrule]
    rw [List.flatMap_cons, Rule.lines, List.cons_append, optionWords,
      List.filterMap_cons_none hnone]
    exact (optionWords_append hrule.plain).trans (ih hlater)

/-! ### Files -/

theorem Directive.isBlank_of_mem_word {d : Directive} {c : Char} (hc : c ∈ d.word) :
    Text.isBlank c = false := by
  have hword : d.word.any Text.isBlank = false := by
    cases d with
    | rule header => exact (by decide : "rule".toList.any Text.isBlank = false)
    | option arguments => exact (by decide : "option".toList.any Text.isBlank = false)
  exact Text.eq_false_of_any hword c hc

theorem isLineBoundary_of_mem_line {d : Directive}
    (htext : ∀ c ∈ d.text, Text.isLineBoundary c = false) {c : Char} (hc : c ∈ d.line) :
    Text.isLineBoundary c = false := by
  rw [Directive.line] at hc
  simp only [List.mem_append] at hc
  rcases hc with hmark | hword | hcolon | hmem
  · exact Text.eq_false_of_any (by decide) c hmark
  · exact Text.isLineBoundary_of_isBlank (Directive.isBlank_of_mem_word hword)
  · exact Text.eq_false_of_any (by decide) c hcolon
  · exact htext c hmem

theorem isLineBoundary_of_mem_header {rule : Rule} (hrule : rule.Writable) :
    ∀ c ∈ rule.header, Text.isLineBoundary c = false := by
  intro c hc
  rw [Rule.header] at hc
  simp only [List.mem_append] at hc
  rcases hc with hname | hkey | hnumber | hkey | hlist
  · exact Text.isLineBoundary_of_isBlank (isBlank_of_mem_name hname)
  · exact Text.eq_false_of_any (by decide) c hkey
  · exact Text.isLineBoundary_of_isBlank (Text.isBlank_of_mem_toString hnumber)
  · exact Text.eq_false_of_any (by decide) c hkey
  · exact Text.isLineBoundary_of_isBlank (Rule.isBlank_of_mem_hintList hrule c hlist)

theorem isLineBoundary_of_mem_lines {rule : Rule} (hrule : rule.Writable) :
    ∀ line ∈ rule.lines, ∀ c ∈ line, Text.isLineBoundary c = false := by
  intro line hline c hc
  rcases List.mem_cons.mp hline with rfl | hquery
  · exact isLineBoundary_of_mem_line (d := .rule rule.header)
      (isLineBoundary_of_mem_header hrule) hc
  · obtain ⟨hmem, hne⟩ := Text.mem_splitAtChar hquery hc
    exact Bool.eq_false_iff.mpr fun hboundary => hne (hrule.breaks c hmem hboundary)

theorem ne_nil_of_getLast?_append {left right : List Chars}
    (hleft : ∀ line ∈ left.getLast?, line ≠ []) (hright : ∀ line ∈ right.getLast?, line ≠ []) :
    ∀ line ∈ (left ++ right).getLast?, line ≠ [] := by
  intro line hline
  rw [List.getLast?_append, Option.mem_def, Option.or_eq_some_iff] at hline
  rcases hline with hlater | ⟨-, hearlier⟩
  · exact hright line hlater
  · exact hleft line hearlier

theorem ne_nil_of_getLast?_cons {first : Chars} {later : List Chars} (hfirst : first ≠ [])
    (hlater : ∀ line ∈ later.getLast?, line ≠ []) :
    ∀ line ∈ (first :: later).getLast?, line ≠ [] := by
  cases later with
  | nil =>
    intro line hline
    rw [← Option.some.inj hline]
    exact hfirst
  | cons next later => rwa [List.getLast?_cons_cons]

theorem ne_nil_of_getLast?_lines {rule : Rule} (hrule : rule.Writable) :
    ∀ line ∈ rule.lines.getLast?, line ≠ [] := by
  have hne : rule.query.toList ≠ [] := by
    intro hnil
    have hdefinition := hrule.definition
    rw [hnil, List.infix_nil] at hdefinition
    cases hdefinition
  apply ne_nil_of_getLast?_cons (List.cons_ne_nil _ _)
  intro line hline
  apply Text.ne_nil_of_getLast?_splitAtChar hne _ hline
  intro hlast
  rw [← hrule.trimmed] at hlast
  exact absurd (Text.isBlank_of_getLast?_trim hlast) (by decide)

theorem ne_nil_of_getLast?_flatMap_lines {rules : List Rule}
    (hrules : ∀ rule ∈ rules, rule.Writable) :
    ∀ line ∈ (rules.flatMap Rule.lines).getLast?, line ≠ [] := by
  induction rules with
  | nil => simp
  | cons rule later ih =>
    obtain ⟨hrule, hlater⟩ := List.forall_mem_cons.mp hrules
    rw [List.flatMap_cons]
    exact ne_nil_of_getLast?_append (ne_nil_of_getLast?_lines hrule) (ih hlater)

section

variable {value : String} {rules : List Rule} (hne : value ≠ "")
  (hvalue : ∀ c ∈ value.toList, Text.isBlank c = false)

include hvalue in
theorem isBlank_of_mem_retainUnclaimed : ∀ c ∈ retainUnclaimed value, Text.isBlank c = false :=
  isBlank_of_mem_word (by decide) hvalue

include hvalue in
theorem ofLine?_retainUnclaimed :
    Directive.ofLine? (Directive.option (retainUnclaimed value)).line =
      some (.option (retainUnclaimed value)) := by
  have hblank := isBlank_of_mem_retainUnclaimed hvalue
  apply ofLine?_line
  · exact List.append_ne_nil_of_left_ne_nil (by decide) _
  · intro c hc
    exact hblank c (List.mem_of_mem_head? hc)
  · intro c hc
    exact hblank c (List.mem_of_mem_getLast? hc)

include hvalue in
theorem lines_write (hrules : ∀ rule ∈ rules, rule.Writable) {ending : Chars}
    (hending : ending = [] ∨ ending = ['\n']) :
    Text.lines (RuleFile.write value rules ending) = RuleFile.lines value rules := by
  apply Text.lines_joinWith _ _ (List.cons_ne_nil _ _) hending
  · intro line hline c hc
    rcases List.mem_cons.mp hline with rfl | hlater
    · apply isLineBoundary_of_mem_line (d := .option (retainUnclaimed value)) _ hc
      intro c hc
      exact Text.isLineBoundary_of_isBlank (isBlank_of_mem_retainUnclaimed hvalue c hc)
    · obtain ⟨rule, hrule, hmem⟩ := List.mem_flatMap.mp hlater
      exact isLineBoundary_of_mem_lines (hrules rule hrule) line hmem c hc
  · exact ne_nil_of_getLast?_cons (List.cons_ne_nil _ _) (ne_nil_of_getLast?_flatMap_lines hrules)

include hne hvalue in
theorem argumentsOf_lines (hrules : ∀ rule ∈ rules, rule.Writable) :
    ArgumentsOf (optionWords (RuleFile.lines value rules)) [("retain-unclaimed", value)] := by
  have hwords : optionWords (RuleFile.lines value rules) = [retainUnclaimed value] := by
    have hsome : optionText? (Directive.option (retainUnclaimed value)).line =
        some (retainUnclaimed value) := by
      rw [optionText?, ofLine?_retainUnclaimed hvalue]
    have hlater := optionWords_flatMap_lines hrules
    rw [optionWords] at hlater
    rw [optionWords, RuleFile.lines, List.filterMap_cons_some hsome, List.flatMap_cons, hlater,
      List.append_nil]
    apply Text.words_of_forall _ (isBlank_of_mem_retainUnclaimed hvalue)
    exact List.append_ne_nil_of_left_ne_nil (by decide) _
  rw [hwords]
  refine .cons ⟨"retain-unclaimed".toList, value.toList, ⟨rfl, by decide, by decide, ?_⟩, ?_⟩ .nil
  · simpa using hne
  · rw [show Text.lower "retain-unclaimed".toList = "retain-unclaimed".toList by decide,
      String.ofList_toList, String.ofList_toList]

include hvalue in
theorem ruleBlocks_lines (hrules : ∀ rule ∈ rules, rule.Writable) :
    ruleBlocks (RuleFile.lines value rules) = rules.map Rule.block := by
  rw [RuleFile.lines, ruleBlocks, ruleHeader?, ofLine?_retainUnclaimed hvalue,
    ruleBlocks_flatMap_lines hrules]

end

/-- **What is written is read back**: all rules in their order, and the option. -/
theorem read_write (value : String) (rules : List Rule) (ending : Chars) (hne : value ≠ "")
    (hvalue : ∀ c ∈ value.toList, Text.isBlank c = false)
    (hrules : ∀ rule ∈ rules, rule.Writable) (hending : ending = [] ∨ ending = ['\n']) :
    RuleFile.read (RuleFile.write value rules ending) =
      .ok ⟨rules, [("retain-unclaimed", value)]⟩ := by
  -- the reader is not run: what it reads of the blocks and the options is known from their format
  rw [read_eq_ok_iff, lines_write hvalue hrules hending]
  refine ⟨_, ?_, argumentsOf_lines hne hvalue hrules, rfl⟩
  rw [ruleBlocks_lines hvalue hrules, ReadAs, List.forall₂_map_left_iff, List.forall₂_same]
  intro rule hrule
  exact readRule_eq_ok_iff.mpr ⟨_, Rule.says_header (hrules rule hrule)⟩

example : RuleFile.lines "a" [⟨.nameAnchor, -3, ["b=", ";"], "(c\n @definition)"⟩] =
    ["; option: retain-unclaimed=a", "; rule: name-anchor priority=-3 body=b=,;", "(c",
      " @definition)"].map String.toList := by
  decide +kernel

/-- Rules with a negative and with a large priority, and with hints that look like directives. -/
def writtenRules : List Rule :=
  [⟨.nameAnchor, -3, ["a=b", ";rule:"], "(a\n\n  (b)) @definition"⟩,
    ⟨.fullDefinition, 10000000000000000000000000000000000000000, ["body"],
      "(c) @definition ; note"⟩]

theorem read_write_twoRules :
    (∀ rule ∈ writtenRules, rule.Writable) ∧
      RuleFile.read (RuleFile.write "a=;" writtenRules ['\n']) =
        .ok ⟨writtenRules, [("retain-unclaimed", "a=;")]⟩ := by
  have hrules : ∀ rule ∈ writtenRules, rule.Writable := by
    intro rule hrule
    have hall : writtenRules.all Rule.isWritable = true := by decide +kernel
    exact Rule.isWritable_iff.mp (List.all_eq_true.mp hall rule hrule)
  have hvalue : ∀ c ∈ "a=;".toList, Text.isBlank c = false := Text.eq_false_of_any (by decide)
  exact ⟨hrules, read_write "a=;" writtenRules ['\n'] (by decide) hvalue hrules (.inr rfl)⟩

end CodeOutline
