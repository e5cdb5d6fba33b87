/-
  CodeOutline/Proofs/Rules/Format.lean
  ====================================
  **The format of rule files.**

  A file is read line by line, and a rule when the next one opens or the file ends.  `blocksFrom`
  says which lines belong together, without the reader: a rule directive and the query lines up to
  the next one.  The reader then reads the blocks in their order and gathers the words of all option
  directives (`run_eq_ok_iff`).

  `read_iff_wellFormed` puts this together with what a block says (`readRule_eq_ok_iff`): which
  texts are rule files, and what is read from them.
-/
import CodeOutline.Proofs.Rules.Directive
import CodeOutline.Proofs.Text.Integer

namespace CodeOutline

open Text (Chars)

/-! ### What a rule directive and its query lines say -/

theorem ofName?_eq_some_iff {name : String} {role : Role} :
    Role.ofName? name = some role ↔ role.name = name := by
  constructor
  · intro hname
    rw [Role.ofName?.eq_def] at hname
    split at hname
    case h_5 => cases hname
    all_goals
      obtain rfl := Option.some.inj hname
      rfl
  · rintro rfl
    cases role <;> rfl

theorem readRole?_eq_ok_iff {word : Chars} {role : Role} :
    readRole? word = .ok role ↔ role.name = String.ofList word ∧ role ≠ .body := by
  rw [← ofName?_eq_some_iff, readRole?]
  cases hname : Role.ofName? (String.ofList word) with
  | none => simp
  | some named =>
    cases named <;> simp <;> grind

/-- Whether the arguments leave the priority as it is by default, or give it last. -/
def PriorityOf (arguments : List Argument) (n : Int) : Prop :=
  ((∀ a ∈ arguments, a.1 ≠ "priority") ∧ n = 10) ∨
    ∃ word, LastGiven arguments "priority" word ∧ Text.SpellsInteger word.toList n

theorem readPriority_eq_ok_iff {arguments : List Argument} {n : Int} :
    readPriority arguments = .ok n ↔ PriorityOf arguments n := by
  rw [readPriority, PriorityOf, ← lastValue?_eq_none_iff]
  simp only [← lastValue?_eq_some_iff, ← Text.readInteger_eq_some_iff]
  cases hlast : lastValue? arguments "priority" with
  | none => simp [defaultPriority, eq_comm]
  | some word =>
    cases hread : Text.readInteger word.toList with
    | none => simp [hread]
    | some m => simp [hread]

/-- The parts of a value between its commas, less blanks around them and empty ones. -/
def partsOf (value : String) : List String :=
  (((Text.splitAtChar ',' value.toList).map Text.trim).filter (· ≠ [])).map String.ofList

/-- Whether the arguments leave the hints as they are by default, or give them last. -/
def HintsOf (arguments : List Argument) (hints : List String) : Prop :=
  ((∀ a ∈ arguments, a.1 ≠ "body") ∧ hints = ["body"]) ∨
    ∃ word, LastGiven arguments "body" word ∧ hints = partsOf word

theorem readHints_eq_iff {arguments : List Argument} {hints : List String} :
    readHints arguments = hints ↔ HintsOf arguments hints := by
  rw [readHints, HintsOf, ← lastValue?_eq_none_iff]
  simp only [← lastValue?_eq_some_iff]
  cases hlast : lastValue? arguments "body" with
  | none => simp [defaultHints, eq_comm]
  | some word => simp [partsOf, eq_comm]

theorem unknownKeys_eq_nil_iff {known : List String} {arguments : List Argument} :
    unknownKeys known arguments = [] ↔ ∀ a ∈ arguments, a.1 ∈ known := by
  have hsorted : ∀ names : List String, Text.sortedNames names = [] ↔ names = [] := by
    intro names
    rw [Text.sortedNames, Text.sortNames, ← List.length_eq_zero_iff, List.length_mergeSort,
      List.length_eq_zero_iff]
    cases names with
    | nil => simp
    | cons name names => simp [List.eraseDups_cons]
  rw [unknownKeys, hsorted, List.filter_eq_nil_iff]
  simp

/-- What a rule directive with the given header says, together with the query lines after it. -/
structure Says (header : Chars) (lines : List Chars) (arguments : List Argument) (rule : Rule) :
    Prop where
  role : (Text.words header).head? = some rule.role.name.toList
  declared : rule.role ≠ .body
  given : ArgumentsOf (Text.words header).tail arguments
  known : ∀ a ∈ arguments, a.1 ∈ ["priority", "body"]
  priority : PriorityOf arguments rule.priority
  hints : HintsOf arguments rule.hints
  query : rule.query.toList = Text.trim (Text.joinWith ['\n'] lines)
  definition : "@definition".toList <:+: rule.query.toList

theorem readRule_eq_ok_iff {header : Chars} {lines : List Chars} {rule : Rule} :
    readRule header lines = .ok rule ↔ ∃ arguments, Says header lines arguments rule := by
  rw [readRule]
  cases hwords : Text.words header with
  | nil =>
    constructor
    · intro hread
      cases hread
    · rintro ⟨arguments, hsays⟩
      have hrole := hsays.role
      rw [hwords] at hrole
      cases hrole
  | cons word words =>
    simp only [bind_eq_ok_iff, readRole?_eq_ok_iff, readArguments_eq_ok_iff]
    constructor
    · rintro ⟨role, ⟨hname, hrole⟩, arguments, harguments, hread⟩
      split at hread
      case h_2 => cases hread
      case h_1 hknown =>
        obtain ⟨n, hpriority, hread⟩ := bind_eq_ok_iff.mp hread
        split at hread
        case isFalse => cases hread
        case isTrue hdefinition =>
          obtain rfl := Except.ok.inj hread
          refine ⟨arguments, ?_, hrole, ?_, unknownKeys_eq_nil_iff.mp hknown,
            readPriority_eq_ok_iff.mp hpriority, readHints_eq_iff.mp rfl, ?_, ?_⟩
          · simp [hwords, hname]
          · simpa [hwords] using harguments
          · simp [queryText]
          · simpa using Text.contains_iff_infix.mp hdefinition
    · rintro ⟨arguments, hsays⟩
      obtain ⟨hname, hrole, harguments, hknown, hpriority, hhints, hquery, hdefinition⟩ := hsays
      rw [hwords, List.head?_cons, Option.some.injEq] at hname
      rw [hwords, List.tail_cons] at harguments
      refine ⟨rule.role, ⟨by simp [hname], hrole⟩, arguments, harguments, ?_⟩
      simp only [unknownKeys_eq_nil_iff.mpr hknown]
      refine bind_eq_ok_iff.mpr ⟨rule.priority, readPriority_eq_ok_iff.mpr hpriority, ?_⟩
      simp only [queryText, ← hquery, Text.contains_iff_infix.mpr hdefinition, if_true,
        readHints_eq_iff.mpr hhints, String.ofList_toList]

/-- Whether a rule directive with the given header, and the query lines after it, are a rule. -/
structure IsRule (header : Chars) (lines : List Chars) : Prop where
  role : ∃ word ∈ (Text.words header).head?,
    String.ofList word ∈ ["full-definition", "signature-only", "name-anchor"]
  given : ∀ word ∈ (Text.words header).tail, ∃ key value, Gives word key value ∧
    String.ofList (Text.lower key) ∈ ["priority", "body"]
  priority : ∀ arguments word, ArgumentsOf (Text.words header).tail arguments →
    LastGiven arguments "priority" word → ∃ n, Text.SpellsInteger word.toList n
  definition : "@definition".toList <:+: Text.trim (Text.joinWith ['\n'] lines)

theorem exists_role_iff {name : String} :
    (∃ role : Role, role.name = name ∧ role ≠ .body) ↔
      name ∈ ["full-definition", "signature-only", "name-anchor"] := by
  constructor
  · rintro ⟨role, rfl, hrole⟩
    cases role with
    | body => exact absurd rfl hrole
    | _ => decide
  · intro hname
    simp only [List.mem_cons, List.not_mem_nil, or_false] at hname
    rcases hname with rfl | rfl | rfl
    · exact ⟨.fullDefinition, rfl, by decide⟩
    · exact ⟨.signatureOnly, rfl, by decide⟩
    · exact ⟨.nameAnchor, rfl, by decide⟩

theorem exists_hintsOf (arguments : List Argument) : ∃ hints, HintsOf arguments hints :=
  ⟨_, readHints_eq_iff.mp rfl⟩

theorem exists_priorityOf_iff {arguments : List Argument} :
    (∃ n, PriorityOf arguments n) ↔
      ∀ word, LastGiven arguments "priority" word → ∃ n, Text.SpellsInteger word.toList n := by
  simp only [PriorityOf, ← lastValue?_eq_none_iff, ← lastValue?_eq_some_iff]
  cases hlast : lastValue? arguments "priority" with
  | none => simp
  | some word => simp

/-- The same values are read from the same words. -/
theorem arguments_unique {words : List Chars} {arguments others : List Argument}
    (harguments : ArgumentsOf words arguments) (hothers : ArgumentsOf words others) :
    arguments = others := by
  rw [← readArguments_eq_ok_iff] at harguments hothers
  exact Except.ok.inj (harguments.symm.trans hothers)

theorem known_iff {words : List Chars} {arguments : List Argument} {known : List String}
    (harguments : ArgumentsOf words arguments) :
    (∀ a ∈ arguments, a.1 ∈ known) ↔
      ∀ word ∈ words, ∃ key value,
        Gives word key value ∧ String.ofList (Text.lower key) ∈ known := by
  unfold ArgumentsOf at harguments
  induction harguments with
  | nil => simp
  | cons hword _ ih =>
    rw [List.forall_mem_cons, List.forall_mem_cons, ih]
    obtain ⟨key, value, hgives, rfl⟩ := hword
    apply and_congr_left
    intro _
    constructor
    · intro hknown
      exact ⟨key, value, hgives, hknown⟩
    · rintro ⟨other, _, hother, hknown⟩
      rwa [gives_unique hgives hother]

theorem exists_says_iff {header : Chars} {lines : List Chars} :
    (∃ rule arguments, Says header lines arguments rule) ↔ IsRule header lines := by
  constructor
  · rintro ⟨rule, arguments, hsays⟩
    have hrole := exists_role_iff.mp ⟨rule.role, rfl, hsays.declared⟩
    refine ⟨⟨_, hsays.role, by simpa using hrole⟩, (known_iff hsays.given).mp hsays.known, ?_,
      hsays.query ▸ hsays.definition⟩
    intro others word hothers hlast
    obtain rfl := arguments_unique hsays.given hothers
    exact exists_priorityOf_iff.mp ⟨_, hsays.priority⟩ word hlast
  · rintro ⟨⟨word, hword, hname⟩, hwords, hpriority, hdefinition⟩
    obtain ⟨role, hrole, hdeclared⟩ := exists_role_iff.mpr hname
    obtain ⟨arguments, harguments⟩ := exists_arguments_iff.mpr fun word hword => by
      obtain ⟨key, value, hgives, -⟩ := hwords word hword
      exact ⟨key, value, hgives⟩
    obtain ⟨n, hn⟩ := exists_priorityOf_iff.mpr fun word => hpriority arguments word harguments
    obtain ⟨hints, hhints⟩ := exists_hintsOf arguments
    refine ⟨⟨role, n, hints, String.ofList (queryText lines)⟩, arguments, ?_, hdeclared, harguments,
      (known_iff harguments).mpr hwords, hn, hhints, by simp [queryText], by simpa [queryText]⟩
    rw [hword, hrole, String.toList_ofList]

/-! ### Files -/

/-- A rule directive's header and its query lines. -/
structure RuleBlock where
  header : Chars
  lines : List Chars

/-- The header that a line gives to a rule. -/
def ruleHeader? (line : Chars) : Option Chars :=
  match Directive.ofLine? line with
  | some (.rule header) => some header
  | _ => none

/-- The text of the options that a line gives. -/
def optionText? (line : Chars) : Option Chars :=
  match Directive.ofLine? line with
  | some (.option text) => some text
  | _ => none

/-- Whether a line belongs to the query of a rule: it is neither a directive nor a comment. -/
def isQueryLine (line : Chars) : Bool :=
  (Directive.ofLine? line).isNone && !isCommentLine line

/-- The query lines up to the next rule directive. -/
def queryLines (lines : List Chars) : List Chars :=
  (lines.takeWhile fun line => (ruleHeader? line).isNone).filter isQueryLine

/-- The rule directives among the lines, each with its query lines. -/
def ruleBlocks : List Chars → List RuleBlock
  | [] => []
  | line :: later =>
    match ruleHeader? line with
    | some header => ⟨header, queryLines later⟩ :: ruleBlocks later
    | none => ruleBlocks later

/-- The words of all option directives among the lines. -/
def optionWords (lines : List Chars) : List Chars :=
  (lines.filterMap optionText?).flatMap Text.words

/-- The blocks that are still to be read, where a rule may be open. -/
def blocksFrom (current : Option OpenRule) (lines : List Chars) : List RuleBlock :=
  match current with
  | none => ruleBlocks lines
  | some rule => ⟨rule.header, rule.lines.reverse ++ queryLines lines⟩ :: ruleBlocks lines

section

variable {line : Chars} {later : List Chars}

theorem blocksFrom_of_rule {header : Chars} (current : Option OpenRule)
    (hline : Directive.ofLine? line = some (.rule header)) :
    blocksFrom current (line :: later) =
      blocksFrom current [] ++ blocksFrom (some ⟨header, []⟩) later := by
  cases current <;> simp [blocksFrom, ruleBlocks, queryLines, ruleHeader?, hline]

theorem blocksFrom_of_option {text : Chars} (current : Option OpenRule)
    (hline : Directive.ofLine? line = some (.option text)) :
    blocksFrom current (line :: later) = blocksFrom current later := by
  cases current <;> simp [blocksFrom, ruleBlocks, queryLines, ruleHeader?, isQueryLine, hline]

theorem blocksFrom_of_none (s : FileReading) (hline : Directive.ofLine? line = none) :
    blocksFrom s.current (line :: later) =
      blocksFrom (if isCommentLine line then s else s.addLine line).current later := by
  cases hcomment : isCommentLine line with
  | true =>
    cases hcurrent : s.current <;>
      simp [blocksFrom, ruleBlocks, queryLines, ruleHeader?, isQueryLine, hline, hcomment, hcurrent]
  | false =>
    cases hcurrent : s.current <;>
      simp [blocksFrom, ruleBlocks, queryLines, ruleHeader?, isQueryLine, hline, hcomment, hcurrent,
        FileReading.addLine]

end

/-- Whether the blocks are read as the rules. -/
def ReadAs (blocks : List RuleBlock) (rules : List Rule) : Prop :=
  List.Forall₂ (fun block rule => readRule block.header block.lines = .ok rule) blocks rules

theorem close_eq_ok_iff {s t : FileReading} :
    s.close = .ok t ↔ ∃ rules, ReadAs (blocksFrom s.current []) rules ∧
      t = ⟨rules.reverse ++ s.rules, s.options, none⟩ := by
  obtain ⟨done, options, current⟩ := s
  cases current with
  | none =>
    simp [FileReading.close, blocksFrom, ruleBlocks, ReadAs, eq_comm]
  | some rule =>
    simp only [FileReading.close, bind_eq_ok_iff, blocksFrom, ruleBlocks, ReadAs, queryLines,
      List.takeWhile_nil, List.filter_nil, List.append_nil, List.forall₂_cons_left_iff,
      List.forall₂_nil_left_iff]
    constructor
    · rintro ⟨read, hread, heq⟩
      exact ⟨[read], ⟨read, [], hread, rfl, rfl⟩, (Except.ok.inj heq).symm⟩
    · rintro ⟨_, ⟨read, _, hread, rfl, rfl⟩, rfl⟩
      exact ⟨read, hread, rfl⟩

/-- The reader reads block by block, and gathers the options on its way. -/
theorem run_eq_ok_iff {s t : FileReading} {lines : List Chars} :
    s.run lines = .ok t ↔ ∃ rules arguments, ReadAs (blocksFrom s.current lines) rules ∧
      readArguments (optionWords lines) = .ok arguments ∧
        t = ⟨rules.reverse ++ s.rules, arguments.foldl setValue s.options, none⟩ := by
  induction lines generalizing s with
  | nil => simp [FileReading.run, close_eq_ok_iff, optionWords, readArguments]
  | cons line later ih =>
    rw [FileReading.run, bind_eq_ok_iff, FileReading.step]
    cases hline : Directive.ofLine? line with
    | none =>
      have hwords : optionWords (line :: later) = optionWords later := by
        simp [optionWords, optionText?, hline]
      rw [blocksFrom_of_none s hline, hwords]
      cases isCommentLine line <;> simp [ih, FileReading.addLine]
    | some d =>
      cases d with
      | option text =>
        have hwords : optionWords (line :: later) = Text.words text ++ optionWords later := by
          simp [optionWords, optionText?, hline]
        rw [blocksFrom_of_option _ hline, hwords]
        simp only [bind_eq_ok_iff, readArguments_eq_ok_iff, ArgumentsOf, forall₂_append_iff, ih]
        constructor
        · rintro ⟨_, ⟨first, hfirst, hnext⟩, rules, second, hrules, hsecond, rfl⟩
          obtain rfl := Except.ok.inj hnext
          exact ⟨rules, _, hrules, ⟨first, second, hfirst, hsecond, rfl⟩, by simp⟩
        · rintro ⟨rules, _, hrules, ⟨first, second, hfirst, hsecond, rfl⟩, rfl⟩
          exact ⟨_, ⟨first, hfirst, rfl⟩, rules, second, hrules, hsecond, by simp⟩
      | rule header =>
        have hwords : optionWords (line :: later) = optionWords later := by
          simp [optionWords, optionText?, hline]
        rw [blocksFrom_of_rule _ hline, hwords]
        simp only [bind_eq_ok_iff, close_eq_ok_iff, ReadAs, forall₂_append_iff, ih]
        constructor
        · rintro ⟨_, ⟨_, ⟨first, hfirst, rfl⟩, hnext⟩, second, arguments, hsecond, harguments, rfl⟩
          obtain rfl := Except.ok.inj hnext
          exact ⟨_, arguments, ⟨first, second, hfirst, hsecond, rfl⟩, harguments, by simp⟩
        · rintro ⟨_, arguments, ⟨first, second, hfirst, hsecond, rfl⟩, harguments, rfl⟩
          exact ⟨_, ⟨_, ⟨first, hfirst, rfl⟩, rfl⟩, second, arguments, hsecond, harguments, by simp⟩

theorem read_eq_ok_iff {text : Chars} {file : RuleFile} :
    RuleFile.read text = .ok file ↔ ∃ arguments, ReadAs (ruleBlocks (Text.lines text)) file.rules ∧
      ArgumentsOf (optionWords (Text.lines text)) arguments ∧
        file.options = arguments.foldl setValue [] := by
  simp only [RuleFile.read, bind_eq_ok_iff, run_eq_ok_iff, readArguments_eq_ok_iff]
  constructor
  · rintro ⟨_, ⟨rules, arguments, hrules, harguments, rfl⟩, heq⟩
    obtain rfl := Except.ok.inj heq
    refine ⟨arguments, ?_, harguments, rfl⟩
    simpa [FileReading.start, blocksFrom] using hrules
  · rintro ⟨arguments, hrules, harguments, hoptions⟩
    refine ⟨_, ⟨file.rules, arguments, hrules, harguments, rfl⟩, ?_⟩
    obtain ⟨rules, options⟩ := file
    simp_all [FileReading.start]

theorem map_header_ruleBlocks (lines : List Chars) :
    (ruleBlocks lines).map RuleBlock.header = lines.filterMap ruleHeader? := by
  induction lines with
  | nil => rfl
  | cons line later ih =>
    cases hline : ruleHeader? line with
    | none => simp [ruleBlocks, hline, ih]
    | some header => simp [ruleBlocks, hline, ih]

/-- Whether a text is a rule file: every word of its options is an argument, and every rule
directive a rule. -/
structure WellFormed (text : Chars) : Prop where
  options : ∀ word ∈ optionWords (Text.lines text), ∃ key value, Gives word key value
  rules : ∀ block ∈ ruleBlocks (Text.lines text), IsRule block.header block.lines

theorem exists_readAs_iff {blocks : List RuleBlock} :
    (∃ rules, ReadAs blocks rules) ↔ ∀ block ∈ blocks, IsRule block.header block.lines := by
  simp only [← exists_says_iff, ← readRule_eq_ok_iff]
  induction blocks with
  | nil => simp [ReadAs]
  | cons block later ih =>
    rw [List.forall_mem_cons, ← ih]
    constructor
    · rintro ⟨_, hread⟩
      obtain ⟨rule, rest, hrule, hrest, rfl⟩ := List.forall₂_cons_left_iff.mp hread
      exact ⟨⟨rule, hrule⟩, rest, hrest⟩
    · rintro ⟨⟨rule, hrule⟩, rest, hrest⟩
      exact ⟨rule :: rest, .cons hrule hrest⟩

theorem exists_read_iff {text : Chars} :
    (∃ file, RuleFile.read text = .ok file) ↔ WellFormed text := by
  simp only [read_eq_ok_iff]
  constructor
  · rintro ⟨file, arguments, hrules, harguments, -⟩
    exact ⟨exists_arguments_iff.mp ⟨_, harguments⟩, exists_readAs_iff.mp ⟨_, hrules⟩⟩
  · rintro ⟨hoptions, hrules⟩
    obtain ⟨arguments, harguments⟩ := exists_arguments_iff.mpr hoptions
    obtain ⟨rules, hread⟩ := exists_readAs_iff.mpr hrules
    exact ⟨⟨rules, _⟩, arguments, hread, harguments, rfl⟩

/-- **Just the well-formed texts are rule files**, and their rules and options are what their
directives say. -/
theorem read_iff_wellFormed (text : Chars) :
    ((∃ file, RuleFile.read text = .ok file) ↔ WellFormed text) ∧
      (¬ WellFormed text → ∃ fault, RuleFile.read text = .error fault) ∧
      (∀ line d, Directive.ofLine? line = some d ↔ d.On line) ∧
      (ruleBlocks (Text.lines text)).map RuleBlock.header =
        (Text.lines text).filterMap ruleHeader? ∧
      ∀ file, RuleFile.read text = .ok file →
        List.Forall₂ (fun block rule => ∃ arguments, Says block.header block.lines arguments rule)
            (ruleBlocks (Text.lines text)) file.rules ∧
          (file.options.map Prod.fst).Nodup ∧
            ∃ arguments, ArgumentsOf (optionWords (Text.lines text)) arguments ∧
              ∀ key value, (key, value) ∈ file.options ↔ LastGiven arguments key value := by
  refine ⟨exists_read_iff, ?_, fun _ _ => ofLine?_eq_some_iff, map_header_ruleBlocks _, ?_⟩
  · intro hmalformed
    cases hread : RuleFile.read text with
    | error fault => exact ⟨fault, rfl⟩
    | ok file => exact absurd (exists_read_iff.mp ⟨file, hread⟩) hmalformed
  · intro file hread
    obtain ⟨arguments, hrules, harguments, hoptions⟩ := read_eq_ok_iff.mp hread
    rw [hoptions]
    refine ⟨?_, nodup_foldl_setValue arguments, arguments, harguments, ?_⟩
    · simpa only [ReadAs, readRule_eq_ok_iff] using hrules
    · intro key value
      exact mem_foldl_setValue_iff

/-- Two rules and two options, after a line that belongs to none of them. -/
def twoRules : Chars :=
  Text.joinWith ['\n'] <| List.map String.toList
    ["lost", ";; option : Keep=a=b keep=c",
      "; rule: name-anchor Priority=7 body=a,,b priority=-1_0", "(a)", "; note", " @definition",
      ";option:x=1", "(b) ", "; rule: full-definition", "(c) @definition"]

def twoRulesFile : RuleFile :=
  ⟨[⟨.nameAnchor, -10, ["a", "b"], "(a)\n @definition\n(b)"⟩,
    ⟨.fullDefinition, 10, ["body"], "(c) @definition"⟩], [("keep", "c"), ("x", "1")]⟩

theorem read_iff_wellFormed_twoRules :
    RuleFile.read twoRules = .ok twoRulesFile ∧ WellFormed twoRules ∧
      List.Forall₂ (fun block rule => ∃ arguments, Says block.header block.lines arguments rule)
        (ruleBlocks (Text.lines twoRules)) twoRulesFile.rules ∧
      ¬ WellFormed "; rule: body".toList ∧
        ∃ fault, RuleFile.read "; rule: body".toList = .error fault := by
  obtain ⟨hiff, -, -, -, hfile⟩ := read_iff_wellFormed twoRules
  obtain ⟨hnone, hfault, -⟩ := read_iff_wellFormed "; rule: body".toList
  have hread : RuleFile.read twoRules = .ok twoRulesFile := by decide +kernel
  have hmalformed : ¬ WellFormed "; rule: body".toList := by
    rw [← hnone]
    rintro ⟨file, hok⟩
    cases hok
  exact ⟨hread, hiff.mp ⟨_, hread⟩, (hfile _ hread).1, hmalformed, hfault hmalformed⟩

end CodeOutline
