/-
  CodeOutline/Proofs/Rules/Definitions.lean
  =========================================
  **Rules that capture no definition.**

  A rule file is refused for a rule whose query does not say `@definition`, while definitions are
  the nodes captured under just this name.  The two are not the same.  A query says it where the
  name of a capture begins with `definition`, and also where a comment does (`says_definition_iff`).
  Without the very name the rule is accepted all the same, and claims nothing of any tree
  (`captureMatches_eq_nil`).
-/
import CodeOutline.Proofs.Query.Captures
import CodeOutline.Proofs.Rules.Captured
import CodeOutline.Proofs.Rules.Format

namespace CodeOutline

open Text (Chars)

/-! ### What a query says -/

/-- Whether the name of a capture goes on after `definition`. -/
def NamesLonger (query : Chars) : Prop :=
  ∃ name ∈ Query.namesIn query, definitionName.toList <+: name.toList ∧ name ≠ definitionName

/-- Whether a comment has the capture of definitions. -/
def SaysInComment (query : Chars) : Prop :=
  ∃ line ∈ Text.splitAtChar '\n' query, "@definition".toList <:+: Query.commentOf line

instance (query : Chars) : Decidable (NamesLonger query) :=
  inferInstanceAs (Decidable (∃ name ∈ Query.namesIn query,
    definitionName.toList <+: name.toList ∧ name ≠ definitionName))

instance (query : Chars) : Decidable (SaysInComment query) :=
  inferInstanceAs (Decidable (∃ line ∈ Text.splitAtChar '\n' query,
    "@definition".toList <:+: Query.commentOf line))

/-- What a query says is captured as a definition, captured under a longer name, or in a comment. -/
theorem says_definition_iff (query : Chars) :
    "@definition".toList <:+: query ↔
      definitionName ∈ Query.namesIn query ∨ NamesLonger query ∨ SaysInComment query := by
  have hname : ∀ c ∈ definitionName.toList, Query.continuesName c = true :=
    List.all_eq_true.mp (by decide +kernel)
  have hsign : "@definition".toList = '@' :: definitionName.toList := by decide +kernel
  rw [SaysInComment, hsign, Query.sign_infix_iff hname, ← or_assoc]
  refine or_congr_left ?_
  constructor
  · rintro ⟨name, hmem, hbegins⟩
    by_cases hsame : name = definitionName
    · exact .inl (hsame ▸ hmem)
    · exact .inr ⟨name, hmem, hbegins, hsame⟩
  · rintro (hmem | ⟨name, hmem, hbegins, -⟩)
    · exact ⟨definitionName, hmem, List.prefix_rfl⟩
    · exact ⟨name, hmem, hbegins⟩

/-! ### What a rule captures -/

theorem placesOf_capturesAt {name : String} {p : Pattern}
    (hp : Query.CapturesOnly (· ≠ name) p) (places : List Place) :
    placesOf name (p.capturesAt places) = [] := by
  rw [placesOf, List.map_eq_nil_iff, List.filter_eq_nil_iff]
  intro c hc
  obtain ⟨part, hpart, hc⟩ := List.mem_flatMap.mp hc
  obtain ⟨other, hother, rfl⟩ := List.mem_map.mp hc
  simpa using hp part.1 (List.of_mem_zip hpart).1 other hother

/-- A query that does not capture definitions finds none in any tree. -/
theorem definitions_eq_nil {compiled : CompiledRule}
    (hquery : ∀ p ∈ compiled.query, Query.CapturesOnly (· ≠ definitionName) p) (root : Node) :
    compiled.definitions root = [] := by
  have hnone : capturedDefinitions [compiled] root = [] := by
    rw [capturedDefinitions, List.flatMap_singleton, List.flatMap_eq_nil_iff]
    intro captures hcaptures
    obtain ⟨p, hp, hcaptures⟩ := List.mem_flatMap.mp hcaptures
    obtain ⟨places, -, rfl⟩ := List.mem_map.mp hcaptures
    rw [definitionsOf, placesOf_capturesAt (hquery p hp)]
    rfl
  rw [List.eq_nil_iff_forall_not_mem]
  intro x hx
  have hvalue : x.value ∈ capturedDefinitions [compiled] root :=
    mem_capturedDefinitions_iff.mpr ⟨x, by simpa using hx, rfl⟩
  rw [hnone] at hvalue
  cases hvalue

/-- A rule whose query does not name definitions claims nothing. -/
theorem captureMatches_eq_nil {rule : Rule} {query : Query}
    (hread : Query.read rule.query.toList = some query)
    (hnone : definitionName ∉ Query.namesIn rule.query.toList) (source : List UInt8) (root : Node) :
    captureMatches [⟨rule, query⟩] source root = .ok [] := by
  have hquery : ∀ p ∈ query, Query.CapturesOnly (· ≠ definitionName) p := by
    intro p hp part hpart name hname hsame
    exact hnone (hsame ▸ Query.capturesOnly_of_read hread p hp part hpart name hname)
  have hdefinitions : (⟨rule, query⟩ : CompiledRule).definitions root = [] :=
    definitions_eq_nil hquery root
  rw [captureMatches, List.flatMap_singleton, hdefinitions, claimsOf]

/-! ### What is refused -/

theorem exists_readRule_of_mem {blocks : List RuleBlock} {rules : List Rule}
    (hread : ReadAs blocks rules) {rule : Rule} (hrule : rule ∈ rules) :
    ∃ block ∈ blocks, readRule block.header block.lines = .ok rule := by
  unfold ReadAs at hread
  induction hread with
  | nil => cases hrule
  | cons hfirst _ ih =>
    rcases List.mem_cons.mp hrule with rfl | hlater
    · exact ⟨_, List.mem_cons_self, hfirst⟩
    · obtain ⟨block, hblock, hread⟩ := ih hlater
      exact ⟨block, List.mem_cons_of_mem _ hblock, hread⟩

/-- A rule that is one with other lines is refused for want of a definition alone. -/
theorem readRule_eq_noDefinition {header : Chars} {lines others : List Chars} {rule : Rule}
    (hothers : readRule header others = .ok rule)
    (hnone : ¬ "@definition".toList <:+: queryText lines) :
    readRule header lines = .error (.noDefinition (String.ofList header)) := by
  have hcontains : Text.contains "@definition".toList (queryText lines) = false := by
    rw [Bool.eq_false_iff]
    intro hcontains
    exact hnone (Text.contains_iff_infix.mp hcontains)
  rw [readRule] at hothers ⊢
  split at hothers
  · cases hothers
  · obtain ⟨role, hrole, hothers⟩ := bind_eq_ok_iff.mp hothers
    obtain ⟨arguments, harguments, hothers⟩ := bind_eq_ok_iff.mp hothers
    split at hothers
    · rename_i hknown
      obtain ⟨n, hpriority, -⟩ := bind_eq_ok_iff.mp hothers
      simp only [hrole, harguments, hknown, hpriority, hcontains, bind, Except.bind]
      rfl
    · cases hothers

/-- **What is accepted says `@definition` and need not capture it.**  Every rule of a rule file
captures definitions, or captures under a longer name, or has a comment that says so, and without
the very name it claims nothing of any tree.  A rule that does none of the three is refused. -/
theorem definition_captures (text : Chars) :
    (∀ file, RuleFile.read text = .ok file → ∀ rule ∈ file.rules,
      (definitionName ∈ Query.namesIn rule.query.toList ∨ NamesLonger rule.query.toList ∨
        SaysInComment rule.query.toList) ∧
      ∀ grammar query, Query.compile grammar rule.query = some query →
        (∃ ts, Query.tokens rule.query.toList = some ts ∧
          Query.captureNames ts = Query.namesIn rule.query.toList) ∧
        (definitionName ∉ Query.namesIn rule.query.toList →
          ∀ source root, captureMatches [⟨rule, query⟩] source root = .ok [])) ∧
    ∀ block ∈ ruleBlocks (Text.lines text),
      definitionName ∉ Query.namesIn (queryText block.lines) →
      ¬ NamesLonger (queryText block.lines) → ¬ SaysInComment (queryText block.lines) →
        (∃ fault, RuleFile.read text = .error fault) ∧
        ∀ others rule, readRule block.header others = .ok rule →
          readRule block.header block.lines =
            .error (.noDefinition (String.ofList block.header)) := by
  constructor
  · intro file hfile rule hrule
    obtain ⟨-, hrules, -⟩ := read_eq_ok_iff.mp hfile
    obtain ⟨block, -, hblock⟩ := exists_readRule_of_mem hrules hrule
    obtain ⟨arguments, hsaid⟩ := readRule_eq_ok_iff.mp hblock
    refine ⟨(says_definition_iff _).mp hsaid.definition, ?_⟩
    intro grammar query hcompile
    have hread := Query.read_of_compile hcompile
    obtain ⟨ts, -, htokens, -, -⟩ := Query.read_eq_some_iff.mp hread
    exact ⟨⟨ts, htokens, Query.captureNames_eq htokens⟩, captureMatches_eq_nil hread⟩
  · intro block hblock hname hlonger hcomment
    have hnone : ¬ "@definition".toList <:+: queryText block.lines := by
      rw [says_definition_iff]
      rintro (hsaid | hsaid | hsaid)
      · exact hname hsaid
      · exact hlonger hsaid
      · exact hcomment hsaid
    refine ⟨?_, fun _ _ hothers => readRule_eq_noDefinition hothers hnone⟩
    cases hread : RuleFile.read text with
    | error fault => exact ⟨fault, rfl⟩
    | ok file =>
      have hwell := exists_read_iff.mp ⟨file, hread⟩
      exact absurd (hwell.rules block hblock).definition hnone

/-- A rule that captures under a longer name, and one with the name in a comment. -/
def looseRules : Chars :=
  Text.joinWith ['\n'] <| List.map String.toList
    ["; rule: signature-only", "(function_definition) @definition.extra", "; rule: name-anchor",
      "(class_definition) @name ; @definition"]

def looseRulesFile : RuleFile :=
  ⟨[⟨.signatureOnly, 10, ["body"], "(function_definition) @definition.extra"⟩,
    ⟨.nameAnchor, 10, ["body"], "(class_definition) @name ; @definition"⟩], []⟩

theorem definition_captures_loose :
    RuleFile.read looseRules = .ok looseRulesFile ∧
      (∀ rule ∈ looseRulesFile.rules, ∃ query,
        Query.compile Grammar.unrestricted rule.query = some query ∧
          ∀ source root, captureMatches [⟨rule, query⟩] source root = .ok []) ∧
      ∃ fault, RuleFile.read "; rule: name-anchor\n(class_definition) @name".toList =
        .error fault := by
  have hread : RuleFile.read looseRules = .ok looseRulesFile := by decide +kernel
  have hrules : ∀ rule ∈ looseRulesFile.rules,
      (Query.compile Grammar.unrestricted rule.query).isSome = true ∧
        definitionName ∉ Query.namesIn rule.query.toList := by
    simp only [looseRulesFile, List.forall_mem_cons]
    refine ⟨⟨?_, ?_⟩, ⟨?_, ?_⟩, by simp⟩
    · decide +kernel
    · decide +kernel
    · decide +kernel
    · decide +kernel
  refine ⟨hread, ?_, ?_⟩
  · intro rule hrule
    obtain ⟨hcompiles, hname⟩ := hrules rule hrule
    obtain ⟨query, hquery⟩ := Option.isSome_iff_exists.mp hcompiles
    obtain ⟨-, hnothing⟩ :=
      ((definition_captures looseRules).1 looseRulesFile hread rule hrule).2 _ query hquery
    exact ⟨query, hquery, hnothing hname⟩
  · have hlines :
        (ruleBlocks (Text.lines "; rule: name-anchor\n(class_definition) @name".toList)).map
          RuleBlock.lines = [["(class_definition) @name".toList]] := by decide +kernel
    obtain ⟨block, hblock, hquery⟩ := List.mem_map.mp (hlines ▸ List.mem_singleton_self _)
    apply ((definition_captures _).2 block hblock ?_ ?_ ?_).1
    · rw [hquery]
      decide +kernel
    · rw [hquery]
      decide +kernel
    · rw [hquery]
      decide +kernel

/-- Not every rule that is accepted captures definitions. -/
theorem not_captures_definition :
    ¬ ∀ text file, RuleFile.read text = .ok file → ∀ rule ∈ file.rules, ∀ grammar query,
      Query.compile grammar rule.query = some query →
        ∃ ts, Query.tokens rule.query.toList = some ts ∧ .capture definitionName ∈ ts := by
  intro hclaim
  have hread :
      RuleFile.read "; rule: signature-only\n(function_definition) @definition.extra\n".toList =
        .ok ⟨[⟨.signatureOnly, 10, ["body"], "(function_definition) @definition.extra"⟩], []⟩ := by
    decide +kernel
  have hcompiles : (Query.compile Grammar.unrestricted
      "(function_definition) @definition.extra").isSome = true := by decide +kernel
  obtain ⟨query, hquery⟩ := Option.isSome_iff_exists.mp hcompiles
  obtain ⟨ts, htokens, hcapture⟩ := hclaim _ _ hread _ (List.mem_singleton.mpr rfl) _ query hquery
  have hnone : definitionName ∉
      Query.namesIn "(function_definition) @definition.extra".toList := by decide +kernel
  rw [← Query.captureNames_eq htokens] at hnone
  exact hnone (Query.mem_captureNames_iff.mpr hcapture)

end CodeOutline
