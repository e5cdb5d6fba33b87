/-
  CodeOutline/Proofs/Compress/Arrangement.lean
  ============================================
  **How a profile's rules are arranged makes no difference to a file.**

  A profile is found by its name and its extensions, so another arrangement of its rules is found
  in its place (`selectProfile_withRules`).  Both arrangements fail alike, or decide every byte
  alike (`plan_alike`), and what becomes of the file is the same (`compressFile_rearranged`).  Only
  the number of the malformed rule that is reported follows the arrangement.
-/
import CodeOutline.Proofs.Compress.Steps
import CodeOutline.Proofs.Rules.Arrangement

namespace CodeOutline

variable {file : SourceFile} {settings : Settings} {profile : Profile} {rules : List Rule}

/-- The profile with other rules. -/
def Profile.withRules (profile : Profile) (rules : List Rule) : Profile :=
  { profile with rules := rules }

/-! ### The profile of a file -/

/-- Of two lists that differ in one place, the last entry of a kind is found in the same place. -/
theorem find?_reverse_cases {α : Type} (kind : α → Bool) {x y : α} (hsame : kind x = kind y)
    (before after : List α) :
    ((before ++ x :: after).reverse.find? kind = some x ∧
        (before ++ y :: after).reverse.find? kind = some y) ∨
      (before ++ x :: after).reverse.find? kind = (before ++ y :: after).reverse.find? kind := by
  simp only [List.reverse_append, List.reverse_cons, List.append_assoc, List.find?_append,
    List.find?_cons, ← hsame]
  cases after.reverse.find? kind with
  | some z => exact .inr rfl
  | none =>
    cases hkind : kind x with
    | true => exact .inl ⟨rfl, rfl⟩
    | false => exact .inr rfl

section

variable (file : SourceFile) (profile : Profile) (rules : List Rule) (before after : List Profile)

theorem require_withRules (path : String) :
    (Registry.require ⟨before ++ profile :: after⟩ path = .ok profile ∧
        Registry.require ⟨before ++ profile.withRules rules :: after⟩ path =
          .ok (profile.withRules rules)) ∨
      Registry.require ⟨before ++ profile :: after⟩ path =
        Registry.require ⟨before ++ profile.withRules rules :: after⟩ path := by
  have hlists : profile.lists (FilePath.extensionOf path) =
      (profile.withRules rules).lists (FilePath.extensionOf path) := rfl
  simp only [Registry.require, Registry.resolve?]
  rcases find?_reverse_cases (·.lists (FilePath.extensionOf path)) hlists before after with
    ⟨hfound, hother⟩ | hsame
  · exact .inl ⟨by rw [hfound], by rw [hother]⟩
  · exact .inr (by rw [hsame])

theorem get?_withRules (language : String) :
    (Registry.get? ⟨before ++ profile :: after⟩ language = some profile ∧
        Registry.get? ⟨before ++ profile.withRules rules :: after⟩ language =
          some (profile.withRules rules)) ∨
      Registry.get? ⟨before ++ profile :: after⟩ language =
        Registry.get? ⟨before ++ profile.withRules rules :: after⟩ language := by
  unfold Registry.get? Registry.named?
  generalize canonicalName language = name
  have hname : (profile.name == name) = ((profile.withRules rules).name == name) := rfl
  exact find?_reverse_cases (·.name == name) hname before after

/-- A file for which the profile is selected gets the one in its place. -/
theorem selectProfile_withRules :
    (file.selectProfile ⟨before ++ profile :: after⟩ = .ok profile ∧
        file.selectProfile ⟨before ++ profile.withRules rules :: after⟩ =
          .ok (profile.withRules rules)) ∨
      file.selectProfile ⟨before ++ profile :: after⟩ =
        file.selectProfile ⟨before ++ profile.withRules rules :: after⟩ := by
  unfold SourceFile.selectProfile
  split
  · exact require_withRules profile rules before after file.path
  · exact require_withRules profile rules before after file.path
  · rename_i language _ _
    rcases get?_withRules profile rules before after language with ⟨hfound, hother⟩ | hsame
    · exact .inl ⟨by rw [hfound], by rw [hother]⟩
    · exact .inr (by rw [hsame])

end

/-! ### The plan and the outcome -/

/-- Rules that say the same lead to one plan, or fail for one reason. -/
theorem plan_alike {scale : Int → Int} (hscale : KeepsOrder scale)
    (halike : Alike scale profile.rules rules) :
    (∃ ranges, plan file profile settings = .ok ranges ∧
        plan file (profile.withRules rules) settings = .ok ranges) ∨
      ∃ failure other, plan file profile settings = .error failure ∧
        plan file (profile.withRules rules) settings = .error other ∧
          failure.reason = other.reason := by
  cases hparse : file.parse profile with
  | error failure =>
    exact .inr ⟨failure, failure, plan_of_parse_error hparse, plan_of_parse_error hparse, rfl⟩
  | ok root =>
    have hparseOther : file.parse (profile.withRules rules) = .ok root := hparse
    by_cases hmalformed : ∃ rule ∈ profile.rules, rule.Malformed profile.grammar
    · obtain ⟨i, hi⟩ := exists_firstMalformed_iff.mpr hmalformed
      have hmalformedOther := (halike.malformed profile.grammar).mp hmalformed
      obtain ⟨j, hj⟩ := exists_firstMalformed_iff.mpr hmalformedOther
      have hcompile := compile_error_iff.mpr ⟨i, hi, rfl⟩
      have hother : (profile.withRules rules).compile = _ := compile_error_iff.mpr ⟨j, hj, rfl⟩
      exact .inr ⟨_, _, plan_of_malformed hparse hcompile, plan_of_malformed hparseOther hother,
        rfl⟩
    · have hfine : ∀ rule ∈ profile.rules, ¬ rule.Malformed profile.grammar :=
        fun rule hrule hbad => hmalformed ⟨rule, hrule, hbad⟩
      have hfineOther : ∀ rule ∈ rules, ¬ rule.Malformed profile.grammar :=
        fun rule hrule hbad => hmalformed ((halike.malformed _).mpr ⟨rule, hrule, hbad⟩)
      obtain ⟨compiled, hcompile⟩ := exists_compile_iff.mpr hfine
      obtain ⟨others, hother⟩ : ∃ others, (profile.withRules rules).compile = .ok others :=
        exists_compile_iff.mpr hfineOther
      have hmade : (∃ claims, captureMatches compiled file.bytes root = .ok claims) ↔
          ∃ claims, captureMatches others file.bytes root = .ok claims :=
        exists_captureMatches_congr halike hcompile hother
      cases hclaims : captureMatches compiled file.bytes root with
      | ok claims =>
        obtain ⟨claimsOther, hclaimsOther⟩ := hmade.mp ⟨claims, hclaims⟩
        refine .inl ⟨_, plan_of_matchesOf (matchesOf_of_captureMatches hparse hcompile hclaims), ?_⟩
        rw [plan_of_matchesOf (matchesOf_of_captureMatches hparseOther hother hclaimsOther)]
        refine congrArg _ (resolve_congr file.bytes _ fun i => ?_)
        exact (keptAt_captureMatches halike hcompile hother hscale hclaims hclaimsOther).symm
      | error fault =>
        cases hclaimsOther : captureMatches others file.bytes root with
        | ok claimsOther =>
          obtain ⟨claims, hmadeToo⟩ := hmade.mpr ⟨claimsOther, hclaimsOther⟩
          rw [hclaims] at hmadeToo
          cases hmadeToo
        | error faultOther =>
          exact .inr ⟨_, _, plan_of_capture_error hparse hcompile hclaims,
            plan_of_capture_error hparseOther hother hclaimsOther, rfl⟩

/-- A file only sees the profile that is selected for it. -/
theorem compressFile_congr_of_select {registry other : Registry}
    (hsame : file.selectProfile registry = file.selectProfile other) :
    compressFile file registry settings = compressFile file other settings := by
  rw [compressFile, compressFile, tryCompress, tryCompress, hsame]

theorem compressFile_alike {scale : Int → Int} (hscale : KeepsOrder scale)
    (halike : Alike scale profile.rules rules) (before after : List Profile) :
    compressFile file ⟨before ++ profile :: after⟩ settings =
      compressFile file ⟨before ++ profile.withRules rules :: after⟩ settings := by
  rcases selectProfile_withRules file profile rules before after with ⟨hselect, hother⟩ | hsame
  case inr => exact compressFile_congr_of_select hsame
  cases henabled : settings.enabled with
  | false => rw [compressFile_disabled henabled, compressFile_disabled henabled]
  | true =>
    by_cases hrules : profile.rules = []
    · rw [compressFile_noRules henabled hselect hrules,
        compressFile_noRules henabled hother (halike.empty.mp hrules)]
      rfl
    · have hrulesOther : (profile.withRules rules).rules ≠ [] := fun hnone =>
        hrules (halike.empty.mpr hnone)
      rcases plan_alike hscale halike with
        ⟨ranges, hplan, hplanOther⟩ | ⟨failure, failureOther, hplan, hplanOther, hreason⟩
      · obtain ⟨content, hrender⟩ := render_of_plan hplan
        rw [compressFile_compressed henabled hselect hrules hplan hrender,
          compressFile_compressed henabled hother hrulesOther hplanOther hrender]
        rfl
      · rw [compressFile_failed henabled hselect hrules hplan,
          compressFile_failed henabled hother hrulesOther hplanOther, hreason]
        rfl

theorem plan_eq_malformedRule_iff {root : Node} (hparse : file.parse profile = .ok root)
    {fault : MalformedRule} :
    plan file profile settings = .error (.malformedRule fault) ↔
      profile.compile = .error fault := by
  cases hcompile : profile.compile with
  | error rule =>
    rw [plan_of_malformed hparse hcompile]
    simp
  | ok compiled =>
    have hother : plan file profile settings ≠ .error (.malformedRule fault) := by
      cases hclaims : captureMatches compiled file.bytes root with
      | ok claims =>
        rw [plan_of_matchesOf (matchesOf_of_captureMatches hparse hcompile hclaims)]
        simp
      | error captureFault =>
        rw [plan_of_capture_error hparse hcompile hclaims]
        simp
    simp [hother]

/-- The rule that is reported is the first malformed one of the profile. -/
theorem resolveFile_eq_malformedRule_iff {registry : Registry} {root : Node}
    (hselect : file.selectProfile registry = .ok profile) (hparse : file.parse profile = .ok root)
    {fault : MalformedRule} :
    resolveFile file registry settings = .error (.failed (.malformedRule fault)) ↔
      ∃ i, FirstMalformed profile.grammar profile.rules i ∧ fault = ⟨profile.name, i⟩ := by
  have hplan : plan file profile settings = .error (.malformedRule fault) ↔
      profile.compile = .error fault := plan_eq_malformedRule_iff hparse
  rw [resolveFile_of_select hselect, ← compile_error_iff, ← hplan]
  cases plan file profile settings with
  | error failure => simp [Except.mapError]
  | ok ranges => simp [Except.mapError]

/-- **Every arrangement of a profile's rules leads a file to the same outcome.**  Where a rule is
malformed all arrangements say so, and the rule that is named is the first malformed one of the
arrangement. -/
theorem compressFile_rearranged (profile : Profile) (rules : List Rule)
    (hrearranged : Rearranged profile.rules rules) (before after : List Profile)
    (file : SourceFile) (settings : Settings) :
    compressFile file ⟨before ++ profile.withRules rules :: after⟩ settings =
        compressFile file ⟨before ++ profile :: after⟩ settings ∧
      ∀ root, file.selectProfile ⟨before ++ profile.withRules rules :: after⟩ =
          .ok (profile.withRules rules) → file.parse profile = .ok root →
        ((∃ rule ∈ profile.rules, rule.Malformed profile.grammar) →
          settings.enabled = true →
            compressFile file ⟨before ++ profile.withRules rules :: after⟩ settings =
              .unchanged file .malformedQuery (some profile.name)) ∧
        ((∃ rule ∈ profile.rules, rule.Malformed profile.grammar) ↔
          ∃ i, FirstMalformed profile.grammar rules i) ∧
        ∀ fault, resolveFile file ⟨before ++ profile.withRules rules :: after⟩ settings =
            .error (.failed (.malformedRule fault)) ↔
          ∃ i, FirstMalformed profile.grammar rules i ∧ fault = ⟨profile.name, i⟩ := by
  have hsame : compressFile file ⟨before ++ profile.withRules profile.rules :: after⟩ settings =
      compressFile file ⟨before ++ profile.withRules rules :: after⟩ settings :=
    hrearranged.same
      (fun others => compressFile file ⟨before ++ profile.withRules others :: after⟩ settings)
      fun scale own others hscale halike => by
        have hown : Alike scale (profile.withRules own).rules others := halike
        exact compressFile_alike hscale hown before after
  have hmalformed : (∃ rule ∈ profile.rules, rule.Malformed profile.grammar) =
      ∃ rule ∈ rules, rule.Malformed profile.grammar :=
    hrearranged.same (fun others => ∃ rule ∈ others, rule.Malformed profile.grammar)
      fun _ _ _ _ halike => propext (halike.malformed profile.grammar)
  refine ⟨hsame.symm, ?_⟩
  intro root hselect hparse
  have hfirst : (∃ rule ∈ profile.rules, rule.Malformed profile.grammar) ↔
      ∃ i, FirstMalformed profile.grammar rules i := by
    rw [hmalformed, exists_firstMalformed_iff]
  refine ⟨?_, hfirst, fun fault => resolveFile_eq_malformedRule_iff hselect hparse⟩
  intro hbad henabled
  obtain ⟨i, hi⟩ := hfirst.mp hbad
  have hcompile : (profile.withRules rules).compile = .error ⟨profile.name, i⟩ :=
    compile_error_iff.mpr ⟨i, hi, rfl⟩
  have hrules : (profile.withRules rules).rules ≠ [] := by
    obtain ⟨rule, hrule, -⟩ := hmalformed ▸ hbad
    exact List.ne_nil_of_mem hrule
  exact compressFile_failed henabled hselect hrules (plan_of_malformed hparse hcompile)

def twoPatternsRule : Rule :=
  ⟨.signatureOnly, 10, [], "(callable (block) @body) @definition\n(item) @definition"⟩

def brokenRule : Rule :=
  ⟨.fullDefinition, 20, [], "(item"⟩

def brokenProfile : Profile :=
  ⟨"lua", [], Grammar.unrestricted, [twoPatternsRule, brokenRule], true⟩

/-- The broken rule comes first here and again last, the patterns have a rule each, and all
priorities are doubled. -/
def brokenRulesRearranged : List Rule :=
  [⟨.fullDefinition, 40, [], "(item"⟩, ⟨.signatureOnly, 20, [], "(item) @definition"⟩,
    ⟨.signatureOnly, 20, [], "(callable (block) @body) @definition"⟩,
    ⟨.fullDefinition, 40, [], "(item"⟩]

theorem rearranged_broken : Rearranged [twoPatternsRule, brokenRule] brokenRulesRearranged := by
  have hlines : twoPatternsRule.query.toList = Text.joinWith ['\n']
      (["(callable (block) @body) @definition", "(item) @definition"].map String.toList) := by
    decide +kernel
  have htexts : ["(callable (block) @body) @definition", "(item) @definition"].map
      (fun text => Query.read text.toList) =
        [⟨none, .exactly "callable", ["definition"], [⟨none, .exactly "block", ["body"], []⟩]⟩,
          ⟨none, .exactly "item", ["definition"], []⟩].map fun p => some [p] := by
    rw [List.map_cons, List.map_singleton, String.toList_ofList, String.toList_ofList]
    rfl
  have hsplit := rearranged_lines [] [brokenRule] hlines (List.cons_ne_nil _ _) htexts
  refine hsplit.trans ?_
  refine (Rearranged.repeated (List.mem_append_right _ List.mem_cons_self)).trans ?_
  refine (Rearranged.rescaled (2 * ·) fun a b hlt => by dsimp only; omega).trans ?_
  refine Rearranged.permuted ?_
  decide

def brokenFile : SourceFile :=
  ⟨"a", "x", some "lua", .tree ⟨"item", true, [], 0, 1, []⟩⟩

theorem compressFile_rearranged_broken :
    compressFile brokenFile ⟨[brokenProfile.withRules brokenRulesRearranged]⟩ .default =
        compressFile brokenFile ⟨[brokenProfile]⟩ .default ∧
      compressFile brokenFile ⟨[brokenProfile]⟩ .default =
        .unchanged brokenFile .malformedQuery (some "lua") ∧
      resolveFile brokenFile ⟨[brokenProfile.withRules brokenRulesRearranged]⟩ .default =
        .error (.failed (.malformedRule ⟨"lua", 0⟩)) := by
  obtain ⟨hsame, hreport⟩ := compressFile_rearranged brokenProfile brokenRulesRearranged
    rearranged_broken [] [] brokenFile .default
  obtain ⟨hmalformed, -, hresolve⟩ := hreport ⟨"item", true, [], 0, 1, []⟩ rfl rfl
  have hbad : brokenRule.Malformed Grammar.unrestricted := by decide +kernel
  have hunchanged := hmalformed ⟨brokenRule, List.mem_cons_of_mem _ List.mem_cons_self, hbad⟩ rfl
  refine ⟨hsame, hsame.symm.trans hunchanged, (hresolve _).mpr ⟨0, ?_, rfl⟩⟩
  rw [brokenRulesRearranged, firstMalformed_cons_zero]
  exact hbad

end CodeOutline
