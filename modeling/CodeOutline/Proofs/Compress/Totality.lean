/-
  CodeOutline/Proofs/Compress/Totality.lean
  =========================================
  **A tree that fits its source leads to no internal error.**

  After a file is parsed and its rules are compiled, three things could still go wrong: a signature
  could be read outside the source, a span could be invalid, and a kept range could be no text.
  None of them does where every node of the tree lies inside the source.  Nodes may lie outside
  their parents, be empty, or be errors, and bodies may be captured anywhere.

  So a file that has a parser is compressed, or is left alone for a reason of its own
  (`never_internalError`).
-/
import CodeOutline.Proofs.Compress.Steps
import CodeOutline.Proofs.Rules.Claims
import CodeOutline.Proofs.Rules.Compile

namespace CodeOutline

variable {file : SourceFile} {registry : Registry} {settings : Settings} {profile : Profile}
  {root : Node} {rules : List CompiledRule}

/-! ### The matches of a file -/

theorem exists_captureMatches {source : List UInt8} (hfits : root.Fits source.length) :
    ∃ claims, captureMatches rules source root = .ok claims := by
  refine ⟨_, claimsOf_of_forall ?_⟩
  intro d hd
  obtain ⟨compiled, -, hd⟩ := List.mem_flatMap.mp hd
  exact exists_claims_of_fits hfits (mem_preorder_of_mem_definitions hd)

/-- What the parser of the file's language made of it, where it was accepted. -/
theorem parsed_of_parse (hparse : file.parse profile = .ok root) : file.parsed = .tree root := by
  unfold SourceFile.parse at hparse
  cases hparsed : file.parsed with
  | noParser => simp [hparsed] at hparse
  | refused detail => simp [hparsed] at hparse
  | noTree => simp [hparsed] at hparse
  | tree other =>
    simp only [hparsed] at hparse
    split at hparse
    · cases hparse
    · rw [Except.ok.inj hparse]

theorem exists_matchesOf (hfits : ∀ root, file.parsed = .tree root → root.Fits file.bytes.length)
    (hparse : file.parse profile = .ok root) (hcompile : profile.compile = .ok rules) :
    ∃ claims, matchesOf file profile = .ok claims := by
  obtain ⟨claims, hclaims⟩ : ∃ claims, captureMatches rules file.bytes root = .ok claims :=
    exists_captureMatches (hfits root (parsed_of_parse hparse))
  exact ⟨_, matchesOf_of_captureMatches hparse hcompile hclaims⟩

/-! ### Why a plan can fail -/

theorem parse_error_cases {failure : Failure} (hparser : file.parsed ≠ .noParser)
    (hparse : file.parse profile = .error failure) : ∃ source, failure = .unreadable source := by
  unfold SourceFile.parse at hparse
  cases hparsed : file.parsed with
  | noParser => exact absurd hparsed hparser
  | refused detail =>
    simp only [hparsed] at hparse
    exact ⟨_, (Except.error.inj hparse).symm⟩
  | noTree =>
    simp only [hparsed] at hparse
    exact ⟨_, (Except.error.inj hparse).symm⟩
  | tree root =>
    simp only [hparsed] at hparse
    split at hparse
    · exact ⟨_, (Except.error.inj hparse).symm⟩
    · cases hparse

/-- A plan fails because the source cannot be read or because a rule is malformed. -/
theorem plan_error_cases {failure : Failure} (hparser : file.parsed ≠ .noParser)
    (hfits : ∀ root, file.parsed = .tree root → root.Fits file.bytes.length)
    (hplan : plan file profile settings = .error failure) :
    (∃ source, failure = .unreadable source) ∨ ∃ rule, failure = .malformedRule rule := by
  cases hparse : file.parse profile with
  | error other =>
    rw [plan_of_parse_error hparse, Except.error.injEq] at hplan
    subst hplan
    exact .inl (parse_error_cases hparser hparse)
  | ok root =>
    cases hcompile : profile.compile with
    | error rule =>
      rw [plan_of_malformed hparse hcompile, Except.error.injEq] at hplan
      exact .inr ⟨rule, hplan.symm⟩
    | ok rules =>
      obtain ⟨claims, hclaims⟩ := exists_matchesOf hfits hparse hcompile
      rw [plan_of_matchesOf hclaims] at hplan
      cases hplan

/-! ### The outcome -/

@[simp] theorem reason_compressed (file : SourceFile) (content language : String) :
    (Outcome.compressed file content language).reason = none :=
  rfl

@[simp] theorem reason_unchanged (file : SourceFile) (reason : Reason) (language : Option String) :
    (Outcome.unchanged file reason language).reason = some reason :=
  rfl

theorem reason_ne_internalError (hparser : file.parsed ≠ .noParser)
    (hfits : ∀ root, file.parsed = .tree root → root.Fits file.bytes.length) :
    (compressFile file registry settings).reason ≠ some .internalError := by
  cases henabled : settings.enabled with
  | false => simp [compressFile_disabled henabled]
  | true =>
    cases hselect : file.selectProfile registry with
    | error unsupported => simp [compressFile_unsupported henabled hselect]
    | ok profile =>
      by_cases hrules : profile.rules = []
      · simp [compressFile_noRules henabled hselect hrules]
      · rcases compressFile_cases henabled hselect hrules with
          ⟨ranges, content, -, -, houtcome⟩ | ⟨failure, hplan, houtcome⟩
        · simp [houtcome]
        · rw [houtcome, reason_unchanged]
          rcases plan_error_cases hparser hfits hplan with ⟨source, rfl⟩ | ⟨rule, rfl⟩
          · simp [Failure.reason]
          · simp [Failure.reason]

/-- **No file with a parser and a tree that fits it comes back with an internal error.**  Once it
is parsed and its rules are compiled, every definition claims its matches, the plan is made and its
text is rendered. -/
theorem never_internalError (file : SourceFile) (registry : Registry) (settings : Settings)
    (hparser : file.parsed ≠ .noParser)
    (hfits : ∀ root, file.parsed = .tree root → root.Fits file.bytes.length) :
    (compressFile file registry settings).reason ≠ some .internalError ∧
      ∀ profile root rules, file.selectProfile registry = .ok profile →
        file.parse profile = .ok root → profile.compile = .ok rules →
          (∀ compiled ∈ rules, ∀ d ∈ compiled.definitions root,
            ∃ claims, d.value.claims file.bytes = .ok claims) ∧
          ∃ ranges content, plan file profile settings = .ok ranges ∧
            render file.bytes ranges settings.placeholder = .ok content ∧
            (settings.enabled = true → profile.rules ≠ [] →
              compressFile file registry settings = .compressed file content profile.name) := by
  refine ⟨reason_ne_internalError hparser hfits, ?_⟩
  intro profile root rules hselect hparse hcompile
  constructor
  · intro compiled _ d hd
    exact exists_claims_of_fits (hfits root (parsed_of_parse hparse))
      (mem_preorder_of_mem_definitions hd)
  · obtain ⟨claims, hclaims⟩ := exists_matchesOf hfits hparse hcompile
    have hplan : plan file profile settings = .ok _ := plan_of_matchesOf hclaims
    obtain ⟨content, hrender⟩ := render_of_plan hplan
    refine ⟨_, content, hplan, hrender, ?_⟩
    intro henabled hrules
    exact compressFile_compressed henabled hselect hrules hplan hrender

/-- A language with one rule, which says itself where the body is. -/
def blockProfile : Profile :=
  ⟨"lua", [], ⟨fun _ => true, fun _ => true⟩,
    [⟨.signatureOnly, 10, [], "(callable (block) @body) @definition"⟩], true⟩

/-- The first callable has blanks before its body.  The second has an empty body outside it, and
an error over the whole source below it. -/
def scatteredTree : Node :=
  ⟨"module", true, [], 0, 5,
    [⟨"callable", true, [], 0, 4, [⟨"block", true, [], 3, 4, []⟩]⟩,
      ⟨"callable", true, [], 4, 5, [⟨"block", true, [], 0, 0, []⟩, ⟨"ERROR", true, [], 0, 5, []⟩]⟩]⟩

def scatteredFile : SourceFile :=
  ⟨"a", "f  x\n", some "lua", .tree scatteredTree⟩

theorem never_internalError_scattered :
    scatteredFile.parsed ≠ .noParser ∧ scatteredTree.Fits scatteredFile.bytes.length ∧
      ∃ content, compressFile scatteredFile ⟨[blockProfile]⟩ .default =
        .compressed scatteredFile content "lua" := by
  have hparser : scatteredFile.parsed ≠ .noParser := by simp [scatteredFile]
  have hfits : scatteredTree.Fits scatteredFile.bytes.length := by decide
  have hselect : scatteredFile.selectProfile ⟨[blockProfile]⟩ = .ok blockProfile := by rfl
  have hparse : scatteredFile.parse blockProfile = .ok scatteredTree := by rfl
  have hqueries : ∀ rule ∈ blockProfile.rules, ¬ rule.Malformed blockProfile.grammar := by
    decide +kernel
  obtain ⟨rules, hcompile⟩ := exists_compile_iff.mpr hqueries
  obtain ⟨-, htotal⟩ := never_internalError scatteredFile ⟨[blockProfile]⟩ .default hparser
    (by rintro root ⟨⟩; exact hfits)
  obtain ⟨-, ranges, content, -, -, hcompressed⟩ :=
    htotal blockProfile scatteredTree rules hselect hparse hcompile
  exact ⟨hparser, hfits, content, hcompressed rfl (by decide)⟩

end CodeOutline
