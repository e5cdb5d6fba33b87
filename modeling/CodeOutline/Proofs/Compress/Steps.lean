/-
  CodeOutline/Proofs/Compress/Steps.lean
  ======================================
  **The steps of compressing a file.**

  A file is selected for, planned and rendered.  Here is what each of these steps leaves to the
  next one, and what becomes of the file in each case.  Nothing can fail after the plan
  (`render_of_plan`): its ranges were made from the very text that is rendered.  So a file that was
  compressed has been through all steps (`steps_of_compressed`).
-/
import CodeOutline.Compress.File
import CodeOutline.Proofs.Source.Render

namespace CodeOutline

variable {file : SourceFile} {registry : Registry} {settings : Settings} {profile : Profile}

/-! ### The steps -/

section

variable {root : Node} {rules : List CompiledRule}

theorem matchesOf_of_captureMatches {claims : Tally Match} (hparse : file.parse profile = .ok root)
    (hcompile : profile.compile = .ok rules)
    (hclaims : captureMatches rules file.bytes root = .ok claims) :
    matchesOf file profile = .ok (claims.map Counted.value) := by
  simp [matchesOf, hparse, hcompile, hclaims, Except.mapError, bind, Except.bind]

theorem plan_of_parse_error {failure : Failure} (hparse : file.parse profile = .error failure) :
    plan file profile settings = .error failure := by
  simp [plan, matchesOf, hparse, bind, Except.bind]

theorem plan_of_malformed {rule : MalformedRule} (hparse : file.parse profile = .ok root)
    (hcompile : profile.compile = .error rule) :
    plan file profile settings = .error (.malformedRule rule) := by
  simp [plan, matchesOf, hparse, hcompile, Except.mapError, bind, Except.bind]

theorem plan_of_capture_error {fault : CaptureFault} (hparse : file.parse profile = .ok root)
    (hcompile : profile.compile = .ok rules)
    (hfault : captureMatches rules file.bytes root = .error fault) :
    plan file profile settings = .error (.capture fault) := by
  simp [plan, matchesOf, hparse, hcompile, hfault, Except.mapError, bind, Except.bind]

end

theorem plan_of_matchesOf {claims : List Match} (hclaims : matchesOf file profile = .ok claims) :
    plan file profile settings = .ok (resolve file.bytes claims (retains settings profile)) := by
  rw [plan, hclaims]
  rfl

theorem exists_matchesOf_of_plan {ranges : List Range}
    (hplan : plan file profile settings = .ok ranges) :
    ∃ claims, matchesOf file profile = .ok claims ∧
      ranges = resolve file.bytes claims (retains settings profile) := by
  cases hclaims : matchesOf file profile with
  | error failure => rw [plan, hclaims] at hplan; cases hplan
  | ok claims =>
    rw [plan_of_matchesOf hclaims, Except.ok.injEq] at hplan
    exact ⟨claims, rfl, hplan.symm⟩

/-- What was planned for a file can be rendered. -/
theorem render_of_plan {ranges : List Range} (hplan : plan file profile settings = .ok ranges) :
    ∃ content, render file.bytes ranges settings.placeholder = .ok content := by
  obtain ⟨claims, -, rfl⟩ := exists_matchesOf_of_plan hplan
  exact ⟨_, render_resolve file.content claims _ settings.placeholder⟩

theorem resolveFile_unsupported {unsupported : UnsupportedFile}
    (hselect : file.selectProfile registry = .error unsupported) :
    resolveFile file registry settings = .error (.unsupported unsupported) := by
  rw [resolveFile, hselect]
  rfl

theorem resolveFile_of_select (hselect : file.selectProfile registry = .ok profile) :
    resolveFile file registry settings = (plan file profile settings).mapError .failed := by
  rw [resolveFile, hselect]
  rfl

theorem resolveFile_of_plan {ranges : List Range}
    (hselect : file.selectProfile registry = .ok profile)
    (hplan : plan file profile settings = .ok ranges) :
    resolveFile file registry settings = .ok ranges := by
  rw [resolveFile_of_select hselect, hplan]
  rfl

/-! ### The outcomes -/

theorem compressFile_disabled (hdisabled : settings.enabled = false) :
    compressFile file registry settings = .unchanged file .disabled none := by
  simp only [compressFile, tryCompress, hdisabled]
  rfl

section

variable (henabled : settings.enabled = true)

include henabled

theorem compressFile_unsupported {unsupported : UnsupportedFile}
    (hselect : file.selectProfile registry = .error unsupported) :
    compressFile file registry settings = .unchanged file .unsupportedLanguage none := by
  simp only [compressFile, tryCompress, henabled, hselect]
  rfl

theorem compressFile_noRules (hselect : file.selectProfile registry = .ok profile)
    (hrules : profile.rules = []) :
    compressFile file registry settings = .unchanged file .emptyRuleSet (some profile.name) := by
  simp [compressFile, tryCompress, henabled, hselect, hrules, Except.mapError, bind, Except.bind,
    Fallback.reason, Fallback.language]

variable (hselect : file.selectProfile registry = .ok profile) (hrules : profile.rules ≠ [])

include hselect hrules

theorem compressFile_failed {failure : Failure}
    (hplan : plan file profile settings = .error failure) :
    compressFile file registry settings = .unchanged file failure.reason (some profile.name) := by
  simp [compressFile, tryCompress, henabled, hselect, hrules, hplan, Except.mapError, bind,
    Except.bind, Fallback.reason, Fallback.language]

theorem compressFile_compressed {ranges : List Range} {content : String}
    (hplan : plan file profile settings = .ok ranges)
    (hrender : render file.bytes ranges settings.placeholder = .ok content) :
    compressFile file registry settings = .compressed file content profile.name := by
  simp [compressFile, tryCompress, henabled, hselect, hrules, hplan, hrender, Except.mapError, bind,
    Except.bind]

theorem compressFile_cases :
    (∃ ranges content, plan file profile settings = .ok ranges ∧
        render file.bytes ranges settings.placeholder = .ok content ∧
        compressFile file registry settings = .compressed file content profile.name) ∨
      ∃ failure, plan file profile settings = .error failure ∧
        compressFile file registry settings =
          .unchanged file failure.reason (some profile.name) := by
  cases hplan : plan file profile settings with
  | ok ranges =>
    obtain ⟨content, hrender⟩ := render_of_plan hplan
    exact .inl ⟨ranges, content, rfl, hrender,
      compressFile_compressed henabled hselect hrules hplan hrender⟩
  | error failure =>
    exact .inr ⟨failure, rfl, compressFile_failed henabled hselect hrules hplan⟩

end

/-- A compressed file was selected for, planned and rendered. -/
theorem steps_of_compressed
    (hcompressed : (compressFile file registry settings).isCompressed = true) :
    ∃ profile ranges content, file.selectProfile registry = .ok profile ∧
      plan file profile settings = .ok ranges ∧
      render file.bytes ranges settings.placeholder = .ok content ∧
      compressFile file registry settings = .compressed file content profile.name := by
  have hunchanged : ∀ reason language,
      compressFile file registry settings ≠ .unchanged file reason language := by
    intro reason language heq
    rw [heq] at hcompressed
    cases hcompressed
  cases henabled : settings.enabled with
  | false => exact absurd (compressFile_disabled henabled) (hunchanged _ _)
  | true =>
    cases hselect : file.selectProfile registry with
    | error unsupported =>
      exact absurd (compressFile_unsupported henabled hselect) (hunchanged _ _)
    | ok profile =>
      by_cases hrules : profile.rules = []
      · exact absurd (compressFile_noRules henabled hselect hrules) (hunchanged _ _)
      · rcases compressFile_cases henabled hselect hrules with
          ⟨ranges, content, hplan, hrender, houtcome⟩ | ⟨failure, -, houtcome⟩
        · exact ⟨profile, ranges, content, rfl, hplan, hrender, houtcome⟩
        · exact absurd houtcome (hunchanged _ _)

end CodeOutline
