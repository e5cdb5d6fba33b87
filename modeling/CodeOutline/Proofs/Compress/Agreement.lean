/-
  CodeOutline/Proofs/Compress/Agreement.lean
  ==========================================
  **Resolving a file and compressing it agree.**

  Both run the same steps.  Resolving reports the failure of a step and compressing leaves the file
  alone, so every failure has to have its reason and every reason its failure.
  `resolveFile_agrees` says this for all files, registries and enabled settings, and with it that
  explaining a compressed file always has ranges to show.
-/
import CodeOutline.Command.Run
import CodeOutline.Proofs.Compress.Steps

namespace CodeOutline

/-! ### Reasons and failures -/

theorem reason_eq_parseFailure_iff {failure : Failure} :
    failure.reason = .parseFailure ↔ ∃ source, failure = .unreadable source := by
  cases failure <;> simp [Failure.reason]

theorem reason_eq_malformedQuery_iff {failure : Failure} :
    failure.reason = .malformedQuery ↔ ∃ rule, failure = .malformedRule rule := by
  cases failure <;> simp [Failure.reason]

theorem reason_eq_internalError_iff {failure : Failure} :
    failure.reason = .internalError ↔
      (∀ source, failure ≠ .unreadable source) ∧ ∀ rule, failure ≠ .malformedRule rule := by
  cases failure <;> simp [Failure.reason]

/-- What both say of a file under a profile with rules. -/
structure Agree (file : SourceFile) (settings : Settings) (profile : Profile)
    (resolved : Except ResolveFault (List Range)) (outcome : Outcome) : Prop where
  ok : ∀ ranges, resolved = .ok ranges → ∃ content,
    render file.bytes ranges settings.placeholder = .ok content ∧
      outcome = .compressed file content profile.name
  compressed : outcome.result = .compressed → ∃ ranges, resolved = .ok ranges
  unreadable : (∃ source, resolved = .error (.failed (.unreadable source))) ↔
    outcome = .unchanged file .parseFailure (some profile.name)
  malformed : (∃ rule, resolved = .error (.failed (.malformedRule rule))) ↔
    outcome = .unchanged file .malformedQuery (some profile.name)
  other : (∃ fault, resolved = .error fault ∧ (∀ source, fault ≠ .failed (.unreadable source)) ∧
      ∀ rule, fault ≠ .failed (.malformedRule rule)) ↔
    outcome = .unchanged file .internalError (some profile.name)

section

variable {file : SourceFile} {registry : Registry} {settings : Settings} {profile : Profile}

theorem agree_compressed {ranges : List Range} {content : String}
    (hrender : render file.bytes ranges settings.placeholder = .ok content) :
    Agree file settings profile (.ok ranges) (.compressed file content profile.name) := by
  refine ⟨?_, fun _ => ⟨ranges, rfl⟩, ?_, ?_, ?_⟩
  · rintro _ ⟨⟩
    exact ⟨content, hrender, rfl⟩
  all_goals simp [Outcome.compressed, Outcome.unchanged]

theorem agree_failed (failure : Failure) :
    Agree file settings profile (.error (.failed failure))
      (.unchanged file failure.reason (some profile.name)) := by
  have hreason : ∀ reason : Reason, Outcome.unchanged file failure.reason (some profile.name) =
      .unchanged file reason (some profile.name) ↔ failure.reason = reason := by
    simp [Outcome.unchanged]
  refine ⟨by simp, by simp [Outcome.unchanged], ?_, ?_, ?_⟩
  · rw [hreason, reason_eq_parseFailure_iff]
    simp
  · rw [hreason, reason_eq_malformedQuery_iff]
    simp
  · rw [hreason, reason_eq_internalError_iff]
    simp

theorem agree_of_select (henabled : settings.enabled = true)
    (hselect : file.selectProfile registry = .ok profile) (hrules : profile.rules ≠ []) :
    Agree file settings profile (resolveFile file registry settings)
      (compressFile file registry settings) := by
  rw [resolveFile_of_select hselect]
  rcases compressFile_cases henabled hselect hrules with
    ⟨ranges, content, hplan, hrender, houtcome⟩ | ⟨failure, hplan, houtcome⟩
  · rw [hplan, houtcome]
    exact agree_compressed hrender
  · rw [hplan, houtcome]
    exact agree_failed failure

theorem unsupported_iff (henabled : settings.enabled = true) :
    (∃ unsupported, resolveFile file registry settings = .error (.unsupported unsupported)) ↔
      compressFile file registry settings = .unchanged file .unsupportedLanguage none := by
  cases hselect : file.selectProfile registry with
  | error unsupported =>
    exact iff_of_true ⟨unsupported, resolveFile_unsupported hselect⟩
      (compressFile_unsupported henabled hselect)
  | ok profile =>
    refine iff_of_false ?_ ?_
    · rw [resolveFile_of_select hselect]
      cases plan file profile settings <;> simp [Except.mapError]
    · by_cases hrules : profile.rules = []
      · rw [compressFile_noRules henabled hselect hrules]
        simp [Outcome.unchanged]
      · rcases compressFile_cases henabled hselect hrules with
          ⟨_, _, -, -, houtcome⟩ | ⟨failure, -, houtcome⟩
        · simp [houtcome, Outcome.compressed, Outcome.unchanged]
        · simp [houtcome, Outcome.unchanged]

theorem compressFile_unchanged (file : SourceFile) (registry : Registry) (settings : Settings)
    (hunchanged : (compressFile file registry settings).result = .unchanged) :
    ∃ reason language,
      compressFile file registry settings = .unchanged file reason language := by
  unfold compressFile at hunchanged ⊢
  cases htry : tryCompress file registry settings with
  | ok result => rw [htry] at hunchanged; cases hunchanged
  | error fallback => exact ⟨_, _, rfl⟩

theorem exists_resolveFile_of_compressed
    (hcompressed : (compressFile file registry settings).isCompressed = true) :
    ∃ ranges, resolveFile file registry settings = .ok ranges := by
  obtain ⟨profile, ranges, -, hselect, hplan, -, -⟩ := steps_of_compressed hcompressed
  exact ⟨ranges, resolveFile_of_plan hselect hplan⟩

/-- There is always something to explain. -/
theorem exit_explainFile (m : Machine) (w : Workspace) (settings : Settings) (file : SourceFile) :
    (explainFile m w settings file).exit = 0 := by
  rw [explainFile]
  cases hcompressed : (compressFile file m.registry settings).isCompressed with
  | false => rfl
  | true =>
    obtain ⟨ranges, hresolve⟩ := exists_resolveFile_of_compressed hcompressed
    simp [hresolve]

/-- **Resolving a file and compressing it agree**, in what they make of it and in why they fail. -/
theorem resolveFile_agrees (file : SourceFile) (registry : Registry) (settings : Settings)
    (henabled : settings.enabled = true) :
    (∀ unsupported, file.selectProfile registry = .error unsupported →
        resolveFile file registry settings = .error (.unsupported unsupported)) ∧
      ((∃ unsupported, resolveFile file registry settings = .error (.unsupported unsupported)) ↔
        compressFile file registry settings = .unchanged file .unsupportedLanguage none) ∧
      (∀ profile, file.selectProfile registry = .ok profile → profile.rules = [] →
        compressFile file registry settings =
          .unchanged file .emptyRuleSet (some profile.name)) ∧
      (∀ profile, file.selectProfile registry = .ok profile → profile.rules ≠ [] →
        Agree file settings profile (resolveFile file registry settings)
          (compressFile file registry settings)) ∧
      ((compressFile file registry settings).result = .unchanged → ∃ reason language,
        compressFile file registry settings = .unchanged file reason language) ∧
      ((compressFile file registry settings).result = .compressed →
        (∃ ranges, resolveFile file registry settings = .ok ranges) ∧
          ∀ (m : Machine) (w : Workspace), m.registry = registry →
            (explainFile m w settings file).exit = 0) := by
  refine ⟨?_, unsupported_iff henabled, ?_, ?_, ?_, ?_⟩
  · exact fun unsupported hselect => resolveFile_unsupported hselect
  · exact fun profile hselect hrules => compressFile_noRules henabled hselect hrules
  · exact fun profile hselect hrules => agree_of_select henabled hselect hrules
  · exact compressFile_unchanged file registry settings
  · intro hcompressed
    refine ⟨exists_resolveFile_of_compressed (by simp [Outcome.isCompressed, hcompressed]), ?_⟩
    exact fun m w _ => exit_explainFile m w settings file

end

/-- A language whose only rule is cut short. -/
def cutShortProfile : Profile :=
  ⟨"lua", [], ⟨fun _ => true, fun _ => true⟩, [⟨.fullDefinition, 10, [], "(chunk"⟩], true⟩

def cutShortFile : SourceFile :=
  ⟨"a", "x", some "lua", .tree ⟨"chunk", true, [], 0, 1, []⟩⟩

theorem resolveFile_agrees_cutShort :
    Settings.default.enabled = true ∧
      cutShortFile.selectProfile ⟨[cutShortProfile]⟩ = .ok cutShortProfile ∧
      cutShortProfile.rules ≠ [] ∧
      resolveFile cutShortFile ⟨[cutShortProfile]⟩ .default =
        .error (.failed (.malformedRule ⟨"lua", 0⟩)) ∧
      compressFile cutShortFile ⟨[cutShortProfile]⟩ .default =
        .unchanged cutShortFile .malformedQuery (some "lua") := by
  have hselect : cutShortFile.selectProfile ⟨[cutShortProfile]⟩ = .ok cutShortProfile := by rfl
  have hrules : cutShortProfile.rules ≠ [] := by decide
  have hresolve : resolveFile cutShortFile ⟨[cutShortProfile]⟩ .default =
      .error (.failed (.malformedRule ⟨"lua", 0⟩)) := by rfl
  obtain ⟨-, -, -, hagree, -⟩ :=
    resolveFile_agrees cutShortFile ⟨[cutShortProfile]⟩ .default rfl
  exact ⟨rfl, hselect, hrules, hresolve,
    (hagree cutShortProfile hselect hrules).malformed.mp ⟨_, hresolve⟩⟩

end CodeOutline
