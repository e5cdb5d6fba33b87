/-
  CodeOutline/Proofs/Languages/Isolation.lean
  ===========================================
  **The rule file of a language only matters to the files of that language.**

  A directory loads when every supported language has a rule file whose options are understood, and
  a grammar (`exists_loadRegistry_iff`).  Queries are texts there: whether they fit the grammar is
  only found out when a file of the language was parsed (`reason_eq_malformedQuery_iff_asks`).  Each
  profile is made of its own rule file, so two directories that differ in the file of one language
  give all other languages the same profiles, and lookups lead to the same languages in both
  (`selectProfile_eq_of_agree`).  `languages_isolated` puts this together for any two of them.
-/
import CodeOutline.Proofs.Compress.Agreement
import CodeOutline.Proofs.Compress.Arrangement
import CodeOutline.Proofs.Compress.Totality
import CodeOutline.Proofs.Languages.Lookup

namespace CodeOutline

variable {grammar? : String → Option Grammar} {directory changed : RuleDirectory}
  {language : String} {profile : Profile} {registry other : Registry}

/-! ### Loading a language -/

/-- The file of a directory under a name. -/
def RuleDirectory.file? (directory : RuleDirectory) (name : String) : Option (List UInt8) :=
  ((directory.files.getD []).find? (·.1 == name)).map Prod.snd

/-- The directories differ in the rule file of one language at most. -/
def DifferOnlyIn (language : String) (directory changed : RuleDirectory) : Prop :=
  ∀ name, name ≠ ruleFileName language → directory.file? name = changed.file? name

theorem ruleFileName_inj {first second : String} :
    ruleFileName first = ruleFileName second ↔ first = second := by
  rw [ruleFileName, ruleFileName, String.append_left_inj]

theorem text_eq_ok_iff {text : Text.Chars} :
    directory.text language = .ok text ↔
      ∃ bytes chars, directory.file? (ruleFileName language) = some bytes ∧
        Utf8.decode bytes = .ok chars ∧ text = Text.unifyNewlines chars := by
  unfold RuleDirectory.text RuleDirectory.file?
  cases (directory.files.getD []).find? (·.1 == ruleFileName language) with
  | none => simp
  | some file =>
    cases hdecode : Utf8.decode file.2 <;>
      simp [hdecode, Except.map, Except.mapError, eq_comm]

theorem isRuleFile_iff {text : Text.Chars} :
    IsRuleFile language text ↔
      ∃ file retain, RuleFile.read text = .ok file ∧ unknownKeys [retainOption] file.options = [] ∧
        readRetain language file.options = .ok retain := by
  refine ⟨exists_of_isRuleFile, ?_⟩
  rintro ⟨file, retain, hread, hknown, hretain⟩
  simp [IsRuleFile, hread, hknown, hretain, Except.toOption, Except.isOk, Except.toBool]

/-- A profile is made of the rule file and the grammar of its language and of nothing else. -/
theorem loadProfile_eq_ok_iff :
    loadProfile grammar? directory language = .ok profile ↔
      ∃ text file grammar retain, directory.text language = .ok text ∧
        RuleFile.read text = .ok file ∧ unknownKeys [retainOption] file.options = [] ∧
        grammar? language = some grammar ∧ readRetain language file.options = .ok retain ∧
        profile = ⟨language, extensionsOf language, grammar, file.rules, retain⟩ := by
  constructor
  · intro hload
    obtain ⟨text, htext, hfile⟩ := bind_eq_ok_iff.mp hload
    obtain ⟨file, hread, hprofile⟩ := bind_eq_ok_iff.mp hfile
    rw [mapError_eq_ok_iff] at hread
    split at hprofile
    · rename_i hknown
      split at hprofile
      · cases hprofile
      · rename_i grammar hgrammar
        obtain ⟨retain, hretain, heq⟩ := bind_eq_ok_iff.mp hprofile
        exact ⟨text, file, grammar, retain, htext, hread, hknown, hgrammar, hretain,
          (Except.ok.inj heq).symm⟩
    · cases hprofile
  · rintro ⟨text, file, grammar, retain, htext, hread, hknown, hgrammar, hretain, rfl⟩
    simp only [loadProfile, htext, hread, hknown, hgrammar, hretain, Except.mapError, bind,
      Except.bind]

theorem exists_loadProfile_iff :
    (∃ profile, loadProfile grammar? directory language = .ok profile) ↔
      (∃ text, directory.text language = .ok text ∧ IsRuleFile language text) ∧
        ∃ grammar, grammar? language = some grammar := by
  simp only [loadProfile_eq_ok_iff, isRuleFile_iff]
  constructor
  · rintro ⟨profile, text, file, grammar, retain, htext, hread, hknown, hgrammar, hretain, -⟩
    exact ⟨⟨text, htext, file, retain, hread, hknown, hretain⟩, grammar, hgrammar⟩
  · rintro ⟨⟨text, htext, file, retain, hread, hknown, hretain⟩, grammar, hgrammar⟩
    exact ⟨_, text, file, grammar, retain, htext, hread, hknown, hgrammar, hretain, rfl⟩

theorem loadProfile_congr
    (hsame : directory.file? (ruleFileName language) = changed.file? (ruleFileName language)) :
    loadProfile grammar? directory language = .ok profile ↔
      loadProfile grammar? changed language = .ok profile := by
  have htext : ∀ text, directory.text language = .ok text ↔ changed.text language = .ok text := by
    intro text
    rw [text_eq_ok_iff, text_eq_ok_iff, hsame]
  simp only [loadProfile_eq_ok_iff, htext]

/-! ### Loading all languages -/

theorem loadProfiles_eq_ok_iff {languages : List String} {profiles : List Profile} :
    loadProfiles grammar? directory languages = .ok profiles ↔
      List.Forall₂ (fun language profile => loadProfile grammar? directory language = .ok profile)
        languages profiles :=
  eq_ok_iff_forall₂ (loadProfile grammar? directory) (loadProfiles grammar? directory) rfl
    fun _ _ => rfl

theorem mem_iff_of_loadProfiles {languages : List String} {profiles : List Profile}
    (hload : loadProfiles grammar? directory languages = .ok profiles) :
    profile ∈ profiles ↔
      ∃ language ∈ languages, loadProfile grammar? directory language = .ok profile := by
  induction loadProfiles_eq_ok_iff.mp hload with
  | nil => simp
  | cons hfirst hlater ih =>
    simp [ih (loadProfiles_eq_ok_iff.mpr hlater), hfirst, eq_comm]

theorem loadRegistry_eq_ok_iff :
    loadRegistry grammar? directory = .ok registry ↔
      directory.files.isSome = true ∧
        loadProfiles grammar? directory supportedLanguages = .ok registry.profiles := by
  unfold loadRegistry
  cases directory.files with
  | none => simp
  | some files =>
    cases registry
    cases loadProfiles grammar? directory supportedLanguages <;> simp [Except.map]

/-- A directory loads when every language has a rule file and a grammar.  No query is compiled. -/
theorem exists_loadRegistry_iff :
    (∃ registry, loadRegistry grammar? directory = .ok registry) ↔
      directory.files.isSome = true ∧ ∀ language ∈ supportedLanguages,
        (∃ text, directory.text language = .ok text ∧ IsRuleFile language text) ∧
          ∃ grammar, grammar? language = some grammar := by
  simp only [← exists_loadProfile_iff, ← exists_forall₂_iff, ← loadProfiles_eq_ok_iff,
    loadRegistry_eq_ok_iff, exists_and_left]
  refine and_congr_right fun _ => ⟨fun ⟨registry, hload⟩ => ⟨registry.profiles, hload⟩,
    fun ⟨profiles, hload⟩ => ⟨⟨profiles⟩, hload⟩⟩

theorem mem_profiles_iff (hload : loadRegistry grammar? directory = .ok registry) :
    profile ∈ registry.profiles ↔
      profile.name ∈ supportedLanguages ∧
        loadProfile grammar? directory profile.name = .ok profile := by
  rw [mem_iff_of_loadProfiles (loadRegistry_eq_ok_iff.mp hload).2]
  constructor
  · rintro ⟨language, hlanguage, hprofile⟩
    obtain ⟨rfl, -⟩ := of_loadProfile hprofile
    exact ⟨hlanguage, hprofile⟩
  · rintro ⟨hlanguage, hprofile⟩
    exact ⟨profile.name, hlanguage, hprofile⟩

/-! ### Registries that agree but for one language -/

/-- The registries have the same profiles, those of one language aside. -/
def AgreeBut (language : String) (registry other : Registry) : Prop :=
  ∀ profile : Profile, profile.name ≠ language →
    (profile ∈ registry.profiles ↔ profile ∈ other.profiles)

theorem agreeBut_of_load (hdiffer : DifferOnlyIn language directory changed)
    (hload : loadRegistry grammar? directory = .ok registry)
    (hother : loadRegistry grammar? changed = .ok other) : AgreeBut language registry other := by
  intro profile hname
  rw [mem_profiles_iff hload, mem_profiles_iff hother, loadProfile_congr]
  apply hdiffer
  rwa [ne_eq, ruleFileName_inj]

theorem require_eq_ok_iff {path : String} :
    registry.require path = .ok profile ↔ registry.resolve? path = some profile := by
  unfold Registry.require
  cases registry.resolve? path <;> simp

section

variable (h : registry.IsComplete) (hother : other.IsComplete)
  (hagree : AgreeBut language registry other)

include h hother hagree

/-- A lookup that finds the profiles of a kind of name finds the same in both, unless it finds that
of the language. -/
theorem lookup_eq_of_agree (asked : String → Prop) {found foundOther : Option Profile}
    (hfound : ∀ profile, found = some profile ↔ profile ∈ registry.profiles ∧ asked profile.name)
    (hfoundOther : ∀ profile,
      foundOther = some profile ↔ profile ∈ other.profiles ∧ asked profile.name)
    (hname : ∀ profile, found = some profile → profile.name ≠ language) : found = foundOther := by
  cases hlookup : found with
  | some profile =>
    obtain ⟨hprofile, hasked⟩ := (hfound profile).mp hlookup
    have hsame := (hagree profile (hname profile hlookup)).mp hprofile
    exact ((hfoundOther profile).mpr ⟨hsame, hasked⟩).symm
  | none =>
    rw [eq_comm, Option.eq_none_iff_forall_ne_some]
    intro profile hlookupOther
    obtain ⟨hprofile, hasked⟩ := (hfoundOther profile).mp hlookupOther
    obtain ⟨own, hown, hsame⟩ := h.exists_profile (hother.name_mem hprofile)
    have hnone := (hfound own).mpr ⟨hown, hsame ▸ hasked⟩
    rw [hlookup] at hnone
    cases hnone

/-- A file for which another profile is selected, or none, does not see the difference. -/
theorem selectProfile_eq_of_agree {file : SourceFile}
    (hname : ∀ profile, file.selectProfile registry = .ok profile → profile.name ≠ language) :
    file.selectProfile registry = file.selectProfile other := by
  have hpath : (∀ profile, registry.require file.path = .ok profile → profile.name ≠ language) →
      registry.require file.path = other.require file.path := by
    intro hname
    have hsame : registry.resolve? file.path = other.resolve? file.path :=
      lookup_eq_of_agree h hother hagree (fun name => detectLanguage file.path = some name)
        (fun _ => h.resolve?_eq_some_iff) (fun _ => hother.resolve?_eq_some_iff)
        fun profile hresolve => hname profile (require_eq_ok_iff.mpr hresolve)
    rw [Registry.require, Registry.require, hsame]
  unfold SourceFile.selectProfile at hname ⊢
  split
  · rename_i hnone
    simp only [hnone] at hname
    exact hpath hname
  · rename_i hempty
    simp only [hempty] at hname
    exact hpath hname
  · rename_i name hne hasked
    simp only [hasked] at hname
    have hsame : registry.get? name = other.get? name := by
      apply lookup_eq_of_agree h hother hagree (fun found => normalizeLanguage name = .ok found)
        (fun _ => h.get?_eq_some_iff) (fun _ => hother.get?_eq_some_iff)
      intro profile hget
      apply hname profile
      rw [hget]
    rw [hsame]

end

/-! ### Malformed queries -/

/-- The rule file of the language has a query that does not fit the grammar. -/
def HasMalformedQuery (grammar? : String → Option Grammar) (directory : RuleDirectory)
    (language : String) : Prop :=
  ∃ text file grammar, directory.text language = .ok text ∧ RuleFile.read text = .ok file ∧
    grammar? language = some grammar ∧ ∃ rule ∈ file.rules, rule.Malformed grammar

theorem exists_malformed_iff (hload : loadRegistry grammar? directory = .ok registry)
    (hprofile : profile ∈ registry.profiles) :
    (∃ rule ∈ profile.rules, rule.Malformed profile.grammar) ↔
      HasMalformedQuery grammar? directory profile.name := by
  obtain ⟨text, file, grammar, retain, htext, hread, -, hgrammar, -, hmade⟩ :=
    loadProfile_eq_ok_iff.mp ((mem_profiles_iff hload).mp hprofile).2
  have hfields : profile.grammar = grammar ∧ profile.rules = file.rules := by
    rw [hmade]
    exact ⟨rfl, rfl⟩
  rw [hfields.1, hfields.2]
  constructor
  · intro hmalformed
    exact ⟨text, file, grammar, htext, hread, hgrammar, hmalformed⟩
  · rintro ⟨text', file', grammar', htext', hread', hgrammar', hmalformed⟩
    rw [htext, Except.ok.injEq] at htext'
    rw [← htext', hread, Except.ok.injEq] at hread'
    rw [hgrammar, Option.some.injEq] at hgrammar'
    rwa [hread', hgrammar']

variable {file : SourceFile} {settings : Settings}

theorem mem_of_selectProfile (h : registry.IsComplete)
    (hselect : file.selectProfile registry = .ok profile) : profile ∈ registry.profiles := by
  have hpath : registry.require file.path = .ok profile → profile ∈ registry.profiles :=
    fun hrequire => (h.resolve?_eq_some_iff.mp (require_eq_ok_iff.mp hrequire)).1
  unfold SourceFile.selectProfile at hselect
  split at hselect
  · exact hpath hselect
  · exact hpath hselect
  · rename_i name _ _
    cases hget : registry.get? name with
    | none => simp [hget] at hselect
    | some found =>
      simp only [hget, Except.ok.injEq] at hselect
      subst hselect
      exact (h.get?_eq_some_iff.mp hget).1

theorem parse_ne_malformedRule {rule : MalformedRule} :
    file.parse profile ≠ .error (.malformedRule rule) := by
  unfold SourceFile.parse
  split
  · simp
  · simp
  · simp
  · split <;> simp

theorem exists_parse_of_plan {rule : MalformedRule}
    (hplan : plan file profile settings = .error (.malformedRule rule)) :
    ∃ root, file.parse profile = .ok root ∧ profile.compile = .error rule := by
  cases hparse : file.parse profile with
  | error failure =>
    rw [plan_of_parse_error hparse, Except.error.injEq] at hplan
    exact absurd (hplan ▸ hparse) parse_ne_malformedRule
  | ok root => exact ⟨root, rfl, (plan_eq_malformedRule_iff hparse).mp hplan⟩

/-- A file that comes as far as the queries is left alone when one of them is malformed. -/
theorem compressFile_of_malformed {root : Node} (henabled : settings.enabled = true)
    (hselect : file.selectProfile registry = .ok profile) (hparse : file.parse profile = .ok root)
    (hmalformed : ∃ rule ∈ profile.rules, rule.Malformed profile.grammar) :
    compressFile file registry settings = .unchanged file .malformedQuery (some profile.name) := by
  obtain ⟨i, hi⟩ := exists_firstMalformed_iff.mpr hmalformed
  obtain ⟨rule, hrule, -⟩ := hmalformed
  have hcompile : profile.compile = .error ⟨profile.name, i⟩ := compile_error_iff.mpr ⟨i, hi, rfl⟩
  exact compressFile_failed henabled hselect (List.ne_nil_of_mem hrule)
    (plan_of_malformed hparse hcompile)

/-- Malformed queries are reported for those files and for no others. -/
theorem reason_eq_malformedQuery_iff_asks :
    (compressFile file registry settings).reason = some .malformedQuery ↔
      settings.enabled = true ∧ ∃ profile root, file.selectProfile registry = .ok profile ∧
        file.parse profile = .ok root ∧ ∃ rule ∈ profile.rules, rule.Malformed profile.grammar := by
  constructor
  · intro hreason
    cases henabled : settings.enabled with
    | false => simp [compressFile_disabled henabled] at hreason
    | true =>
      cases hselect : file.selectProfile registry with
      | error unsupported => simp [compressFile_unsupported henabled hselect] at hreason
      | ok profile =>
        by_cases hrules : profile.rules = []
        · simp [compressFile_noRules henabled hselect hrules] at hreason
        · rcases compressFile_cases henabled hselect hrules with
            ⟨_, _, -, -, houtcome⟩ | ⟨failure, hplan, houtcome⟩
          · simp [houtcome] at hreason
          · rw [houtcome, reason_unchanged, Option.some.injEq,
              reason_eq_malformedQuery_iff] at hreason
            obtain ⟨rule, rfl⟩ := hreason
            obtain ⟨root, hparse, hcompile⟩ := exists_parse_of_plan hplan
            obtain ⟨i, hi, -⟩ := compile_error_iff.mp hcompile
            exact ⟨rfl, profile, root, rfl, hparse, exists_firstMalformed_iff.mp ⟨i, hi⟩⟩
  · rintro ⟨henabled, profile, root, hselect, hparse, hmalformed⟩
    rw [compressFile_of_malformed henabled hselect hparse hmalformed, reason_unchanged]

/-! ### Two directories -/

/-- A directory that differs from one that loads is loaded when the one file is a rule file. -/
theorem exists_loadRegistry_of_differ (hdiffer : DifferOnlyIn language directory changed)
    (hload : ∃ registry, loadRegistry grammar? directory = .ok registry) :
    (∃ other, loadRegistry grammar? changed = .ok other) ↔
      changed.files.isSome = true ∧ (language ∈ supportedLanguages →
        ∃ text, changed.text language = .ok text ∧ IsRuleFile language text) := by
  obtain ⟨-, hall⟩ := exists_loadRegistry_iff.mp hload
  rw [exists_loadRegistry_iff]
  refine and_congr_right fun _ => ⟨fun hchanged hlanguage => (hchanged language hlanguage).1, ?_⟩
  intro hchanged name hname
  by_cases hsame : name = language
  · subst hsame
    exact ⟨hchanged hname, (hall name hname).2⟩
  · have hfile : directory.file? (ruleFileName name) = changed.file? (ruleFileName name) :=
      hdiffer _ (ruleFileName_inj.not.mpr hsame)
    obtain ⟨⟨text, htext, hrules⟩, hgrammar⟩ := hall name hname
    rw [text_eq_ok_iff, hfile, ← text_eq_ok_iff] at htext
    exact ⟨⟨text, htext, hrules⟩, hgrammar⟩

/-- **A language's rule file only matters to its own files.**  A changed directory loads when the
file is one of rules, whatever the queries in it are.  Files of other languages and of none come
out as before, and a malformed query is reported for the enabled and parsed files of its language,
which are left as they are. -/
theorem languages_isolated (hdiffer : DifferOnlyIn language directory changed)
    (hload : loadRegistry grammar? directory = .ok registry) :
    ((∃ other, loadRegistry grammar? changed = .ok other) ↔
      changed.files.isSome = true ∧ (language ∈ supportedLanguages →
        ∃ text, changed.text language = .ok text ∧ IsRuleFile language text)) ∧
      ∀ other, loadRegistry grammar? changed = .ok other →
        ∀ (file : SourceFile) (settings : Settings),
        ((∀ profile, file.selectProfile registry = .ok profile → profile.name ≠ language) →
          compressFile file registry settings = compressFile file other settings) ∧
        ((compressFile file other settings).reason = some .malformedQuery ↔
          settings.enabled = true ∧ ∃ profile root, file.selectProfile other = .ok profile ∧
            file.parse profile = .ok root ∧ HasMalformedQuery grammar? changed profile.name) ∧
        (HasMalformedQuery grammar? changed language →
          ∀ profile, file.selectProfile other = .ok profile → profile.name = language →
            (compressFile file other settings = .unchanged file .malformedQuery (some language) ↔
              settings.enabled = true ∧ ∃ root, file.parse profile = .ok root)) := by
  refine ⟨exists_loadRegistry_of_differ hdiffer ⟨registry, hload⟩, ?_⟩
  intro other hother file settings
  have hcomplete := isComplete_of_load hother
  have hasks : (compressFile file other settings).reason = some .malformedQuery ↔
      settings.enabled = true ∧ ∃ profile root, file.selectProfile other = .ok profile ∧
        file.parse profile = .ok root ∧ HasMalformedQuery grammar? changed profile.name := by
    rw [reason_eq_malformedQuery_iff_asks]
    refine and_congr_right fun _ => exists_congr fun profile => exists_congr fun root =>
      and_congr_right fun hselect => ?_
    rw [exists_malformed_iff hother (mem_of_selectProfile hcomplete hselect)]
  refine ⟨fun hname => ?_, hasks, ?_⟩
  · apply compressFile_congr_of_select
    exact selectProfile_eq_of_agree (isComplete_of_load hload) hcomplete
      (agreeBut_of_load hdiffer hload hother) hname
  · rintro hmalformed profile hselect rfl
    constructor
    · intro houtcome
      obtain ⟨henabled, found, root, hfound, hparse, -⟩ :=
        hasks.mp (by rw [houtcome, reason_unchanged])
      rw [hselect, Except.ok.injEq] at hfound
      exact ⟨henabled, root, hfound ▸ hparse⟩
    · rintro ⟨henabled, root, hparse⟩
      have hprofile := mem_of_selectProfile hcomplete hselect
      exact compressFile_of_malformed henabled hselect hparse
        ((exists_malformed_iff hother hprofile).mpr hmalformed)

/-- A rule file whose query lacks its closing bracket. -/
def unbalancedRules : String :=
  "; rule: signature-only\n(comment @definition\n"

/-- The bundled rule files with the unbalanced one in the place of one of them. -/
def unbalancedDirectory : RuleDirectory :=
  ⟨"queries", some ((ruleFileName "lua", Utf8.encode unbalancedRules.toList) ::
    Bundle.directory.files.getD [])⟩

theorem differOnlyIn_unbalanced : DifferOnlyIn "lua" Bundle.directory unbalancedDirectory := by
  intro name hname
  have hother : (ruleFileName "lua" == name) = false := beq_eq_false_iff_ne.mpr (Ne.symm hname)
  simp [RuleDirectory.file?, unbalancedDirectory, hother]

theorem text_unbalanced : unbalancedDirectory.text "lua" = .ok unbalancedRules.toList := by
  rw [text_eq_ok_iff]
  refine ⟨_, unbalancedRules.toList, ?_, Utf8.decode_encode _, by decide +kernel⟩
  simp [RuleDirectory.file?, unbalancedDirectory]

theorem hasMalformedQuery_unbalanced :
    HasMalformedQuery supportedGrammar? unbalancedDirectory "lua" := by
  have hread : RuleFile.read unbalancedRules.toList =
      .ok ⟨[⟨.signatureOnly, 10, ["body"], "(comment @definition"⟩], []⟩ := by decide +kernel
  have hgrammar : supportedGrammar? "lua" = some .unrestricted := rfl
  refine ⟨_, _, _, text_unbalanced, hread, hgrammar, _, List.mem_singleton_self _, ?_⟩
  decide +kernel

/-- A file with a tree of one node, whose language is found by its path. -/
def smallFile (path : String) : SourceFile :=
  ⟨path, "x", none, .tree ⟨"program", true, [], 0, 1, []⟩⟩

theorem selectProfile_smallFile (h : registry.IsComplete) {path : String} :
    (smallFile path).selectProfile registry = .ok profile ↔
      profile ∈ registry.profiles ∧ detectLanguage path = some profile.name :=
  require_eq_ok_iff.trans h.resolve?_eq_some_iff

theorem languages_isolated_unbalanced :
    DifferOnlyIn "lua" Bundle.directory unbalancedDirectory ∧
      loadRegistry supportedGrammar? Bundle.directory = .ok Bundle.registry ∧
      HasMalformedQuery supportedGrammar? unbalancedDirectory "lua" ∧
      ∃ other, loadRegistry supportedGrammar? unbalancedDirectory = .ok other ∧
        compressFile (smallFile "a.go") Bundle.registry .default =
          compressFile (smallFile "a.go") other .default ∧
        compressFile (smallFile "a.lua") other .default =
          .unchanged (smallFile "a.lua") .malformedQuery (some "lua") := by
  obtain ⟨hloads, hfiles⟩ := languages_isolated differOnlyIn_unbalanced loadRegistry_directory
  have hrules : IsRuleFile "lua" unbalancedRules.toList := by decide +kernel
  obtain ⟨other, hother⟩ := hloads.mpr ⟨rfl, fun _ => ⟨_, text_unbalanced, hrules⟩⟩
  have hcomplete := isComplete_of_load hother
  refine ⟨differOnlyIn_unbalanced, loadRegistry_directory, hasMalformedQuery_unbalanced, other,
    hother, ?_, ?_⟩
  · apply (hfiles other hother (smallFile "a.go") .default).1
    intro profile hselect hname
    have hgo : detectLanguage "a.go" = some "go" := by decide +kernel
    obtain ⟨-, hdetect⟩ :=
      (selectProfile_smallFile (isComplete_of_load loadRegistry_directory)).mp hselect
    rw [hgo, hname] at hdetect
    exact absurd hdetect (by decide)
  · have hlua : detectLanguage "a.lua" = some "lua" := by decide +kernel
    obtain ⟨profile, hprofile, hname⟩ : ∃ profile ∈ other.profiles, profile.name = "lua" :=
      hcomplete.exists_profile (by decide)
    have hselect := (selectProfile_smallFile hcomplete).mpr ⟨hprofile, hname.symm ▸ hlua⟩
    have hparse : (smallFile "a.lua").parse profile = .ok ⟨"program", true, [], 0, 1, []⟩ := by
      rfl
    exact ((hfiles other hother (smallFile "a.lua") .default).2.2 hasMalformedQuery_unbalanced
      profile hselect hname).mpr ⟨rfl, _, hparse⟩

end CodeOutline
