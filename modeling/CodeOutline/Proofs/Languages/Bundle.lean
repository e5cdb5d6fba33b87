/-
  CodeOutline/Proofs/Languages/Bundle.lean
  ========================================
  **The bundled rule files load, and names find their profiles.**

  Every text of the bundle is a rule file whose options are understood (`isRuleFile_of_mem_texts`).
  So the registry of the bundle holds a profile for each supported language, and the name of the
  language finds it, with the rules that its own text spells (`exists_bundled`).
-/
import CodeOutline.Languages.Bundle
import CodeOutline.Proofs.Text.Utf8
import Mathlib.Data.List.Nodup

namespace CodeOutline

/-- The first entry under a key is the only one where keys do not come twice. -/
theorem find?_of_nodup {α : Type} {key : α → String} {entries : List α}
    (hnodup : (entries.map key).Nodup) {entry : α} (hentry : entry ∈ entries) :
    entries.find? (fun other => key other == key entry) = some entry := by
  induction entries with
  | nil => simp at hentry
  | cons first later ih =>
    rw [List.map_cons, List.nodup_cons] at hnodup
    rw [List.find?_cons]
    rcases List.mem_cons.mp hentry with rfl | hlater
    · simp
    · have hne : (key first == key entry) = false := by
        rw [beq_eq_false_iff_ne]
        intro hsame
        exact hnodup.1 (hsame ▸ List.mem_map_of_mem hlater)
      rw [hne]
      exact ih hnodup.2 hlater

/-! ### Texts -/

theorem map_fst_texts : Bundle.texts.map Prod.fst = supportedLanguages :=
  rfl

theorem mem_supportedLanguages_iff {language : String} :
    language ∈ supportedLanguages ↔ ∃ text, (language, text) ∈ Bundle.texts := by
  rw [← map_fst_texts, List.mem_map]
  constructor
  · rintro ⟨⟨language, text⟩, hentry, rfl⟩
    exact ⟨text, hentry⟩
  · rintro ⟨text, hentry⟩
    exact ⟨(language, text), hentry, rfl⟩

/-- Whether a text is a rule file whose options are understood. -/
def IsRuleFile (language : String) (text : Text.Chars) : Prop :=
  ((RuleFile.read text).toOption.any fun file =>
    (unknownKeys [retainOption] file.options).isEmpty &&
      (readRetain language file.options).isOk) = true

instance (language : String) (text : Text.Chars) : Decidable (IsRuleFile language text) :=
  inferInstanceAs (Decidable (_ = true))

theorem exists_of_isRuleFile {language : String} {text : Text.Chars}
    (hfile : IsRuleFile language text) :
    ∃ file retain, RuleFile.read text = .ok file ∧ unknownKeys [retainOption] file.options = [] ∧
      readRetain language file.options = .ok retain := by
  cases hread : RuleFile.read text with
  | error fault => simp [IsRuleFile, hread, Except.toOption] at hfile
  | ok file =>
    simp only [IsRuleFile, hread, Except.toOption, Option.any_some, Bool.and_eq_true,
      List.isEmpty_iff] at hfile
    obtain ⟨hknown, hretain⟩ := hfile
    cases hword : readRetain language file.options with
    | error fault => simp [hword, Except.isOk, Except.toBool] at hretain
    | ok retain => exact ⟨file, retain, rfl, hknown, hword⟩

/-- Every text of the bundle is a rule file of its language. -/
theorem isRuleFile_of_mem_texts :
    ∀ entry ∈ Bundle.texts, IsRuleFile entry.1 (Text.unifyNewlines entry.2.toList) := by
  simp only [Bundle.texts, List.forall_mem_cons]
  refine ⟨?_, ?_, ?_, ?_, ?_, ?_, ?_, ?_, ?_, ?_, ?_, ?_, ?_, ?_, ?_, ?_, ?_, by simp⟩
  · rw [Bundle.bash, String.toList_ofList]; decide +kernel
  · rw [Bundle.c, String.toList_ofList]; decide +kernel
  · rw [Bundle.cpp, String.toList_ofList]; decide +kernel
  · rw [Bundle.csharp, String.toList_ofList]; decide +kernel
  · rw [Bundle.go, String.toList_ofList]; decide +kernel
  · rw [Bundle.java, String.toList_ofList]; decide +kernel
  · rw [Bundle.javascript, String.toList_ofList]; decide +kernel
  · rw [Bundle.kotlin, String.toList_ofList]; decide +kernel
  · rw [Bundle.lua, String.toList_ofList]; decide +kernel
  · rw [Bundle.php, String.toList_ofList]; decide +kernel
  · rw [Bundle.python, String.toList_ofList]; decide +kernel
  · rw [Bundle.ruby, String.toList_ofList]; decide +kernel
  · rw [Bundle.rust, String.toList_ofList]; decide +kernel
  · rw [Bundle.scala, String.toList_ofList]; decide +kernel
  · rw [Bundle.swift, String.toList_ofList]; decide +kernel
  · rw [Bundle.tsx, Bundle.typescript, String.toList_ofList]; decide +kernel
  · rw [Bundle.typescript, String.toList_ofList]; decide +kernel

theorem text_directory {language text : String} (hentry : (language, text) ∈ Bundle.texts) :
    Bundle.directory.text language = .ok (Text.unifyNewlines text.toList) := by
  have hfiles : Bundle.directory.files.getD [] = Bundle.texts.map fun entry =>
      (ruleFileName entry.1, Utf8.encode entry.2.toList) := rfl
  have hnames : ((Bundle.texts.map fun entry =>
      (ruleFileName entry.1, Utf8.encode entry.2.toList)).map Prod.fst).Nodup := by
    rw [List.map_map]
    decide
  have hfile := find?_of_nodup hnames (List.mem_map_of_mem hentry)
  rw [RuleDirectory.text, hfiles, hfile]
  simp [Utf8.decode_encode, Except.map, Except.mapError]

/-! ### Profiles -/

/-- The profile of a language has the rules of its text. -/
theorem exists_loadProfile {language text : String} (hentry : (language, text) ∈ Bundle.texts) :
    ∃ file retain, RuleFile.read (Text.unifyNewlines text.toList) = .ok file ∧
      loadProfile supportedGrammar? Bundle.directory language =
        .ok ⟨language, extensionsOf language, Grammar.unrestricted, file.rules, retain⟩ := by
  obtain ⟨file, retain, hread, hknown, hretain⟩ :=
    exists_of_isRuleFile (isRuleFile_of_mem_texts _ hentry)
  have hsupported : supportedLanguages.contains language = true := by
    rw [List.contains_iff_mem]
    exact mem_supportedLanguages_iff.mpr ⟨text, hentry⟩
  refine ⟨file, retain, hread, ?_⟩
  simp only [loadProfile, text_directory hentry, hread, hknown, hretain, supportedGrammar?,
    hsupported, Except.mapError, bind, Except.bind, if_true]

theorem exists_loadProfiles {grammar? : String → Option Grammar} {directory : RuleDirectory}
    {languages : List String}
    (hall : ∀ language ∈ languages, ∃ profile,
      loadProfile grammar? directory language = .ok profile ∧ profile.name = language) :
    ∃ profiles, loadProfiles grammar? directory languages = .ok profiles ∧
      profiles.map Profile.name = languages ∧
      ∀ profile ∈ profiles, loadProfile grammar? directory profile.name = .ok profile := by
  induction languages with
  | nil => exact ⟨[], rfl, rfl, by simp⟩
  | cons language later ih =>
    obtain ⟨⟨profile, hload, hname⟩, hlater⟩ := List.forall_mem_cons.mp hall
    obtain ⟨rest, hrest, hnames, hloads⟩ := ih hlater
    refine ⟨profile :: rest, ?_, ?_, ?_⟩
    · simp [loadProfiles, hload, hrest, bind, Except.bind]
    · rw [List.map_cons, hname, hnames]
    · refine List.forall_mem_cons.mpr ⟨?_, hloads⟩
      rw [hname, hload]

theorem loadRegistry_of_loadProfiles {grammar? : String → Option Grammar}
    {directory : RuleDirectory} {profiles : List Profile}
    (hfiles : directory.files.isNone = false)
    (hload : loadProfiles grammar? directory supportedLanguages = .ok profiles) :
    loadRegistry grammar? directory = .ok ⟨profiles⟩ := by
  rw [loadRegistry, hfiles, hload]
  rfl

theorem exists_bundle :
    ∃ profiles, loadProfiles supportedGrammar? Bundle.directory supportedLanguages = .ok profiles ∧
      profiles.map Profile.name = supportedLanguages ∧
      ∀ profile ∈ profiles,
        loadProfile supportedGrammar? Bundle.directory profile.name = .ok profile := by
  apply exists_loadProfiles
  intro language hlanguage
  obtain ⟨text, hentry⟩ := mem_supportedLanguages_iff.mp hlanguage
  obtain ⟨file, retain, -, hload⟩ := exists_loadProfile hentry
  exact ⟨_, hload, rfl⟩

/-- The bundle loads. -/
theorem loadRegistry_directory :
    loadRegistry supportedGrammar? Bundle.directory = .ok Bundle.registry := by
  obtain ⟨profiles, hload, -⟩ := exists_bundle
  rw [Bundle.registry, loadRegistry_of_loadProfiles rfl hload]
  rfl

/-- The registry of the bundle has one profile for each supported language, read from its text. -/
theorem profiles_registry :
    Bundle.registry.profiles.map Profile.name = supportedLanguages ∧
      ∀ profile ∈ Bundle.registry.profiles,
        loadProfile supportedGrammar? Bundle.directory profile.name = .ok profile := by
  obtain ⟨profiles, hload, hnames, hloads⟩ := exists_bundle
  have hregistry := loadRegistry_directory
  rw [loadRegistry_of_loadProfiles rfl hload, Except.ok.injEq] at hregistry
  rw [← hregistry]
  exact ⟨hnames, hloads⟩

/-- The name of a supported language finds the profile with the rules of its text. -/
theorem exists_bundled {language text : String} (hentry : (language, text) ∈ Bundle.texts) :
    ∃ file profile, RuleFile.read (Text.unifyNewlines text.toList) = .ok file ∧
      Bundle.registry.get? language = some profile ∧ profile.name = language ∧
      profile.grammar = Grammar.unrestricted ∧ profile.rules = file.rules := by
  obtain ⟨file, retain, hread, hload⟩ := exists_loadProfile hentry
  obtain ⟨hnames, hloads⟩ := profiles_registry
  have hlanguage : language ∈ supportedLanguages := mem_supportedLanguages_iff.mpr ⟨text, hentry⟩
  obtain ⟨profile, hprofile, rfl⟩ := List.mem_map.mp (hnames ▸ hlanguage)
  have hcanonical : ∀ name ∈ supportedLanguages, canonicalName name = name := by decide +kernel
  have hfound : Bundle.registry.get? profile.name = some profile := by
    rw [Registry.get?, hcanonical _ hlanguage, Registry.named?]
    refine find?_of_nodup ?_ (List.mem_reverse.mpr hprofile)
    rw [List.map_reverse, List.nodup_reverse, hnames]
    decide
  have hsame := hloads profile hprofile
  rw [hload, Except.ok.injEq] at hsame
  refine ⟨file, profile, hread, hfound, rfl, ?_, ?_⟩
  · rw [← hsame]
  · rw [← hsame]

end CodeOutline
