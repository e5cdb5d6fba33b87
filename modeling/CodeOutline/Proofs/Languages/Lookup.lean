/-
  CodeOutline/Proofs/Languages/Lookup.lean
  ========================================
  **A loaded registry finds what the tables of languages say.**

  Names and extensions are looked up twice: in the tables of this library, and in a registry, which
  knows both only from its profiles.  Loading makes a registry complete (`isComplete_of_load`): it
  has one profile for each supported language, under the extensions that the table gives it.  In a
  complete registry both ways agree for every path (`resolve?_eq_some_iff`) and for every name
  (`get?_eq_some_iff`).

  A supported language is its own name, so a file may be asked for under any name of its language
  (`compressFile_asking`), and the commands put the language itself in its place.
-/
import CodeOutline.Command.Run
import CodeOutline.Proofs.Compress.Batch
import CodeOutline.Proofs.Languages.Bundle
import CodeOutline.Proofs.Rules.Directive

namespace CodeOutline

variable {grammar? : String → Option Grammar} {directory : RuleDirectory}

/-! ### What is loaded -/

theorem mapError_eq_ok_iff {ε ε' α : Type} {x : Except ε α} {f : ε → ε'} {a : α} :
    x.mapError f = .ok a ↔ x = .ok a := by
  cases x <;> simp [Except.mapError]

theorem of_loadProfile {language : String} {profile : Profile}
    (hload : loadProfile grammar? directory language = .ok profile) :
    profile.name = language ∧ profile.extensions = extensionsOf language := by
  obtain ⟨text, -, hfile⟩ := bind_eq_ok_iff.mp hload
  obtain ⟨file, -, hprofile⟩ := bind_eq_ok_iff.mp hfile
  split at hprofile
  · split at hprofile
    · cases hprofile
    · obtain ⟨retain, -, heq⟩ := bind_eq_ok_iff.mp hprofile
      cases heq
      exact ⟨rfl, rfl⟩
  · cases hprofile

theorem of_loadProfiles {languages : List String} {profiles : List Profile}
    (hload : loadProfiles grammar? directory languages = .ok profiles) :
    profiles.map Profile.name = languages ∧
      ∀ profile ∈ profiles, profile.extensions = extensionsOf profile.name := by
  induction languages generalizing profiles with
  | nil =>
    cases hload
    exact ⟨rfl, by simp⟩
  | cons language later ih =>
    obtain ⟨profile, hprofile, hrest⟩ := bind_eq_ok_iff.mp hload
    obtain ⟨rest, hlater, heq⟩ := bind_eq_ok_iff.mp hrest
    cases heq
    obtain ⟨hname, hextensions⟩ := of_loadProfile hprofile
    obtain ⟨hnames, hall⟩ := ih hlater
    rw [List.map_cons, hname, hnames]
    exact ⟨rfl, List.forall_mem_cons.mpr ⟨hname ▸ hextensions, hall⟩⟩

/-- The registry has a profile for each supported language, under the extensions of the language. -/
structure Registry.IsComplete (registry : Registry) : Prop where
  names : registry.profiles.map Profile.name = supportedLanguages
  extensions : ∀ profile ∈ registry.profiles, profile.extensions = extensionsOf profile.name

theorem isComplete_of_load {registry : Registry}
    (hload : loadRegistry grammar? directory = .ok registry) : registry.IsComplete := by
  rw [loadRegistry] at hload
  split at hload
  · cases hload
  · cases hprofiles : loadProfiles grammar? directory supportedLanguages with
    | error fault =>
      rw [hprofiles] at hload
      cases hload
    | ok profiles =>
      rw [hprofiles] at hload
      cases hload
      exact ⟨(of_loadProfiles hprofiles).1, (of_loadProfiles hprofiles).2⟩

/-! ### The tables -/

theorem nodup_supportedLanguages : supportedLanguages.Nodup := by
  decide

theorem nodup_languageExtensions : (languageExtensions.map Prod.fst).Nodup := by
  decide

theorem lower_of_mem_languageExtensions :
    ∀ entry ∈ languageExtensions, String.ofList (Text.lower entry.1.toList) = entry.1 := by
  decide +kernel

theorem supported_of_mem_languageExtensions :
    ∀ entry ∈ languageExtensions, entry.2 ∈ supportedLanguages := by
  decide

theorem canonicalName_of_supported :
    ∀ language ∈ supportedLanguages, canonicalName language = language := by
  decide +kernel

theorem detectLanguage_eq_some_iff {path language : String} :
    detectLanguage path = some language ↔
      (FilePath.extensionOf path, language) ∈ languageExtensions := by
  rw [detectLanguage, Option.map_eq_some_iff]
  constructor
  · rintro ⟨⟨extension, found⟩, hfind, rfl⟩
    have hkey := List.find?_some hfind
    rw [beq_iff_eq] at hkey
    rw [← hkey]
    exact List.mem_of_find?_eq_some hfind
  · intro hentry
    exact ⟨_, find?_of_nodup nodup_languageExtensions hentry, rfl⟩

theorem normalizeLanguage_eq_ok_iff {name language : String} :
    normalizeLanguage name = .ok language ↔
      canonicalName name = language ∧ language ∈ supportedLanguages := by
  rw [normalizeLanguage]
  split
  · rename_i hsupported
    rw [List.contains_iff_mem] at hsupported
    constructor
    · intro heq
      cases heq
      exact ⟨rfl, hsupported⟩
    · rintro ⟨rfl, -⟩
      rfl
  · rename_i hunknown
    rw [List.contains_iff_mem] at hunknown
    simp only [reduceCtorEq, false_iff]
    rintro ⟨rfl, hsupported⟩
    exact hunknown hsupported

theorem normalizeLanguage_eq_error_iff {name : String} :
    (∃ fault, normalizeLanguage name = .error fault) ↔ canonicalName name ∉ supportedLanguages := by
  cases hname : normalizeLanguage name with
  | ok language =>
    obtain ⟨rfl, hsupported⟩ := normalizeLanguage_eq_ok_iff.mp hname
    simp [hsupported]
  | error fault =>
    simp only [Except.error.injEq, exists_eq', true_iff]
    intro hsupported
    rw [normalizeLanguage_eq_ok_iff.mpr ⟨rfl, hsupported⟩] at hname
    cases hname

/-- A language that a name stands for is its own name. -/
theorem normalizeLanguage_idem {name language : String}
    (hname : normalizeLanguage name = .ok language) :
    normalizeLanguage language = .ok language := by
  obtain ⟨-, hsupported⟩ := normalizeLanguage_eq_ok_iff.mp hname
  exact normalizeLanguage_eq_ok_iff.mpr ⟨canonicalName_of_supported _ hsupported, hsupported⟩

theorem ne_empty_of_normalizeLanguage {name language : String}
    (hname : normalizeLanguage name = .ok language) : name ≠ "" := by
  rintro rfl
  have hfault : canonicalName "" ∉ supportedLanguages := by decide +kernel
  obtain ⟨heq, hsupported⟩ := normalizeLanguage_eq_ok_iff.mp hname
  exact hfault (heq ▸ hsupported)

/-! ### Lookups in a complete registry -/

/-- Where at most one element is of a kind, the last one of that kind is that element. -/
theorem find?_reverse_eq_some_iff {α : Type} {kind : α → Bool} {l : List α}
    (hunique : ∀ a ∈ l, ∀ b ∈ l, kind a = true → kind b = true → a = b) {a : α} :
    l.reverse.find? kind = some a ↔ a ∈ l ∧ kind a = true := by
  constructor
  · intro hfind
    exact ⟨List.mem_reverse.mp (List.mem_of_find?_eq_some hfind), List.find?_some hfind⟩
  · rintro ⟨ha, hkind⟩
    cases hfind : l.reverse.find? kind with
    | none =>
      have hnone := List.find?_eq_none.mp hfind a (List.mem_reverse.mpr ha)
      exact absurd hkind hnone
    | some b =>
      have hb := List.mem_reverse.mp (List.mem_of_find?_eq_some hfind)
      rw [hunique a ha b hb hkind (List.find?_some hfind)]

namespace Registry.IsComplete

variable {registry : Registry} (h : registry.IsComplete)

include h

theorem eq_of_name {a b : Profile} (ha : a ∈ registry.profiles) (hb : b ∈ registry.profiles)
    (hname : a.name = b.name) : a = b := by
  have hnodup : (registry.profiles.map Profile.name).Nodup := h.names ▸ nodup_supportedLanguages
  exact List.inj_on_of_nodup_map hnodup ha hb hname

theorem exists_profile {language : String} (hlanguage : language ∈ supportedLanguages) :
    ∃ profile ∈ registry.profiles, profile.name = language :=
  List.mem_map.mp (h.names ▸ hlanguage)

theorem name_mem {profile : Profile} (hprofile : profile ∈ registry.profiles) :
    profile.name ∈ supportedLanguages :=
  h.names ▸ List.mem_map_of_mem hprofile

theorem lists_iff {profile : Profile} (hprofile : profile ∈ registry.profiles)
    {extension : String} :
    profile.lists extension = true ↔ (extension, profile.name) ∈ languageExtensions := by
  rw [Profile.lists, h.extensions profile hprofile, extensionsOf, List.any_eq_true]
  constructor
  · rintro ⟨own, hown, hlower⟩
    obtain ⟨⟨key, language⟩, hentry, rfl⟩ := List.mem_map.mp hown
    obtain ⟨hmem, hlanguage⟩ := List.mem_filter.mp hentry
    rw [beq_iff_eq] at hlower hlanguage
    rw [← hlower, lower_of_mem_languageExtensions _ hmem, ← hlanguage]
    exact hmem
  · intro hentry
    refine ⟨extension,
      List.mem_map.mpr ⟨_, List.mem_filter.mpr ⟨hentry, beq_self_eq_true _⟩, rfl⟩, ?_⟩
    rw [beq_iff_eq]
    exact lower_of_mem_languageExtensions _ hentry

theorem resolve?_eq_some_iff {path : String} {profile : Profile} :
    registry.resolve? path = some profile ↔
      profile ∈ registry.profiles ∧ detectLanguage path = some profile.name := by
  rw [Registry.resolve?, find?_reverse_eq_some_iff]
  · refine and_congr_right fun hprofile => ?_
    rw [h.lists_iff hprofile, detectLanguage_eq_some_iff]
  · intro a ha b hb haLists hbLists
    rw [h.lists_iff ha, ← detectLanguage_eq_some_iff] at haLists
    rw [h.lists_iff hb, ← detectLanguage_eq_some_iff, haLists, Option.some.injEq] at hbLists
    exact h.eq_of_name ha hb hbLists

theorem resolve?_eq_none_iff {path : String} :
    registry.resolve? path = none ↔ detectLanguage path = none := by
  constructor
  · intro hnone
    rw [Option.eq_none_iff_forall_ne_some]
    intro language hlanguage
    have hsupported :=
      supported_of_mem_languageExtensions _ (detectLanguage_eq_some_iff.mp hlanguage)
    obtain ⟨profile, hprofile, rfl⟩ := h.exists_profile hsupported
    rw [h.resolve?_eq_some_iff.mpr ⟨hprofile, hlanguage⟩] at hnone
    cases hnone
  · intro hnone
    rw [Option.eq_none_iff_forall_ne_some]
    intro profile hprofile
    have hlanguage := (h.resolve?_eq_some_iff.mp hprofile).2
    rw [hnone] at hlanguage
    cases hlanguage

theorem get?_eq_some_iff {name : String} {profile : Profile} :
    registry.get? name = some profile ↔
      profile ∈ registry.profiles ∧ normalizeLanguage name = .ok profile.name := by
  rw [Registry.get?, Registry.named?, find?_reverse_eq_some_iff]
  · refine and_congr_right fun hprofile => ?_
    rw [beq_iff_eq, normalizeLanguage_eq_ok_iff, and_iff_left (h.name_mem hprofile), eq_comm]
  · intro a ha b hb haName hbName
    rw [beq_iff_eq] at haName hbName
    exact h.eq_of_name ha hb (haName.trans hbName.symm)

theorem get?_eq_none_iff {name : String} :
    registry.get? name = none ↔ ∃ fault, normalizeLanguage name = .error fault := by
  rw [normalizeLanguage_eq_error_iff]
  constructor
  · intro hnone hsupported
    obtain ⟨profile, hprofile, hname⟩ := h.exists_profile hsupported
    have hnormalize := normalizeLanguage_eq_ok_iff.mpr ⟨hname.symm, hname ▸ hsupported⟩
    rw [h.get?_eq_some_iff.mpr ⟨hprofile, hnormalize⟩] at hnone
    cases hnone
  · intro hunknown
    rw [Option.eq_none_iff_forall_ne_some]
    intro profile hprofile
    obtain ⟨hname, hsupported⟩ := normalizeLanguage_eq_ok_iff.mp (h.get?_eq_some_iff.mp hprofile).2
    exact hunknown (hname ▸ hsupported)

end Registry.IsComplete

/-! ### Files that are asked for by a name -/

/-- The file, asked for under a name of its language. -/
def SourceFile.asking (file : SourceFile) (name : String) : SourceFile :=
  { file with language := some name }

theorem selectProfile_asking {registry : Registry} {file : SourceFile} {name : String}
    {profile : Profile} (hname : name ≠ "") (hget : registry.get? name = some profile) :
    (file.asking name).selectProfile registry = .ok profile := by
  unfold SourceFile.selectProfile SourceFile.asking
  split
  · rename_i hnone
    cases hnone
  · rename_i hempty
    exact absurd (Option.some.inj hempty) hname
  · rename_i language _ hlanguage
    obtain rfl := Option.some.inj hlanguage
    rw [hget]

/-- The name under which a file is asked for only matters for the profile that it selects. -/
theorem compressFile_congr_of_asking {registry : Registry} {settings : Settings} {file : SourceFile}
    {name other : String} {profile : Profile}
    (hname : (file.asking name).selectProfile registry = .ok profile)
    (hother : (file.asking other).selectProfile registry = .ok profile) :
    compressFile (file.asking name) registry settings =
      compressFile (file.asking other) registry settings := by
  rw [compressFile, compressFile, tryCompress, tryCompress, hname, hother]
  rfl

theorem compressFile_asking {registry : Registry} (h : registry.IsComplete) {name language : String}
    (hname : normalizeLanguage name = .ok language) (file : SourceFile) (settings : Settings) :
    compressFile (file.asking name) registry settings =
      compressFile (file.asking language) registry settings := by
  have hsame := normalizeLanguage_idem hname
  obtain ⟨profile, hprofile, rfl⟩ := h.exists_profile (normalizeLanguage_eq_ok_iff.mp hname).2
  exact compressFile_congr_of_asking
    (selectProfile_asking (ne_empty_of_normalizeLanguage hname)
      (h.get?_eq_some_iff.mpr ⟨hprofile, hname⟩))
    (selectProfile_asking (ne_empty_of_normalizeLanguage hsame)
      (h.get?_eq_some_iff.mpr ⟨hprofile, hsame⟩))

/-! ### Commands -/

theorem language_of_readSource {w : Workspace} {language : Option String} {arg : String}
    {file : SourceFile} (hread : readSource w language arg = .ok file) :
    file.language = language := by
  obtain ⟨stored, -, htext⟩ := bind_eq_ok_iff.mp hread
  obtain ⟨text, -, heq⟩ := bind_eq_ok_iff.mp htext
  cases heq
  rfl

theorem language_of_mem_readSources {w : Workspace} {language : Option String} {args : List String}
    {files : List SourceFile} (hread : readSources w language args = .ok files) :
    ∀ file ∈ files, file.language = language := by
  induction args generalizing files with
  | nil =>
    cases hread
    simp
  | cons arg later ih =>
    obtain ⟨file, hfile, hrest⟩ := bind_eq_ok_iff.mp hread
    obtain ⟨rest, hlater, heq⟩ := bind_eq_ok_iff.mp hrest
    cases heq
    exact List.forall_mem_cons.mpr ⟨language_of_readSource hfile, ih hlater⟩

theorem readLanguage_eq_ok_iff {name : String} {asked : Option String} :
    readLanguage (some name) = .ok asked ↔
      ∃ language, normalizeLanguage name = .ok language ∧ asked = some language := by
  rw [readLanguage, mapError_eq_ok_iff]
  cases normalizeLanguage name with
  | error fault => simp [Except.map]
  | ok language => simp [Except.map, eq_comm]

/-- The job of a command that is told the language by a name. -/
inductive Prepared (m : Machine) (w : Workspace) (name : String) (job : Job) : Prop where
  | compress (o : CompressOptions) (hlanguage : o.language = some name)
      (hprepare : o.prepare m w = .ok job)
  | explain (arg : String) (hprepare : prepareExplain m w arg (some name) = .ok job)

/-- A command asks for its files under the language that the name stands for. -/
theorem exists_language_of_prepared {m : Machine} {w : Workspace} {name : String} {job : Job}
    (hprepared : Prepared m w name job) :
    ∃ language, normalizeLanguage name = .ok language ∧
      ∀ file ∈ job.files, file.language = some language := by
  cases hprepared with
  | compress o hlanguage hprepare =>
    obtain ⟨asked, hasked, hrest⟩ := bind_eq_ok_iff.mp hprepare
    obtain ⟨settings, -, hfiles⟩ := bind_eq_ok_iff.mp hrest
    obtain ⟨files, hread, heq⟩ := bind_eq_ok_iff.mp hfiles
    cases heq
    rw [hlanguage] at hasked
    obtain ⟨language, hname, rfl⟩ := readLanguage_eq_ok_iff.mp hasked
    exact ⟨language, hname, language_of_mem_readSources hread⟩
  | explain arg hprepare =>
    obtain ⟨asked, hasked, hrest⟩ := bind_eq_ok_iff.mp hprepare
    obtain ⟨file, hread, hsettings⟩ := bind_eq_ok_iff.mp hrest
    obtain ⟨settings, -, heq⟩ := bind_eq_ok_iff.mp hsettings
    cases heq
    obtain ⟨language, hname, rfl⟩ := readLanguage_eq_ok_iff.mp hasked
    exact ⟨language, hname, List.forall_mem_singleton.mpr (language_of_readSource hread)⟩

/-- **A loaded registry agrees with the tables of languages on every path and every name,** and
names of one language ask for the same. -/
theorem lookups_agree {registry : Registry}
    (hload : loadRegistry grammar? directory = .ok registry) :
    (∀ path profile, registry.resolve? path = some profile ↔
        profile ∈ registry.profiles ∧ detectLanguage path = some profile.name) ∧
      (∀ path, registry.resolve? path = none ↔ detectLanguage path = none) ∧
      (∀ name profile, registry.get? name = some profile ↔
        profile ∈ registry.profiles ∧ normalizeLanguage name = .ok profile.name) ∧
      (∀ name, (registry.get? name = none ↔ ∃ fault, normalizeLanguage name = .error fault) ∧
        (registry.contains name = false ↔ ∃ fault, normalizeLanguage name = .error fault)) ∧
      (∀ name language, normalizeLanguage name = .ok language →
        normalizeLanguage language = .ok language ∧
          ∀ (file : SourceFile) (settings : Settings),
            compressFile (file.asking name) registry settings =
              compressFile (file.asking language) registry settings) ∧
      ∀ (m : Machine) (w : Workspace) (name : String) (job : Job), Prepared m w name job →
        ∀ file ∈ job.files, compressFile file registry job.settings =
          compressFile (file.asking name) registry job.settings := by
  have h := isComplete_of_load hload
  refine ⟨fun path profile => h.resolve?_eq_some_iff, fun path => h.resolve?_eq_none_iff,
    fun name profile => h.get?_eq_some_iff, fun name => ⟨h.get?_eq_none_iff, ?_⟩, ?_, ?_⟩
  · rw [Registry.contains, Option.isSome_eq_false_iff, Option.isNone_iff_eq_none]
    exact h.get?_eq_none_iff
  · intro name language hname
    exact ⟨normalizeLanguage_idem hname, compressFile_asking h hname⟩
  · intro m w name job hprepared file hfile
    obtain ⟨language, hname, hlanguage⟩ := exists_language_of_prepared hprepared
    have hasked : file.asking language = file := by
      rw [SourceFile.asking, ← hlanguage file hfile]
    rw [compressFile_asking h hname, hasked]

def lonelyWorkspace : Workspace :=
  ⟨[⟨⟨[], ["a".toList]⟩, [120], .tree ⟨"translation_unit", true, [], 0, 1, []⟩⟩], []⟩

def bundledMachine : Machine :=
  ⟨Bundle.registry, [], ⟨2024, 1, 2, 3, 4, 5, 0, some 0⟩, 1⟩

/-- An extension in capitals whose K is the sign for kelvins, an alias between blanks, a name of
none, and a file that is to be explained under the alias. -/
theorem lookups_agree_foreign :
    loadRegistry supportedGrammar? Bundle.directory = .ok Bundle.registry ∧
      (∃ profile, Bundle.registry.resolve? "src/A.\u212AT" = some profile ∧
        profile.name = "kotlin") ∧
      (∃ profile, Bundle.registry.get? " C++\n" = some profile ∧ profile.name = "cpp") ∧
      Bundle.registry.contains "h" = false ∧
      ∃ job, Prepared bundledMachine lonelyWorkspace " C++\n" job ∧ ∃ file ∈ job.files,
        compressFile file Bundle.registry job.settings =
          compressFile (file.asking "cpp") Bundle.registry job.settings := by
  obtain ⟨hresolve, hunresolved, hget, hmissing, hasking, hcommands⟩ :=
    lookups_agree loadRegistry_directory
  have hpath : detectLanguage "src/A.\u212AT" = some "kotlin" := by decide +kernel
  have hname : normalizeLanguage " C++\n" = .ok "cpp" := by decide +kernel
  have hother : normalizeLanguage "h" = .error ⟨"h"⟩ := by decide +kernel
  have hprepared : Prepared bundledMachine lonelyWorkspace " C++\n" ⟨Settings.default,
      [⟨"a", "x", some "cpp", .tree ⟨"translation_unit", true, [], 0, 1, []⟩⟩]⟩ :=
    .explain "a" (bind_eq_ok_iff.mpr ⟨some "cpp",
      readLanguage_eq_ok_iff.mpr ⟨"cpp", hname, rfl⟩, rfl⟩)
  refine ⟨loadRegistry_directory, ?_, ?_, ?_, _, hprepared, _, List.mem_cons_self, ?_⟩
  · cases hfound : Bundle.registry.resolve? "src/A.\u212AT" with
    | none =>
      rw [hunresolved, hpath] at hfound
      cases hfound
    | some profile =>
      have hlanguage := ((hresolve _ _).mp hfound).2
      rw [hpath, Option.some.injEq] at hlanguage
      exact ⟨profile, rfl, hlanguage.symm⟩
  · cases hfound : Bundle.registry.get? " C++\n" with
    | none =>
      obtain ⟨fault, hfault⟩ := (hmissing _).1.mp hfound
      rw [hname] at hfault
      cases hfault
    | some profile =>
      have hlanguage := ((hget _ _).mp hfound).2
      rw [hname, Except.ok.injEq] at hlanguage
      exact ⟨profile, rfl, hlanguage.symm⟩
  · exact (hmissing "h").2.mpr ⟨_, hother⟩
  · rw [hcommands _ _ _ _ hprepared _ List.mem_cons_self, (hasking _ _ hname).2]

end CodeOutline
