/-
  CodeOutline/Proofs/Languages/Views.lean
  =======================================
  **How the views of a registry go together, whatever profiles it is given.**

  A registry shows its profiles as a list, by name and by extension.  The list and the lookup by
  name are made of the same profiles, those that are the last of their name (`mem_toList_iff`,
  `get?_eq_some_iff_latest`).  The lookup by extension goes through all profiles, so it may still
  find one that another has replaced, and names are looked up in their canonical form only.
  `views_cohere` says what holds of every registry, and that the views are coherent exactly when
  all names are canonical and no replaced profile is found by an extension.
-/
import CodeOutline.Proofs.Languages.Lookup

namespace CodeOutline

namespace Registry

/-- No profile given after this one has its name. -/
def Latest (registry : Registry) (profile : Profile) : Prop :=
  ∃ earlier later, registry.profiles = earlier ++ profile :: later ∧
    ∀ other ∈ later, other.name ≠ profile.name

/-- Every name that the registry lists finds a profile of that name, and every profile that a path
finds is listed and is found by its name. -/
structure IsCoherent (registry : Registry) : Prop where
  names : ∀ name ∈ registry.languages, registry.contains name = true ∧
    ∃ profile, registry.get? name = some profile ∧ profile.name = name
  paths : ∀ path profile, registry.resolve? path = some profile →
    profile ∈ registry.toList ∧ registry.get? profile.name = some profile

variable {registry : Registry} {name : String} {profile : Profile}

/-! ### Profiles by name -/

theorem mem_of_latest (hlatest : registry.Latest profile) : profile ∈ registry.profiles := by
  obtain ⟨earlier, later, hprofiles, -⟩ := hlatest
  simp [hprofiles]

theorem named?_eq_some_iff :
    registry.named? name = some profile ↔ registry.Latest profile ∧ profile.name = name := by
  rw [named?, List.find?_eq_some_iff_append]
  constructor
  · rintro ⟨hname, later, earlier, hprofiles, hlater⟩
    rw [beq_iff_eq] at hname
    refine ⟨⟨earlier.reverse, later.reverse, ?_, ?_⟩, hname⟩
    · rw [← List.reverse_reverse registry.profiles, hprofiles]
      simp
    · intro other hother
      simpa [hname] using hlater other (List.mem_reverse.mp hother)
  · rintro ⟨⟨earlier, later, hprofiles, hlater⟩, rfl⟩
    refine ⟨beq_self_eq_true _, later.reverse, earlier.reverse, ?_, ?_⟩
    · simp [hprofiles]
    · intro other hother
      simpa using hlater other (List.mem_reverse.mp hother)

theorem mem_languages_iff :
    name ∈ registry.languages ↔ ∃ profile ∈ registry.profiles, profile.name = name := by
  rw [languages, Text.sortedNames, Text.sortNames, List.mem_mergeSort, List.mem_eraseDups,
    List.mem_map]

theorem exists_named?_iff :
    (∃ profile, registry.named? name = some profile) ↔ name ∈ registry.languages := by
  rw [mem_languages_iff, ← Option.isSome_iff_exists, named?, List.find?_isSome]
  simp

theorem mem_toList_iff : profile ∈ registry.toList ↔ registry.Latest profile := by
  rw [toList, List.mem_filterMap]
  constructor
  · rintro ⟨name, -, hnamed⟩
    exact (named?_eq_some_iff.mp hnamed).1
  · intro hlatest
    exact ⟨profile.name, mem_languages_iff.mpr ⟨profile, mem_of_latest hlatest, rfl⟩,
      named?_eq_some_iff.mpr ⟨hlatest, rfl⟩⟩

/-- The list has one profile for each name. -/
theorem map_name_toList (registry : Registry) :
    registry.toList.map Profile.name = registry.languages := by
  have hnames : ∀ name ∈ registry.languages,
      (registry.named? name).map Profile.name = some name := by
    intro name hname
    obtain ⟨profile, hnamed⟩ := exists_named?_iff.mpr hname
    rw [hnamed, Option.map_some, (named?_eq_some_iff.mp hnamed).2]
  rw [toList, List.map_filterMap, List.filterMap_congr hnames, List.filterMap_some]

theorem get?_eq_some_iff_latest :
    registry.get? name = some profile ↔
      registry.Latest profile ∧ profile.name = canonicalName name :=
  named?_eq_some_iff

theorem contains_iff : registry.contains name = true ↔ canonicalName name ∈ registry.languages := by
  rw [contains, Option.isSome_iff_exists, get?, exists_named?_iff]

theorem exists_get?_of_canonical (hname : name ∈ registry.languages)
    (hcanonical : canonicalName name = name) :
    ∃ profile, registry.get? name = some profile ∧ profile.name = name := by
  obtain ⟨profile, hnamed⟩ := exists_named?_iff.mpr hname
  refine ⟨profile, ?_, (named?_eq_some_iff.mp hnamed).2⟩
  rw [get?, hcanonical, hnamed]

/-! ### Profiles by extension -/

theorem mem_of_resolve? {path : String} (hresolve : registry.resolve? path = some profile) :
    profile ∈ registry.profiles :=
  List.mem_reverse.mp (List.mem_of_find?_eq_some hresolve)

theorem get?_name_iff :
    registry.get? profile.name = some profile ↔
      registry.Latest profile ∧ canonicalName profile.name = profile.name := by
  rw [get?_eq_some_iff_latest, eq_comm (a := profile.name)]

theorem isCoherent_iff :
    registry.IsCoherent ↔
      (∀ profile ∈ registry.profiles, canonicalName profile.name = profile.name) ∧
        ∀ path profile, registry.resolve? path = some profile → registry.Latest profile := by
  constructor
  · intro hcoherent
    refine ⟨?_, fun path profile hresolve =>
      mem_toList_iff.mp (hcoherent.paths path profile hresolve).1⟩
    intro profile hprofile
    obtain ⟨-, found, hget, hname⟩ :=
      hcoherent.names profile.name (mem_languages_iff.mpr ⟨profile, hprofile, rfl⟩)
    rw [← (get?_eq_some_iff_latest.mp hget).2, hname]
  · rintro ⟨hcanonical, hlatest⟩
    constructor
    · intro name hname
      obtain ⟨profile, hprofile, rfl⟩ := mem_languages_iff.mp hname
      have hsame := hcanonical profile hprofile
      exact ⟨contains_iff.mpr (hsame.symm ▸ hname), exists_get?_of_canonical hname hsame⟩
    · intro path profile hresolve
      have hlast := hlatest path profile hresolve
      exact ⟨mem_toList_iff.mpr hlast,
        get?_name_iff.mpr ⟨hlast, hcanonical profile (mem_of_resolve? hresolve)⟩⟩

end Registry

/-- **What the views of a registry have in common, for every list of profiles.** -/
theorem views_cohere (registry : Registry) :
    registry.toList.map Profile.name = registry.languages ∧
      (∀ name profile, registry.get? name = some profile ↔
        profile ∈ registry.toList ∧ profile.name = canonicalName name) ∧
      (∀ name, registry.contains name = true ↔ canonicalName name ∈ registry.languages) ∧
      (∀ name ∈ registry.languages, canonicalName name = name →
        registry.contains name = true ∧
          ∃ profile, registry.get? name = some profile ∧ profile.name = name) ∧
      (∀ path profile, registry.resolve? path = some profile →
        profile ∈ registry.profiles ∧
          (profile ∈ registry.toList ↔ registry.Latest profile) ∧
          (registry.get? profile.name = some profile ↔
            registry.Latest profile ∧ canonicalName profile.name = profile.name)) ∧
      (registry.IsCoherent ↔
        (∀ profile ∈ registry.profiles, canonicalName profile.name = profile.name) ∧
          ∀ path profile, registry.resolve? path = some profile → registry.Latest profile) := by
  refine ⟨registry.map_name_toList, ?_, fun name => Registry.contains_iff, ?_, ?_,
    Registry.isCoherent_iff⟩
  · intro name profile
    rw [Registry.get?_eq_some_iff_latest, Registry.mem_toList_iff]
  · intro name hname hcanonical
    exact ⟨Registry.contains_iff.mpr (hcanonical.symm ▸ hname),
      Registry.exists_get?_of_canonical hname hcanonical⟩
  · intro path profile hresolve
    exact ⟨Registry.mem_of_resolve? hresolve, Registry.mem_toList_iff, Registry.get?_name_iff⟩

/-- A profile that has nothing but a name and an extension. -/
def bareProfile (name extension : String) : Profile :=
  ⟨name, [extension], .unrestricted, [], true⟩

/-- Two profiles of one name. -/
def replacedRegistry : Registry :=
  ⟨[bareProfile "go" ".go", bareProfile "go" ".g"]⟩

/-- A profile whose name is not in its canonical form. -/
def capitalRegistry : Registry :=
  ⟨[bareProfile "Lua" ".LUA"]⟩

theorem resolve?_replaced :
    replacedRegistry.resolve? "a.go" = some (bareProfile "go" ".go") :=
  rfl

theorem not_latest_replaced : ¬ replacedRegistry.Latest (bareProfile "go" ".go") := by
  intro hlatest
  have hfirst : replacedRegistry.named? "go" = some (bareProfile "go" ".go") :=
    Registry.named?_eq_some_iff.mpr ⟨hlatest, rfl⟩
  have hlast : replacedRegistry.named? "go" = some (bareProfile "go" ".g") := rfl
  rw [hfirst] at hlast
  exact absurd (congrArg (Option.map Profile.extensions) hlast) (by decide)

theorem canonicalName_ne_capital : canonicalName "Lua" ≠ "Lua" := by
  decide +kernel

/-- The replaced profile is found by its extension and is not listed; the one in capitals is listed
and is not found by its name. -/
theorem views_cohere_replaced :
    "go" ∈ replacedRegistry.languages ∧ canonicalName "go" = "go" ∧
      replacedRegistry.contains "go" = true ∧
      replacedRegistry.resolve? "a.go" = some (bareProfile "go" ".go") ∧
      bareProfile "go" ".go" ∉ replacedRegistry.toList ∧
      capitalRegistry.resolve? "a.lua" = some (bareProfile "Lua" ".LUA") ∧
      bareProfile "Lua" ".LUA" ∈ capitalRegistry.toList ∧
      capitalRegistry.get? "Lua" ≠ some (bareProfile "Lua" ".LUA") := by
  obtain ⟨-, -, -, hnames, hpaths, -⟩ := views_cohere replacedRegistry
  obtain ⟨-, -, -, -, hcapitalPaths, -⟩ := views_cohere capitalRegistry
  have hgo : "go" ∈ replacedRegistry.languages :=
    Registry.mem_languages_iff.mpr ⟨bareProfile "go" ".go", List.mem_cons_self, rfl⟩
  have hcanonical : canonicalName "go" = "go" := by decide +kernel
  have hcapital : capitalRegistry.resolve? "a.lua" = some (bareProfile "Lua" ".LUA") := rfl
  obtain ⟨-, hlisted, -⟩ := hpaths _ _ resolve?_replaced
  obtain ⟨-, hcapitalListed, hcapitalFound⟩ := hcapitalPaths _ _ hcapital
  refine ⟨hgo, hcanonical, (hnames "go" hgo hcanonical).1, resolve?_replaced, ?_, hcapital, ?_, ?_⟩
  · intro hmem
    exact not_latest_replaced (hlisted.mp hmem)
  · exact hcapitalListed.mpr ⟨[], [], rfl, by simp⟩
  · intro hget
    exact canonicalName_ne_capital (hcapitalFound.mp hget).2

/-- A name in capitals is listed and not found, and a replaced profile is found and not listed. -/
theorem not_isCoherent : ¬ capitalRegistry.IsCoherent ∧ ¬ replacedRegistry.IsCoherent := by
  constructor
  · intro hcoherent
    have hcanonical := (Registry.isCoherent_iff.mp hcoherent).1 _ List.mem_cons_self
    exact canonicalName_ne_capital hcanonical
  · intro hcoherent
    have hlatest := (Registry.isCoherent_iff.mp hcoherent).2 _ _ resolve?_replaced
    exact not_latest_replaced hlatest

end CodeOutline
