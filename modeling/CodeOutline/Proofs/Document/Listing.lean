/-
  CodeOutline/Proofs/Document/Listing.lean
  ========================================
  **The tree of some paths.**

  `Leads` says that names lead down a tree.  Adding a path adds just the ways along it
  (`leads_insertPath`), so the tree of some paths holds the ways along them (`leads_entriesOf`).
  Entries are kept in the order of their names (`sorted_entriesOf`), so no two in one directory
  share a name, and what stands below a way is in one place.
-/
import CodeOutline.Document.Context
import Mathlib.Data.List.Basic

namespace CodeOutline.Listing

/-! ### Ways through a tree -/

/-- Whether the names lead from the entries down to one of them. -/
def Leads : List Entry → List String → Prop
  | _, [] => True
  | entries, name :: rest => ∃ e ∈ entries, e.name = name ∧ Leads e.children rest

@[simp] theorem leads_nil (entries : List Entry) : Leads entries [] := by
  unfold Leads
  exact True.intro

theorem leads_cons_iff {entries : List Entry} {name : String} {rest : List String} :
    Leads entries (name :: rest) ↔ ∃ e ∈ entries, e.name = name ∧ Leads e.children rest := by
  rw [Leads]

theorem leads_entries_cons_iff {e : Entry} {later : List Entry} {name : String}
    {rest : List String} :
    Leads (e :: later) (name :: rest) ↔
      (e.name = name ∧ Leads e.children rest) ∨ Leads later (name :: rest) := by
  rw [leads_cons_iff, leads_cons_iff]
  simp

/-- What is added below a name is added after it. -/
theorem leads_alterName {name : String} {rest : List String} {alter : List Entry → List Entry}
    (halter : ∀ entries way, Leads (alter entries) way ↔ way <+: rest ∨ Leads entries way)
    (entries : List Entry) (way : List String) :
    Leads (alterName name alter entries) way ↔ way <+: name :: rest ∨ Leads entries way := by
  cases way with
  | nil => simp
  | cons first way =>
    have hnew : ∀ children, name = first ∧ Leads (alter children) way ↔
        first :: way <+: name :: rest ∨ name = first ∧ Leads children way := by
      intro children
      rw [halter, List.cons_prefix_cons, eq_comm (a := first)]
      exact and_or_left
    have hfresh : name = first ∧ Leads [] way → first :: way <+: name :: rest := by
      rintro ⟨rfl, hnone⟩
      cases way with
      | nil => simp
      | cons second way =>
        obtain ⟨e, he, -⟩ := leads_cons_iff.mp hnone
        cases he
    induction entries with
    | nil =>
      have hnone : ¬ Leads [] (first :: way) := by
        rw [leads_cons_iff]
        rintro ⟨e, he, -⟩
        cases he
      rw [alterName, leads_entries_cons_iff, hnew []]
      simp only [hnone, or_false, or_iff_left_iff_imp]
      exact hfresh
    | cons e later ih =>
      rw [alterName]
      split
      · rw [leads_entries_cons_iff, hnew []]
        constructor
        · rintro ((halong | hnone) | hlater)
          · exact .inl halong
          · exact .inl (hfresh hnone)
          · exact .inr hlater
        · rintro (halong | hlater)
          · exact .inl (.inl halong)
          · exact .inr hlater
      · split
        · rename_i hsame
          rw [leads_entries_cons_iff, leads_entries_cons_iff, hnew e.children, hsame, or_assoc]
        · rw [leads_entries_cons_iff, leads_entries_cons_iff]
          exact (or_congr_right ih).trans or_left_comm

/-- A path that is added adds the ways along it. -/
theorem leads_insertPath (names : List String) (entries : List Entry) (way : List String) :
    Leads (insertPath names entries) way ↔ way <+: names ∨ Leads entries way := by
  induction names generalizing entries way with
  | nil =>
    rw [insertPath, List.prefix_nil]
    constructor
    · exact .inr
    · rintro (rfl | hway)
      · exact leads_nil entries
      · exact hway
  | cons name rest ih => exact leads_alterName ih entries way

/-- Whether some path goes along these names. -/
def Along (paths : List String) (way : List String) : Prop :=
  ∃ path ∈ paths, way <+: namesOf path

theorem leads_foldl_insertPath (paths : List String) (entries : List Entry) (way : List String) :
    Leads (paths.foldl (fun entries path => insertPath (namesOf path) entries) entries) way ↔
      Along paths way ∨ Leads entries way := by
  induction paths generalizing entries with
  | nil => simp [Along]
  | cons path later ih =>
    rw [List.foldl_cons, ih, leads_insertPath, Along, Along, List.exists_mem_cons_iff, or_assoc,
      or_left_comm]

theorem leads_entriesOf {paths : List String} {way : List String} (hway : way ≠ []) :
    Leads (entriesOf paths) way ↔ Along paths way := by
  rw [entriesOf, leads_foldl_insertPath]
  cases way with
  | nil => exact absurd rfl hway
  | cons name rest => simp [leads_cons_iff]

/-! ### The order of entries -/

/-- Entries in the order of their names, in every directory. -/
inductive Sorted : List Entry → Prop where
  | nil : Sorted []
  | cons {e : Entry} {later : List Entry} (hless : ∀ other ∈ later, e.name < other.name)
      (hchildren : Sorted e.children) (hlater : Sorted later) : Sorted (e :: later)

theorem name_mem_alterName {name : String} {alter : List Entry → List Entry}
    {entries : List Entry} {e : Entry} (he : e ∈ alterName name alter entries) :
    e.name = name ∨ ∃ other ∈ entries, other.name = e.name := by
  induction entries with
  | nil =>
    rw [List.mem_singleton.mp he]
    exact .inl rfl
  | cons first later ih =>
    rw [alterName] at he
    split at he
    · rcases List.mem_cons.mp he with rfl | he
      · exact .inl rfl
      · exact .inr ⟨e, he, rfl⟩
    · split at he
      · rcases List.mem_cons.mp he with rfl | he
        · exact .inl rfl
        · exact .inr ⟨e, List.mem_cons_of_mem _ he, rfl⟩
      · rcases List.mem_cons.mp he with rfl | he
        · exact .inr ⟨e, List.mem_cons_self, rfl⟩
        · refine (ih he).imp_right ?_
          rintro ⟨other, hother, hname⟩
          exact ⟨other, List.mem_cons_of_mem _ hother, hname⟩

theorem sorted_alterName {name : String} {alter : List Entry → List Entry}
    (halter : ∀ entries, Sorted entries → Sorted (alter entries)) {entries : List Entry}
    (hsorted : Sorted entries) : Sorted (alterName name alter entries) := by
  have hnew : Sorted (alter []) := halter [] .nil
  induction hsorted with
  | nil => exact .cons (by simp) hnew .nil
  | @cons e later hless hchildren hlater _ ih =>
    rw [alterName]
    split
    · rename_i hbefore
      refine .cons (List.forall_mem_cons.mpr ⟨hbefore, fun other hother => ?_⟩) hnew
        (.cons hless hchildren hlater)
      exact String.lt_trans hbefore (hless other hother)
    · rename_i hnotBefore
      split
      · rename_i hsame
        exact .cons (hsame ▸ hless) (halter _ hchildren) hlater
      · rename_i hother
        refine .cons (fun other hmem => ?_) hchildren ih
        rcases name_mem_alterName hmem with hname | ⟨old, hold, hname⟩
        · rw [hname, ← String.not_le]
          intro hle
          exact hother (String.le_antisymm hle hnotBefore)
        · exact hname ▸ hless old hold

theorem sorted_insertPath (names : List String) {entries : List Entry} (hsorted : Sorted entries) :
    Sorted (insertPath names entries) := by
  induction names generalizing entries with
  | nil => exact hsorted
  | cons name rest ih => exact sorted_alterName (fun _ => ih) hsorted

theorem sorted_entriesOf (paths : List String) : Sorted (entriesOf paths) := by
  rw [entriesOf]
  have hsorted : Sorted [] := .nil
  generalize ([] : List Entry) = entries at hsorted ⊢
  induction paths generalizing entries with
  | nil => exact hsorted
  | cons path later ih => exact ih _ (sorted_insertPath (namesOf path) hsorted)

/-- In sorted entries a name stands for the first entry or for a later one, never for both. -/
theorem leads_sorted_cons_iff {e : Entry} {later : List Entry} {name : String} {rest : List String}
    (hless : ∀ other ∈ later, e.name < other.name) :
    Leads (e :: later) (name :: rest) ↔
      if name = e.name then Leads e.children rest else Leads later (name :: rest) := by
  rw [leads_entries_cons_iff]
  split
  · rename_i hsame
    subst hsame
    simp only [true_and, or_iff_left_iff_imp]
    intro hlater
    obtain ⟨other, hother, hname, -⟩ := leads_cons_iff.mp hlater
    exact absurd (hname ▸ hless other hother) (String.lt_irrefl _)
  · rename_i hdiffer
    simp [Ne.symm hdiffer]

theorem isEmpty_children_iff (entries : List Entry) :
    (!entries.isEmpty) = true ↔ ∃ next, Leads entries [next] := by
  cases entries with
  | nil => simp [leads_cons_iff]
  | cons e later => simp [leads_cons_iff]

end CodeOutline.Listing
