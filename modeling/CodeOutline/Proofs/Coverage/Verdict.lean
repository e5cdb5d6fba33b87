/-
  CodeOutline/Proofs/Coverage/Verdict.lean
  ========================================
  **The rule for a single byte.**

  `KeptAt` says which bytes are kept, with no word on how the decision is found: among the matches
  that cover a byte the highest priority decides, and at that priority one match that asks for more
  than a body is enough.

  The rule only looks at the priorities of the covering matches and at whether they keep
  (`keptAt_congr`).  So neither the order of the matches, nor repetitions, nor what they cover
  elsewhere can reach it; the sweep changes its lists in all of these ways.
-/
import CodeOutline.Coverage.Snap

namespace CodeOutline

/-- Whether the byte at offset `i` is kept.  Where no match covers it, `retain` says so; otherwise
some match of the highest priority among those that cover it has to have another role than the
body. -/
def KeptAt (retain : Bool) (claims : List Match) (i : Int) : Prop :=
  ((∀ m ∈ claims, m.covers i = false) ∧ retain = true) ∨
    ∃ m ∈ claims, m.covers i = true ∧ m.role ≠ .body ∧
      ∀ other ∈ claims, other.covers i = true → other.priority ≤ m.priority

instance (retain : Bool) (claims : List Match) : DecidablePred (KeptAt retain claims) :=
  fun i => inferInstanceAs (Decidable (((∀ m ∈ claims, m.covers i = false) ∧ retain = true) ∨
    ∃ m ∈ claims, m.covers i = true ∧ m.role ≠ .body ∧
      ∀ other ∈ claims, other.covers i = true → other.priority ≤ m.priority))

/-! ### What the matches say of a byte -/

/-- Some match covers the byte with this priority, and keeps it or not. -/
def Votes (claims : List Match) (i priority : Int) (keeps : Bool) : Prop :=
  ∃ m ∈ claims, m.covers i = true ∧ m.priority = priority ∧ m.role.keeps = keeps

theorem keptAt_iff_votes (retain : Bool) (claims : List Match) (i : Int) :
    KeptAt retain claims i ↔
      ((∀ priority keeps, ¬ Votes claims i priority keeps) ∧ retain = true) ∨
        ∃ top, Votes claims i top true ∧
          ∀ priority keeps, Votes claims i priority keeps → priority ≤ top := by
  refine or_congr (and_congr_left fun _ => ?_) ?_
  · constructor
    · rintro hnone priority keeps ⟨m, hm, hcovers, -, -⟩
      simp [hnone m hm] at hcovers
    · intro hnone m hm
      cases hcovers : m.covers i with
      | false => rfl
      | true => exact absurd ⟨m, hm, hcovers, rfl, rfl⟩ (hnone m.priority m.role.keeps)
  · constructor
    · rintro ⟨m, hm, hcovers, hrole, htop⟩
      refine ⟨m.priority, ⟨m, hm, hcovers, rfl, m.role.keeps_iff.mpr hrole⟩, ?_⟩
      rintro priority keeps ⟨other, hother, hcovered, rfl, -⟩
      exact htop other hother hcovered
    · rintro ⟨top, ⟨m, hm, hcovers, rfl, hkeeps⟩, htop⟩
      exact ⟨m, hm, hcovers, m.role.keeps_iff.mp hkeeps, fun other hother hcovered =>
        htop _ _ ⟨other, hother, hcovered, rfl, rfl⟩⟩

/-- Matches of which the same is said at a byte decide alike there. -/
theorem keptAt_congr {retain : Bool} {as bs : List Match} {i : Int}
    (hvotes : ∀ priority keeps, Votes as i priority keeps ↔ Votes bs i priority keeps) :
    KeptAt retain as i ↔ KeptAt retain bs i := by
  simp only [keptAt_iff_votes, hvotes]

theorem keptAt_congr_of_mem {retain : Bool} {as bs : List Match} {i : Int}
    (hmem : ∀ m, m.covers i = true → (m ∈ as ↔ m ∈ bs)) :
    KeptAt retain as i ↔ KeptAt retain bs i := by
  apply keptAt_congr
  intro priority keeps
  constructor
  · rintro ⟨m, hm, hcovers, hsays⟩
    exact ⟨m, (hmem m hcovers).mp hm, hcovers, hsays⟩
  · rintro ⟨m, hm, hcovers, hsays⟩
    exact ⟨m, (hmem m hcovers).mpr hm, hcovers, hsays⟩

/-! ### Which matches are behind a decision -/

theorem exists_highest {claims : List Match} {m : Match} {i : Int} (hm : m ∈ claims)
    (hcovers : m.covers i = true) :
    ∃ top ∈ claims, top.covers i = true ∧
      ∀ other ∈ claims, other.covers i = true → other.priority ≤ top.priority := by
  have hmem : m ∈ claims.filter (·.covers i) := List.mem_filter.mpr ⟨hm, hcovers⟩
  cases hmax : ((claims.filter (·.covers i)).map Match.priority).max? with
  | none =>
    rw [List.max?_eq_none_iff, List.map_eq_nil_iff] at hmax
    rw [hmax] at hmem
    simp at hmem
  | some highest =>
    obtain ⟨hhighest, hle⟩ := List.max?_eq_some_iff.mp hmax
    obtain ⟨top, htop, rfl⟩ := List.mem_map.mp hhighest
    obtain ⟨htop, htopCovers⟩ := List.mem_filter.mp htop
    refine ⟨top, htop, htopCovers, fun other hother hcovered => ?_⟩
    exact hle _ (List.mem_map_of_mem (List.mem_filter.mpr ⟨hother, hcovered⟩))

/-- A byte that a keeping match covers is kept unless a body of higher priority covers it. -/
theorem keptAt_of_keeping {claims : List Match} {m : Match} {i : Int} (retain : Bool)
    (hm : m ∈ claims) (hrole : m.role ≠ .body) (hcovers : m.covers i = true)
    (hbodies : ∀ b ∈ claims, b.role = .body → b.covers i = true → b.priority ≤ m.priority) :
    KeptAt retain claims i := by
  obtain ⟨top, htop, htopCovers, hhighest⟩ := exists_highest hm hcovers
  by_cases htopRole : top.role = .body
  · -- then no match is above `m` either
    have hle := hbodies top htop htopRole htopCovers
    exact .inr ⟨m, hm, hcovers, hrole, fun other hother hcovered =>
      Int.le_trans (hhighest other hother hcovered) hle⟩
  · exact .inr ⟨top, htop, htopCovers, htopRole, hhighest⟩

/-- Where a byte is claimed and kept, some match keeps it that no other one is above. -/
theorem exists_keeping_of_keptAt {retain : Bool} {claims : List Match} {b : Match} {i : Int}
    (hkept : KeptAt retain claims i) (hb : b ∈ claims) (hcovers : b.covers i = true) :
    ∃ m ∈ claims, m.role ≠ .body ∧ m.covers i = true ∧ b.priority ≤ m.priority := by
  rcases hkept with ⟨hnone, -⟩ | ⟨m, hm, hmCovers, hrole, hhighest⟩
  · simp [hnone b hb] at hcovers
  · exact ⟨m, hm, hrole, hmCovers, hhighest b hb hcovers⟩

/-! ### The decision of the sweep -/

theorem decideCovered_iff {retain : Bool} {covering : List Match} {i : Int}
    (hcovering : ∀ m ∈ covering, m.covers i = true) :
    decideCovered retain covering = true ↔ KeptAt retain covering i := by
  unfold decideCovered
  cases hmax : (covering.map Match.priority).max? with
  | none =>
    have hnil : covering = [] := by simpa using hmax
    simp [hnil, KeptAt]
  | some top =>
    obtain ⟨htop, hle⟩ := List.max?_eq_some_iff.mp hmax
    obtain ⟨first, hfirst, rfl⟩ := List.mem_map.mp htop
    have hcovered : ¬ ∀ m ∈ covering, m.covers i = false := fun hnone =>
      absurd (hcovering first hfirst) (by simp [hnone first hfirst])
    simp only [List.any_eq_true, Bool.and_eq_true, beq_iff_eq, Role.keeps_iff, KeptAt, hcovered,
      false_and, false_or]
    constructor
    · rintro ⟨m, hm, hpriority, hrole⟩
      refine ⟨m, hm, hcovering m hm, hrole, fun other hother _ => ?_⟩
      rw [hpriority]
      exact hle _ (List.mem_map_of_mem hother)
    · rintro ⟨m, hm, -, hrole, hhighest⟩
      refine ⟨m, hm, ?_, hrole⟩
      have hlow := hle _ (List.mem_map_of_mem (f := Match.priority) hm)
      have hhigh := hhighest first hfirst (hcovering first hfirst)
      omega

end CodeOutline
