/-
  CodeOutline/Proofs/Coverage/Coalesce.lean
  =========================================
  **Joining ranges changes no decision.**

  Both passes write one range after the other, each from where the last one ended, and leave it to
  `Range.coalesce` to drop the empty ones and to join neighbours of one decision.  Which bytes are
  kept stays the same (`keptIn_coalesce`), the ranges still follow each other (`adjoin_coalesce`),
  and every range lies inside one of its own decision (`exists_coalesce_over`).

  Where no range is empty, what comes out is one range for each longest run of equal decisions
  (`coalesce_eq_joinRuns`).
-/
import CodeOutline.Coverage.Range
import CodeOutline.Proofs.Runs

namespace CodeOutline

/-! ### What a list of ranges says -/

/-- Whether the byte at offset `i` lies in a kept range. -/
def KeptIn (ranges : List Range) (i : Int) : Prop :=
  ∃ r ∈ ranges, r.keep = true ∧ r.start ≤ i ∧ i < r.stop

instance (ranges : List Range) : DecidablePred (KeptIn ranges) :=
  fun i => inferInstanceAs (Decidable (∃ r ∈ ranges, r.keep = true ∧ r.start ≤ i ∧ i < r.stop))

@[simp] theorem keptIn_nil (i : Int) : ¬ KeptIn [] i := by
  simp [KeptIn]

theorem keptIn_cons (r : Range) (later : List Range) (i : Int) :
    KeptIn (r :: later) i ↔ (r.keep = true ∧ r.start ≤ i ∧ i < r.stop) ∨ KeptIn later i := by
  simp [KeptIn]

/-- The ranges follow each other from `start` up to `stop`. -/
def Adjoin (start stop : Int) : List Range → Prop
  | [] => start = stop
  | r :: later => r.start = start ∧ start ≤ r.stop ∧ Adjoin r.stop stop later

theorem start_le_of_adjoin {ranges : List Range} {start stop : Int}
    (hadjoin : Adjoin start stop ranges) : ∀ r ∈ ranges, start ≤ r.start := by
  induction ranges generalizing start with
  | nil => simp
  | cons r later ih =>
    obtain ⟨rfl, hle, hlater⟩ := hadjoin
    intro other hother
    rcases List.mem_cons.mp hother with rfl | hother
    · exact Int.le_refl _
    · exact Int.le_trans hle (ih hlater other hother)

theorem pairwise_of_adjoin {ranges : List Range} {start stop : Int}
    (hadjoin : Adjoin start stop ranges) :
    ranges.Pairwise fun a b => a.start ≤ b.start ∧ a.stop ≤ b.start := by
  induction ranges generalizing start with
  | nil => exact List.Pairwise.nil
  | cons r later ih =>
    obtain ⟨rfl, hle, hlater⟩ := hadjoin
    refine List.pairwise_cons.mpr ⟨fun other hother => ?_, ih hlater⟩
    have hafter := start_le_of_adjoin hlater other hother
    exact ⟨Int.le_trans hle hafter, hafter⟩

theorem eq_of_adjoin {ranges : List Range} {start stop i : Int}
    (hadjoin : Adjoin start stop ranges) {a b : Range} (ha : a ∈ ranges) (hb : b ∈ ranges)
    (hai : a.start ≤ i ∧ i < a.stop) (hbi : b.start ≤ i ∧ i < b.stop) : a = b := by
  induction ranges generalizing start with
  | nil => simp at ha
  | cons r later ih =>
    have hafter := start_le_of_adjoin hadjoin.2.2
    rcases List.mem_cons.mp ha with rfl | halater <;>
      rcases List.mem_cons.mp hb with rfl | hblater
    · rfl
    · have := hafter b hblater
      omega
    · have := hafter a halater
      omega
    · exact ih hadjoin.2.2 halater hblater

theorem adjoin_append_iff {earlier later : List Range} {start stop : Int} :
    Adjoin start stop (earlier ++ later) ↔
      ∃ between, Adjoin start between earlier ∧ Adjoin between stop later := by
  induction earlier generalizing start with
  | nil => simp [Adjoin]
  | cons r earlier ih =>
    rw [List.cons_append, Adjoin, ih]
    constructor
    · rintro ⟨hstart, hle, between, hearlier, hlater⟩
      exact ⟨between, ⟨hstart, hle, hearlier⟩, hlater⟩
    · rintro ⟨between, ⟨hstart, hle, hearlier⟩, hlater⟩
      exact ⟨hstart, hle, between, hearlier, hlater⟩

/-! ### Joining -/

theorem nonempty_of_mem_coalesce (ranges : List Range) :
    ∀ r ∈ Range.coalesce ranges, r.start < r.stop := by
  induction ranges with
  | nil => simp [Range.coalesce]
  | cons r later ih =>
    rw [Range.coalesce]
    split
    · exact ih
    · rename_i hfull
      intro other hother
      split at hother
      · simp only [List.mem_singleton] at hother
        subst hother
        omega
      · rename_i next rest hnext
        have hnextFull := ih next (by simp [hnext])
        split at hother
        · rename_i hjoin
          rcases List.mem_cons.mp hother with rfl | hother
          · show r.start < next.stop
            omega
          · exact ih other (by simp [hnext, hother])
        · rcases List.mem_cons.mp hother with rfl | hother
          · omega
          · exact ih other (by simpa [hnext] using hother)

theorem keptIn_coalesce (ranges : List Range) (i : Int) :
    KeptIn (Range.coalesce ranges) i ↔ KeptIn ranges i := by
  induction ranges with
  | nil => rfl
  | cons r later ih =>
    rw [Range.coalesce, keptIn_cons, ← ih]
    split
    · -- an empty range holds no byte
      have hempty : ¬ (r.start ≤ i ∧ i < r.stop) := by omega
      simp [hempty]
    · rename_i hfull
      split
      · rename_i hnil
        simp [hnil, keptIn_cons]
      · rename_i next rest hnext
        have hnextFull := nonempty_of_mem_coalesce later next (by simp [hnext])
        rw [hnext, keptIn_cons]
        split
        · rename_i hjoin
          obtain ⟨hkeep, hmeet⟩ := hjoin
          rw [keptIn_cons, ← or_assoc, hkeep]
          refine or_congr_left ?_
          rw [← and_or_left]
          refine and_congr_right fun _ => ?_
          show r.start ≤ i ∧ i < next.stop ↔ _
          omega
        · rw [keptIn_cons, keptIn_cons]

theorem adjoin_coalesce {ranges : List Range} {start stop : Int}
    (hadjoin : Adjoin start stop ranges) : Adjoin start stop (Range.coalesce ranges) := by
  induction ranges generalizing start with
  | nil => exact hadjoin
  | cons r later ih =>
    obtain ⟨rfl, hle, hlater⟩ := hadjoin
    have hrest := ih hlater
    rw [Range.coalesce]
    split
    · have hempty : r.start = r.stop := by omega
      rwa [hempty]
    · split
      · rename_i hnil
        rw [hnil] at hrest
        exact ⟨rfl, hle, hrest⟩
      · rename_i next rest hnext
        rw [hnext] at hrest
        split
        · obtain ⟨-, hnextLe, hafter⟩ := hrest
          exact ⟨rfl, Int.le_trans hle hnextLe, hafter⟩
        · exact ⟨rfl, hle, hrest⟩

theorem exists_coalesce_over {ranges : List Range} {r : Range} (hr : r ∈ ranges)
    (hfull : r.start < r.stop) :
    ∃ whole ∈ Range.coalesce ranges,
      whole.keep = r.keep ∧ whole.start ≤ r.start ∧ r.stop ≤ whole.stop := by
  induction ranges with
  | nil => simp at hr
  | cons first later ih =>
    rw [Range.coalesce]
    rcases List.mem_cons.mp hr with rfl | hr
    · rw [if_neg (by omega)]
      split
      · exact ⟨r, by simp, rfl, Int.le_refl _, Int.le_refl _⟩
      · rename_i next rest hnext
        have hnextFull := nonempty_of_mem_coalesce later next (by simp [hnext])
        split
        · refine ⟨⟨r.start, next.stop, r.keep⟩, by simp, rfl, Int.le_refl _, ?_⟩
          show r.stop ≤ next.stop
          omega
        · exact ⟨r, by simp, rfl, Int.le_refl _, Int.le_refl _⟩
    · obtain ⟨whole, hwhole, hkeep, hstart, hstop⟩ := ih hr
      split
      · exact ⟨whole, hwhole, hkeep, hstart, hstop⟩
      · split
        · rename_i hnil
          simp [hnil] at hwhole
        · rename_i next rest hnext
          rw [hnext] at hwhole
          split
          · rename_i hjoin
            rcases List.mem_cons.mp hwhole with rfl | hwhole
            · refine ⟨⟨first.start, whole.stop, first.keep⟩, by simp, hjoin.1.trans hkeep, ?_,
                hstop⟩
              show first.start ≤ r.start
              omega
            · exact ⟨whole, by simp [hwhole], hkeep, hstart, hstop⟩
          · exact ⟨whole, List.mem_cons_of_mem _ hwhole, hkeep, hstart, hstop⟩

/-! ### Runs of equal decisions -/

/-- The range over a run of ranges that follow each other. -/
def Range.overRun : List Range → Option Range
  | [] => none
  | first :: later => some ⟨first.start, ((first :: later).getLast (by simp)).stop, first.keep⟩

/-- One range for each longest run of ranges with one decision. -/
def joinRuns (ranges : List Range) : List Range :=
  (ranges.splitBy fun a b => a.keep == b.keep).filterMap Range.overRun

theorem stop_getLast_of_adjoin {ranges : List Range} {start stop : Int}
    (hadjoin : Adjoin start stop ranges) (hnonempty : ranges ≠ []) :
    (ranges.getLast hnonempty).stop = stop := by
  induction ranges generalizing start with
  | nil => exact absurd rfl hnonempty
  | cons r later ih =>
    cases later with
    | nil => exact hadjoin.2.2
    | cons next later => exact ih hadjoin.2.2 (List.cons_ne_nil _ _)

theorem overRun_of_adjoin {ranges : List Range} {start stop : Int} {keep : Bool}
    (hadjoin : Adjoin start stop ranges) (hnonempty : ranges ≠ [])
    (hkeep : ∀ r ∈ ranges, r.keep = keep) : Range.overRun ranges = some ⟨start, stop, keep⟩ := by
  cases ranges with
  | nil => exact absurd rfl hnonempty
  | cons first later =>
    rw [Range.overRun, stop_getLast_of_adjoin hadjoin, hadjoin.1, hkeep first List.mem_cons_self]

/-- Ranges that follow each other, none of them empty, are joined run by run. -/
theorem coalesce_eq_joinRuns {ranges : List Range} {start stop : Int}
    (hadjoin : Adjoin start stop ranges) (hfull : ∀ r ∈ ranges, r.start < r.stop) :
    Range.coalesce ranges = joinRuns ranges := by
  induction ranges generalizing start with
  | nil => rfl
  | cons r later ih =>
    obtain ⟨rfl, hle, hlater⟩ := hadjoin
    have hrest := ih hlater fun other hother => hfull other (List.mem_cons_of_mem _ hother)
    have hnonempty : ¬ r.stop ≤ r.start := Int.not_le.mpr (hfull r List.mem_cons_self)
    rw [Range.coalesce, if_neg hnonempty, hrest]
    cases later with
    | nil => simp [joinRuns, Range.overRun, List.splitBy, List.splitBy.loop]
    | cons next rest =>
      obtain ⟨run, runs, hsplit⟩ :=
        exists_splitBy_cons (fun a b : Range => a.keep == b.keep) next rest
      have hmeet : r.stop = next.start := hlater.1.symm
      unfold joinRuns
      rw [splitBy_cons_cons _ hsplit, hsplit]
      by_cases hkeep : r.keep = next.keep
      · simp [hkeep, hmeet, Range.overRun]
      · simp [hkeep, Range.overRun]

end CodeOutline
