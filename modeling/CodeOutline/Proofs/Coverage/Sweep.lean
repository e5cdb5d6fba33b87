/-
  CodeOutline/Proofs/Coverage/Sweep.lean
  ======================================
  **The sweep finds the rule's decision for every byte.**

  The sweep stands at one boundary after the other and carries two lists: the matches it has still
  to reach and those it has entered.  `Sweeping` is what it relies on at each boundary, `step` says
  that it still does at the next one, and `mem_active_iff` that between the two the active matches
  are exactly those that cover.  The run lemma `keptIn_sweep` follows by induction on the
  boundaries, and `keptIn_coverage` is the whole pass: clipping, sorting, sweeping and joining.
-/
import CodeOutline.Proofs.Coverage.Coalesce
import CodeOutline.Proofs.Coverage.Verdict

namespace CodeOutline

/-! ### Boundaries -/

theorem mem_insertOffset {i j : Int} {offsets : List Int} :
    j ∈ insertOffset i offsets ↔ j = i ∨ j ∈ offsets := by
  induction offsets with
  | nil => simp [insertOffset]
  | cons first later ih =>
    rw [insertOffset]
    split
    · simp
    · split
      · rename_i heq
        simp [heq]
      · simp only [List.mem_cons, ih]
        exact or_left_comm

theorem pairwise_insertOffset {i : Int} {offsets : List Int}
    (hincreasing : offsets.Pairwise (· < ·)) : (insertOffset i offsets).Pairwise (· < ·) := by
  induction offsets with
  | nil => simp [insertOffset]
  | cons first later ih =>
    obtain ⟨hfirst, hlater⟩ := List.pairwise_cons.mp hincreasing
    rw [insertOffset]
    split
    · rename_i hless
      refine List.pairwise_cons.mpr ⟨fun j hj => ?_, hincreasing⟩
      rcases List.mem_cons.mp hj with rfl | hj
      · exact hless
      · exact Int.lt_trans hless (hfirst j hj)
    · split
      · exact hincreasing
      · refine List.pairwise_cons.mpr ⟨fun j hj => ?_, ih hlater⟩
        rcases mem_insertOffset.mp hj with rfl | hj
        · omega
        · exact hfirst j hj

theorem mem_foldr_insertOffset {j : Int} {offsets : List Int} :
    j ∈ offsets.foldr insertOffset [] ↔ j ∈ offsets := by
  induction offsets with
  | nil => simp
  | cons first later ih => rw [List.foldr_cons, mem_insertOffset, ih, List.mem_cons]

theorem mem_boundaries {length j : Int} {claims : List Match} :
    j ∈ boundaries length claims ↔
      j = 0 ∨ j = length ∨ ∃ m ∈ claims, j = m.start ∨ j = m.stop := by
  rw [boundaries, mem_foldr_insertOffset]
  simp

theorem pairwise_boundaries (length : Int) (claims : List Match) :
    (boundaries length claims).Pairwise (· < ·) := by
  rw [boundaries]
  generalize 0 :: length :: claims.flatMap (fun m => [m.start, m.stop]) = offsets
  induction offsets with
  | nil => exact List.Pairwise.nil
  | cons first later ih => exact pairwise_insertOffset ih

theorem exists_boundaries_eq {length : Int} (claims : List Match) (hlength : 0 ≤ length) :
    ∃ later, boundaries length claims = 0 :: later := by
  have hzero : 0 ∈ boundaries length claims := mem_boundaries.mpr (.inl rfl)
  have hleast : ∀ j ∈ boundaries length claims, 0 ≤ j := by
    intro j hj
    rcases mem_boundaries.mp hj with rfl | rfl | ⟨m, -, rfl | rfl⟩
    · exact Int.le_refl _
    · exact hlength
    · exact m.start_nonneg
    · exact Int.le_trans m.start_nonneg m.start_le_stop
  have hincreasing := pairwise_boundaries length claims
  cases hall : boundaries length claims with
  | nil => simp [hall] at hzero
  | cons first later =>
    rw [hall] at hzero hleast hincreasing
    have hfirst := hleast first List.mem_cons_self
    rcases List.mem_cons.mp hzero with rfl | hlater
    · exact ⟨later, rfl⟩
    · have := (List.pairwise_cons.mp hincreasing).1 0 hlater
      omega

/-! ### The sweep -/

/-- What holds when the sweep stands at the offset `start`: the boundaries from there on hold both
ends of every waiting match and the far end of every active one. -/
structure Sweeping (start : Int) (later : List Int) (waiting active : List Match) : Prop where
  increasing : (start :: later).Pairwise (· < ·)
  ordered : waiting.Pairwise fun a b => a.start ≤ b.start
  waiting_start : ∀ m ∈ waiting, m.start ∈ start :: later
  waiting_stop : ∀ m ∈ waiting, m.stop ∈ start :: later
  active_start : ∀ m ∈ active, m.start ≤ start
  active_stop : ∀ m ∈ active, m.stop ∈ start :: later

/-- The matches that cover the bytes after `start`, given those that covered the ones before. -/
def activeFrom (start : Int) (waiting active : List Match) : List Match :=
  (active ++ waiting.takeWhile (·.start ≤ start)).filter (start < ·.stop)

theorem sweep_cons (retain : Bool) (start stop : Int) (later : List Int)
    (waiting active : List Match) :
    sweep retain (start :: stop :: later) waiting active =
      ⟨start, stop, decideCovered retain (activeFrom start waiting active)⟩
        :: sweep retain (stop :: later) (waiting.dropWhile (·.start ≤ start))
          (activeFrom start waiting active) :=
  rfl

namespace Sweeping

variable {start stop : Int} {later : List Int} {waiting active : List Match}

theorem mem_later {j : Int} (hj : j ∈ start :: stop :: later) (hpast : start < j) :
    j ∈ stop :: later := by
  rcases List.mem_cons.mp hj with rfl | hj
  · exact absurd hpast (Int.lt_irrefl _)
  · exact hj

theorem stop_le (h : Sweeping start (stop :: later) waiting active) {j : Int}
    (hj : j ∈ stop :: later) : stop ≤ j := by
  rcases List.mem_cons.mp hj with rfl | hj
  · exact Int.le_refl _
  · have hrest := (List.pairwise_cons.mp h.increasing).2
    exact Int.le_of_lt ((List.pairwise_cons.mp hrest).1 j hj)

theorem mem_entered (h : Sweeping start later waiting active) {m : Match} :
    m ∈ waiting.takeWhile (·.start ≤ start) ↔ m ∈ waiting ∧ m.start ≤ start := by
  rw [takeWhile_eq_filter (h.ordered.imp fun hle hb => by simp at hb ⊢; omega)]
  simp

theorem mem_stillWaiting (h : Sweeping start later waiting active) {m : Match} :
    m ∈ waiting.dropWhile (·.start ≤ start) ↔ m ∈ waiting ∧ start < m.start := by
  rw [dropWhile_eq_filter (h.ordered.imp fun hle hb => by simp at hb ⊢; omega)]
  simp

theorem mem_activeFrom (h : Sweeping start later waiting active) {m : Match} :
    m ∈ activeFrom start waiting active ↔
      (m ∈ active ∨ m ∈ waiting ∧ m.start ≤ start) ∧ start < m.stop := by
  simp [activeFrom, h.mem_entered, or_and_right]

/-- Between two neighbouring boundaries the active matches are exactly those that cover. -/
theorem mem_active_iff (h : Sweeping start (stop :: later) waiting active) {i : Int}
    (hstart : start ≤ i) (hstop : i < stop) {m : Match} :
    m ∈ activeFrom start waiting active ↔ m ∈ active ++ waiting ∧ m.covers i = true := by
  rw [h.mem_activeFrom, Match.covers_iff, List.mem_append]
  constructor
  · rintro ⟨hm, hafter⟩
    have hends : m.stop ∈ start :: stop :: later ∧ m.start ≤ start := by
      rcases hm with hm | ⟨hm, hle⟩
      · exact ⟨h.active_stop m hm, h.active_start m hm⟩
      · exact ⟨h.waiting_stop m hm, hle⟩
    have hlast := h.stop_le (mem_later hends.1 hafter)
    exact ⟨hm.imp_right And.left, by omega, by omega⟩
  · rintro ⟨hm, hbefore, hafter⟩
    refine ⟨hm.imp_right fun hm => ⟨hm, ?_⟩, by omega⟩
    -- no match begins strictly between the two boundaries
    rcases List.mem_cons.mp (h.waiting_start m hm) with heq | hlater
    · omega
    · have hle := h.stop_le hlater
      omega

theorem step (h : Sweeping start (stop :: later) waiting active) :
    Sweeping stop later (waiting.dropWhile (·.start ≤ start))
      (activeFrom start waiting active) := by
  obtain ⟨hfirst, hrest⟩ := List.pairwise_cons.mp h.increasing
  have hless : start < stop := hfirst stop List.mem_cons_self
  refine ⟨hrest, h.ordered.sublist (List.dropWhile_sublist _), ?_, ?_, ?_, ?_⟩
  · intro m hm
    obtain ⟨hm, hafter⟩ := h.mem_stillWaiting.mp hm
    exact mem_later (h.waiting_start m hm) hafter
  · intro m hm
    obtain ⟨hm, hafter⟩ := h.mem_stillWaiting.mp hm
    exact mem_later (h.waiting_stop m hm) (Int.lt_of_lt_of_le hafter m.start_le_stop)
  · intro m hm
    rcases (h.mem_activeFrom.mp hm).1 with hm | ⟨-, hle⟩
    · exact Int.le_trans (h.active_start m hm) (Int.le_of_lt hless)
    · exact Int.le_trans hle (Int.le_of_lt hless)
  · intro m hm
    obtain ⟨hm, hafter⟩ := h.mem_activeFrom.mp hm
    rcases hm with hm | ⟨hm, -⟩
    · exact mem_later (h.active_stop m hm) hafter
    · exact mem_later (h.waiting_stop m hm) hafter

/-- Past the next boundary nothing is lost: a match that the step leaves out ends before it. -/
theorem mem_step_iff (h : Sweeping start (stop :: later) waiting active) {i : Int} (hi : stop ≤ i)
    {m : Match} (hcovers : m.covers i = true) :
    m ∈ activeFrom start waiting active ++ waiting.dropWhile (·.start ≤ start) ↔
      m ∈ active ++ waiting := by
  have hless : start < stop := (List.pairwise_cons.mp h.increasing).1 stop List.mem_cons_self
  have hspan := (m.covers_iff i).mp hcovers
  rw [List.mem_append, List.mem_append, h.mem_activeFrom, h.mem_stillWaiting]
  constructor
  · rintro (⟨hm | ⟨hm, -⟩, -⟩ | ⟨hm, -⟩)
    · exact .inl hm
    · exact .inr hm
    · exact .inr hm
  · rintro (hm | hm)
    · exact .inl ⟨.inl hm, by omega⟩
    · rcases Int.lt_or_le start m.start with hlt | hle
      · exact .inr ⟨hm, hlt⟩
      · exact .inl ⟨.inr ⟨hm, hle⟩, by omega⟩

end Sweeping

theorem adjoin_sweep {retain : Bool} {start : Int} {later : List Int} {waiting active : List Match}
    (hincreasing : (start :: later).Pairwise (· < ·)) :
    Adjoin start ((start :: later).getLast (by simp))
      (sweep retain (start :: later) waiting active) := by
  induction later generalizing start waiting active with
  | nil => rfl
  | cons stop later ih =>
    obtain ⟨hfirst, hrest⟩ := List.pairwise_cons.mp hincreasing
    rw [sweep_cons]
    refine ⟨rfl, Int.le_of_lt (hfirst stop List.mem_cons_self), ?_⟩
    rw [List.getLast_cons_cons]
    exact ih hrest

/-- Before the last boundary the sweep keeps the bytes that the rule keeps. -/
theorem keptIn_sweep {retain : Bool} {start : Int} {later : List Int} {waiting active : List Match}
    (h : Sweeping start later waiting active) {i : Int} (hstart : start ≤ i)
    (hlast : ∃ stop ∈ later, i < stop) :
    KeptIn (sweep retain (start :: later) waiting active) i ↔
      KeptAt retain (active ++ waiting) i := by
  induction later generalizing start waiting active with
  | nil => simp at hlast
  | cons stop later ih =>
    rw [sweep_cons, keptIn_cons]
    rcases Int.lt_or_le i stop with hbefore | hafter
    · -- the byte lies in the first range, and the other ranges begin after it
      have hlater : ¬ KeptIn (sweep retain (stop :: later) (waiting.dropWhile (·.start ≤ start))
          (activeFrom start waiting active)) i := by
        rintro ⟨r, hr, -, hle, -⟩
        have := start_le_of_adjoin (adjoin_sweep h.step.increasing) r hr
        omega
      have hcovering : ∀ m ∈ activeFrom start waiting active, m.covers i = true :=
        fun m hm => ((h.mem_active_iff hstart hbefore).mp hm).2
      have hsame : KeptAt retain (activeFrom start waiting active) i ↔
          KeptAt retain (active ++ waiting) i :=
        keptAt_congr_of_mem fun m hcovers => by
          rw [h.mem_active_iff hstart hbefore]
          exact and_iff_left hcovers
      rw [← hsame, ← decideCovered_iff hcovering]
      simp [hlater, hstart, hbefore]
    · have hpast : ∃ next ∈ later, i < next := by
        obtain ⟨next, hnext, hless⟩ := hlast
        rcases List.mem_cons.mp hnext with rfl | hnext
        · omega
        · exact ⟨next, hnext, hless⟩
      have houtside : ¬ (start ≤ i ∧ i < stop) := by omega
      have hsame : KeptAt retain (activeFrom start waiting active
          ++ waiting.dropWhile (·.start ≤ start)) i ↔ KeptAt retain (active ++ waiting) i :=
        keptAt_congr_of_mem fun m hcovers => h.mem_step_iff hafter hcovers
      rw [← hsame, ← ih h.step hafter hpast]
      simp [houtside]

/-! ### The whole pass -/

theorem mem_clipped {length : Int} {claims : List Match} {clipped : Match} :
    clipped ∈ claims.filterMap (Match.clip length) ↔
      ∃ m ∈ claims, m.start < length ∧ m.start < m.stop ∧ clipped.start = m.start ∧
        clipped.stop = min m.stop length ∧ clipped.role = m.role ∧
        clipped.priority = m.priority ∧ clipped.kind = m.kind := by
  rw [List.mem_filterMap]
  refine exists_congr fun m => and_congr_right fun _ => ?_
  rw [Match.clip]
  split
  · rename_i hinside
    cases clipped
    simp only [Option.some.injEq, Match.mk.injEq, hinside, true_and]
    grind
  · rename_i houtside
    simp only [reduceCtorEq, false_iff]
    rintro ⟨hstart, hfull, -⟩
    exact houtside ⟨hstart, hfull⟩

/-- Cutting matches off at the end of the source changes nothing inside the source. -/
theorem keptAt_clipped {retain : Bool} {length : Int} {claims : List Match} {i : Int}
    (hi : i < length) :
    KeptAt retain (claims.filterMap (Match.clip length)) i ↔ KeptAt retain claims i := by
  apply keptAt_congr
  intro priority keeps
  constructor
  · rintro ⟨clipped, hclipped, hcovers, hpriority, hkeeps⟩
    obtain ⟨m, hm, -, -, hstart, hstop, hrole, hsame, -⟩ := mem_clipped.mp hclipped
    refine ⟨m, hm, ?_, hsame ▸ hpriority, hrole ▸ hkeeps⟩
    rw [Match.covers_iff] at hcovers ⊢
    omega
  · rintro ⟨m, hm, hcovers, hpriority, hkeeps⟩
    rw [Match.covers_iff] at hcovers
    have hinside : m.start < length ∧ m.start < m.stop := by omega
    obtain ⟨clipped, hclip⟩ : ∃ clipped, m.clip length = some clipped := by
      rw [Match.clip, dif_pos hinside]
      exact ⟨_, rfl⟩
    refine ⟨clipped, List.mem_filterMap.mpr ⟨m, hm, hclip⟩, ?_⟩
    rw [Match.clip, dif_pos hinside, Option.some.injEq] at hclip
    subst hclip
    refine ⟨?_, hpriority, hkeeps⟩
    rw [Match.covers_iff]
    show m.start ≤ i ∧ i < min m.stop length
    omega

theorem pairwise_sort (claims : List Match) :
    (Match.sort claims).Pairwise fun a b => a.start ≤ b.start := by
  have htrans : ∀ a b c : Match,
      a.precedes b = true → b.precedes c = true → a.precedes c = true := by
    intro a b c
    simp only [Match.precedes, Bool.or_eq_true, Bool.and_eq_true, decide_eq_true_eq, beq_iff_eq]
    omega
  have htotal : ∀ a b : Match, (a.precedes b || b.precedes a) = true := by
    intro a b
    simp only [Match.precedes, Bool.or_eq_true, Bool.and_eq_true, decide_eq_true_eq, beq_iff_eq]
    omega
  refine (List.pairwise_mergeSort htrans htotal claims).imp fun hle => ?_
  simp only [Match.precedes, Bool.or_eq_true, Bool.and_eq_true, decide_eq_true_eq,
    beq_iff_eq] at hle
  omega

theorem sweeping_start {length : Int} {claims : List Match} {later : List Int}
    (hboundaries :
      boundaries length (Match.sort (claims.filterMap (Match.clip length))) = 0 :: later) :
    Sweeping 0 later (Match.sort (claims.filterMap (Match.clip length))) [] := by
  refine ⟨hboundaries ▸ pairwise_boundaries _ _, pairwise_sort _, ?_, ?_, by simp, by simp⟩
  · intro m hm
    exact hboundaries ▸ mem_boundaries.mpr (.inr (.inr ⟨m, hm, .inl rfl⟩))
  · intro m hm
    exact hboundaries ▸ mem_boundaries.mpr (.inr (.inr ⟨m, hm, .inr rfl⟩))

/-- **The coverage keeps exactly the bytes that the rule keeps.** -/
theorem keptIn_coverage {length : Int} {claims : List Match} {retain : Bool} {i : Int}
    (hstart : 0 ≤ i) (hstop : i < length) :
    KeptIn (coverage length claims retain) i ↔ KeptAt retain claims i := by
  obtain ⟨later, hboundaries⟩ := exists_boundaries_eq
    (Match.sort (claims.filterMap (Match.clip length)))
    (Int.le_trans hstart (Int.le_of_lt hstop))
  have hsweeping := sweeping_start hboundaries
  have hlast : length ∈ later := by
    have hmem : length ∈ (0 : Int) :: later := hboundaries ▸ mem_boundaries.mpr (.inr (.inl rfl))
    rcases List.mem_cons.mp hmem with hzero | hlater
    · omega
    · exact hlater
  rw [coverage, keptIn_coalesce, hboundaries, keptIn_sweep hsweeping hstart ⟨length, hlast, hstop⟩,
    List.nil_append]
  calc KeptAt retain (Match.sort (claims.filterMap (Match.clip length))) i
      ↔ KeptAt retain (claims.filterMap (Match.clip length)) i :=
        keptAt_congr_of_mem fun m _ => List.mem_mergeSort
    _ ↔ KeptAt retain claims i := keptAt_clipped hstop

/-- The sweep goes up to the end of the source, and no further. -/
theorem getLast_boundaries {length : Int} (hlength : 0 ≤ length) (claims : List Match)
    (hnonempty : boundaries length (Match.sort (claims.filterMap (Match.clip length))) ≠ []) :
    (boundaries length (Match.sort (claims.filterMap (Match.clip length)))).getLast hnonempty =
      length := by
  have hle : ∀ j ∈ boundaries length (Match.sort (claims.filterMap (Match.clip length))),
      j ≤ length := by
    intro j hj
    rcases mem_boundaries.mp hj with rfl | rfl | ⟨m, hm, hend⟩
    · exact hlength
    · exact Int.le_refl _
    · obtain ⟨whole, -, hstart, -, hsame, hstop, -⟩ := mem_clipped.mp (List.mem_mergeSort.mp hm)
      omega
  have hmem : length ∈ boundaries length (Match.sort (claims.filterMap (Match.clip length))) :=
    mem_boundaries.mpr (.inr (.inl rfl))
  by_contra hother
  have hbefore := List.mem_dropLast_of_mem_of_ne_getLast hmem (Ne.symm hother)
  have hless := (pairwise_boundaries _ _).rel_dropLast_getLast hbefore
  have hlast := hle _ (List.getLast_mem hnonempty)
  omega

theorem adjoin_swept {length : Int} (hlength : 0 ≤ length) (claims : List Match) (retain : Bool) :
    Adjoin 0 length (sweep retain
      (boundaries length (Match.sort (claims.filterMap (Match.clip length))))
      (Match.sort (claims.filterMap (Match.clip length))) []) := by
  obtain ⟨later, hboundaries⟩ := exists_boundaries_eq
    (Match.sort (claims.filterMap (Match.clip length))) hlength
  have hlast := getLast_boundaries hlength claims (hboundaries ▸ List.cons_ne_nil _ _)
  have hsweep : Adjoin 0 ((0 :: later).getLast (List.cons_ne_nil 0 later))
      (sweep retain (0 :: later) (Match.sort (claims.filterMap (Match.clip length))) []) :=
    adjoin_sweep (sweeping_start hboundaries).increasing
  simp only [hboundaries] at hlast
  rw [hlast] at hsweep
  rwa [hboundaries]

theorem adjoin_coverage {length : Int} (hlength : 0 ≤ length) (claims : List Match)
    (retain : Bool) : Adjoin 0 length (coverage length claims retain) :=
  adjoin_coalesce (adjoin_swept hlength claims retain)

end CodeOutline
