/-
  CodeOutline/Proofs/Coverage/Partition.lean
  ==========================================
  **Partitions are the run-length encodings of decisions.**

  `Partitions` says that ranges follow each other without a gap, that none is empty, and that
  neighbours decide differently.  The check accepts exactly these lists
  (`checkPartition_eq_ok_iff`), and two of them that keep the same positions are equal
  (`eq_of_partitions`).  So each way to decide the positions of a source has one list that is
  accepted, its run-length encoding `decisionRuns`.

  Joining makes a partition of whatever follows each other (`partitions_coalesce`).  Both the byte
  coverage and the line partition are joined last, so both are partitions.
-/
import CodeOutline.Proofs.Coverage.LineRule

namespace CodeOutline

/-! ### Partitions -/

/-- The ranges part the positions from `start` up to `stop`. -/
structure Partitions (start stop : Int) (ranges : List Range) : Prop where
  adjoin : Adjoin start stop ranges
  nonempty : ∀ r ∈ ranges, r.start < r.stop
  alternate : ranges.IsChain fun a b => a.keep ≠ b.keep

theorem partitions_nil_iff {start stop : Int} : Partitions start stop [] ↔ start = stop :=
  ⟨fun h => h.adjoin, fun h => ⟨h, by simp, List.IsChain.nil⟩⟩

theorem partitions_cons_iff {start stop : Int} {r : Range} {later : List Range} :
    Partitions start stop (r :: later) ↔
      r.start = start ∧ r.start < r.stop ∧ (∀ next ∈ later.head?, r.keep ≠ next.keep) ∧
        Partitions r.stop stop later := by
  constructor
  · rintro ⟨⟨hstart, -, hadjoin⟩, hfull, halternate⟩
    obtain ⟨hr, hlater⟩ := List.forall_mem_cons.mp hfull
    obtain ⟨hnext, hchain⟩ := List.isChain_cons.mp halternate
    exact ⟨hstart, hr, hnext, hadjoin, hlater, hchain⟩
  · rintro ⟨rfl, hr, hnext, hadjoin, hlater, hchain⟩
    exact ⟨⟨rfl, Int.le_of_lt hr, hadjoin⟩, List.forall_mem_cons.mpr ⟨hr, hlater⟩,
      List.isChain_cons.mpr ⟨hnext, hchain⟩⟩

theorem le_of_adjoin {start stop : Int} {ranges : List Range} (hadjoin : Adjoin start stop ranges) :
    start ≤ stop := by
  induction ranges generalizing start with
  | nil => exact Int.le_of_eq hadjoin
  | cons r later ih =>
    obtain ⟨-, hle, hlater⟩ := hadjoin
    exact Int.le_trans hle (ih hlater)

theorem exists_range_at {start stop i : Int} {ranges : List Range}
    (hadjoin : Adjoin start stop ranges) (hstart : start ≤ i) (hstop : i < stop) :
    ∃ r ∈ ranges, r.start ≤ i ∧ i < r.stop := by
  induction ranges generalizing start with
  | nil =>
    have hempty : start = stop := hadjoin
    omega
  | cons r later ih =>
    obtain ⟨rfl, -, hlater⟩ := hadjoin
    rcases Int.lt_or_le i r.stop with hbefore | hafter
    · exact ⟨r, List.mem_cons_self, hstart, hbefore⟩
    · obtain ⟨other, hother, hspan⟩ := ih hlater hafter
      exact ⟨other, List.mem_cons_of_mem _ hother, hspan⟩

/-- A range of adjoining ranges keeps a position just when the ranges together do. -/
theorem keep_iff_keptIn {start stop i : Int} {ranges : List Range} {r : Range}
    (hadjoin : Adjoin start stop ranges) (hr : r ∈ ranges) (hspan : r.start ≤ i ∧ i < r.stop) :
    r.keep = true ↔ KeptIn ranges i := by
  constructor
  · intro hkeep
    exact ⟨r, hr, hkeep, hspan⟩
  · rintro ⟨other, hother, hkeep, hotherSpan⟩
    rw [eq_of_adjoin hadjoin hr hother hspan hotherSpan]
    exact hkeep

/-! ### The check -/

theorem checkFrom_eq_ok_iff {length position : Int} {before : Option Bool} {ranges : List Range} :
    checkFrom length position before ranges = .ok () ↔
      Partitions position length ranges ∧ ∀ first ∈ ranges.head?, before ≠ some first.keep := by
  induction ranges generalizing position before with
  | nil =>
    rw [checkFrom, partitions_nil_iff]
    split <;> simp_all
  | cons r later ih =>
    rw [checkFrom, partitions_cons_iff, List.head?_cons]
    have hlater : (∀ next ∈ later.head?, some r.keep ≠ some next.keep) ↔
        ∀ next ∈ later.head?, r.keep ≠ next.keep := by simp
    split
    · rename_i hgap
      simp only [reduceCtorEq, false_iff]
      rintro ⟨⟨hstart, hfull, -⟩, -⟩
      omega
    · rename_i hgap
      obtain ⟨hstart, hfull⟩ : r.start = position ∧ r.start < r.stop := by omega
      split
      · rename_i hsame
        simp [hsame]
      · rename_i hdiffer
        rw [ih, hlater]
        have hbefore : ∀ first ∈ some r, before ≠ some first.keep := by simpa using hdiffer
        constructor
        · rintro ⟨hparts, hnext⟩
          exact ⟨⟨hstart, hfull, hnext, hparts⟩, hbefore⟩
        · rintro ⟨⟨-, -, hnext, hparts⟩, -⟩
          exact ⟨hparts, hnext⟩

theorem checkPartition_eq_ok_iff {ranges : List Range} {length : Int} :
    checkPartition ranges length = .ok () ↔ Partitions 0 length ranges := by
  rw [checkPartition, checkFrom_eq_ok_iff]
  simp

/-! ### Equal decisions, equal partitions -/

/-- Where the first range of a partition ends, the decision changes, so it ends no earlier than the
first range of another partition with the same decisions. -/
theorem stop_le_of_partitions {start stop : Int} {a b : Range} {as bs : List Range}
    (has : Partitions start stop (a :: as)) (hbs : Partitions start stop (b :: bs))
    (hsame : ∀ i, start ≤ i → i < stop → (KeptIn (a :: as) i ↔ KeptIn (b :: bs) i)) :
    b.stop ≤ a.stop := by
  obtain ⟨haStart, haFull, haNext, haLater⟩ := partitions_cons_iff.mp has
  obtain ⟨hbStart, hbFull, -, hbLater⟩ := partitions_cons_iff.mp hbs
  have hend := le_of_adjoin hbLater.adjoin
  by_contra hbeyond
  cases as with
  | nil =>
    have hlast := partitions_nil_iff.mp haLater
    omega
  | cons next as =>
    obtain ⟨hnextStart, hnextFull, -⟩ := partitions_cons_iff.mp haLater
    have hfirst : a.keep = true ↔ b.keep = true := by
      rw [keep_iff_keptIn has.adjoin List.mem_cons_self ⟨Int.le_refl _, haFull⟩,
        keep_iff_keptIn (i := a.start) hbs.adjoin List.mem_cons_self (by omega),
        hsame a.start (by omega) (by omega)]
    have hsecond : next.keep = true ↔ b.keep = true := by
      rw [keep_iff_keptIn has.adjoin (by simp) ⟨Int.le_refl _, hnextFull⟩,
        keep_iff_keptIn (i := next.start) hbs.adjoin List.mem_cons_self (by omega),
        hsame next.start (by omega) (by omega)]
    exact haNext next rfl (Bool.eq_iff_iff.mpr (hfirst.trans hsecond.symm))

theorem eq_of_partitions {start stop : Int} {as bs : List Range}
    (has : Partitions start stop as) (hbs : Partitions start stop bs)
    (hsame : ∀ i, start ≤ i → i < stop → (KeptIn as i ↔ KeptIn bs i)) : as = bs := by
  induction as generalizing start bs with
  | nil =>
    have hempty := partitions_nil_iff.mp has
    cases bs with
    | nil => rfl
    | cons b bs =>
      obtain ⟨hbStart, hbFull, -, hbLater⟩ := partitions_cons_iff.mp hbs
      have := le_of_adjoin hbLater.adjoin
      omega
  | cons a as ih =>
    cases bs with
    | nil =>
      have hempty := partitions_nil_iff.mp hbs
      obtain ⟨haStart, haFull, -, haLater⟩ := partitions_cons_iff.mp has
      have := le_of_adjoin haLater.adjoin
      omega
    | cons b bs =>
      obtain ⟨haStart, haFull, -, haLater⟩ := partitions_cons_iff.mp has
      obtain ⟨hbStart, hbFull, -, hbLater⟩ := partitions_cons_iff.mp hbs
      have hstop : a.stop = b.stop :=
        Int.le_antisymm
          (stop_le_of_partitions hbs has fun i hle hlt => (hsame i hle hlt).symm)
          (stop_le_of_partitions has hbs hsame)
      have hend := le_of_adjoin haLater.adjoin
      have hkeep : a.keep = b.keep := by
        rw [Bool.eq_iff_iff,
          keep_iff_keptIn has.adjoin List.mem_cons_self ⟨Int.le_refl _, haFull⟩,
          keep_iff_keptIn (i := a.start) hbs.adjoin List.mem_cons_self (by omega)]
        exact hsame a.start (by omega) (by omega)
      have hlater : as = bs := by
        apply ih haLater (hstop ▸ hbLater)
        intro i hle hlt
        have hpast := hsame i (by omega) hlt
        have haBefore : ¬ (a.start ≤ i ∧ i < a.stop) := by omega
        have hbBefore : ¬ (b.start ≤ i ∧ i < b.stop) := by omega
        simpa [keptIn_cons, haBefore, hbBefore] using hpast
      have hrange : a = b := by
        cases a
        cases b
        simp_all
      rw [hrange, hlater]

/-! ### Joining makes partitions -/

theorem alternate_coalesce {start stop : Int} {ranges : List Range}
    (hadjoin : Adjoin start stop ranges) :
    (Range.coalesce ranges).IsChain fun a b => a.keep ≠ b.keep := by
  induction ranges generalizing start with
  | nil => exact List.IsChain.nil
  | cons r later ih =>
    obtain ⟨-, -, hlater⟩ := hadjoin
    have hrest := ih hlater
    have hmeet := adjoin_coalesce hlater
    rw [Range.coalesce]
    split
    · exact hrest
    · split
      · exact List.isChain_singleton r
      · rename_i next rest hnext
        rw [hnext] at hrest hmeet
        split
        · rename_i hjoin
          rw [List.isChain_cons] at hrest ⊢
          rw [show (⟨r.start, next.stop, r.keep⟩ : Range).keep = next.keep from hjoin.1]
          exact hrest
        · rename_i hapart
          have hkeep : r.keep ≠ next.keep := fun hsame => hapart ⟨hsame, hmeet.1.symm⟩
          exact List.isChain_cons_cons.mpr ⟨hkeep, hrest⟩

theorem partitions_coalesce {start stop : Int} {ranges : List Range}
    (hadjoin : Adjoin start stop ranges) : Partitions start stop (Range.coalesce ranges) :=
  ⟨adjoin_coalesce hadjoin, nonempty_of_mem_coalesce ranges, alternate_coalesce hadjoin⟩

theorem partitions_coverage {length : Int} (hlength : 0 ≤ length) (claims : List Match)
    (retain : Bool) : Partitions 0 length (coverage length claims retain) :=
  partitions_coalesce (adjoin_swept hlength claims retain)

theorem partitions_resolve (source : List UInt8) (claims : List Match) (retain : Bool) :
    Partitions 0 source.length (resolve source claims retain) := by
  have hadjoin := adjoin_lineRulings (KeptAt retain claims) 0 (splitLines source)
  rw [flatten_splitLines, Int.zero_add] at hadjoin
  rw [resolve_eq_coalesce]
  exact partitions_coalesce hadjoin

/-- **The coverage parts the source, and each range decides as the rule does for its bytes.** -/
theorem coverage_partitions (length : Nat) (claims : List Match) (retain : Bool) :
    Partitions 0 length (coverage length claims retain) ∧
      ∀ i : Int, 0 ≤ i → i < length →
        ∃ r ∈ coverage length claims retain, (r.start ≤ i ∧ i < r.stop) ∧
          (∀ other ∈ coverage length claims retain,
            other.start ≤ i ∧ i < other.stop → other = r) ∧
          (r.keep = true ↔ KeptAt retain claims i) := by
  have hparts := partitions_coverage (Int.natCast_nonneg length) claims retain
  refine ⟨hparts, fun i hstart hstop => ?_⟩
  obtain ⟨r, hr, hspan⟩ := exists_range_at hparts.adjoin hstart hstop
  refine ⟨r, hr, hspan, fun other hother hotherSpan => ?_, ?_⟩
  · exact eq_of_adjoin hparts.adjoin hother hr hotherSpan hspan
  · rw [keep_iff_keptIn hparts.adjoin hr hspan, keptIn_coverage hstart hstop]

/-- A body inside a definition of the same priority, and one of higher priority that reaches over
the end of both and of a source of nine bytes. -/
def crossingClaims : List Match :=
  [⟨1, 8, .fullDefinition, 10, "class", by decide, by decide⟩,
    ⟨3, 6, .body, 10, "block", by decide, by decide⟩,
    ⟨5, 20, .body, 11, "block", by decide, by decide⟩]

theorem coverage_partitions_crossing :
    (0 : Int) ≤ 7 ∧ (7 : Int) < (9 : Nat) ∧
      ∃ r ∈ coverage (9 : Nat) crossingClaims true, r.start ≤ 7 ∧ 7 < r.stop ∧ r.keep = false := by
  obtain ⟨-, hdecided⟩ := coverage_partitions 9 crossingClaims true
  obtain ⟨r, hr, ⟨hstart, hstop⟩, -, hkeep⟩ := hdecided 7 (by decide) (by decide)
  have helided : ¬ KeptAt true crossingClaims 7 := by decide
  rw [← hkeep, Bool.not_eq_true] at helided
  exact ⟨by decide, by decide, r, hr, hstart, hstop, helided⟩

/-! ### Run-length encodings -/

/-- The ranges give every position below `n` its decision. -/
def Decides {n : Nat} (ranges : List Range) (decision : Fin n → Bool) : Prop :=
  ∀ i : Fin n, ∃ r ∈ ranges, r.start ≤ i.val ∧ i.val < r.stop ∧ r.keep = decision i

instance {n : Nat} (ranges : List Range) (decision : Fin n → Bool) :
    Decidable (Decides ranges decision) :=
  inferInstanceAs (Decidable (∀ i : Fin n, ∃ r ∈ ranges,
    r.start ≤ i.val ∧ i.val < r.stop ∧ r.keep = decision i))

/-- One range for each position. -/
def positionRanges {n : Nat} (decision : Fin n → Bool) : List Range :=
  List.ofFn fun i : Fin n => ⟨i.val, i.val + 1, decision i⟩

/-- One range for each longest run of positions that are decided alike. -/
def decisionRuns {n : Nat} (decision : Fin n → Bool) : List Range :=
  joinRuns (positionRanges decision)

theorem adjoin_positionRanges {n : Nat} (decision : Fin n → Bool) :
    Adjoin 0 n (positionRanges decision) := by
  induction n with
  | zero => rfl
  | succ n ih =>
    rw [positionRanges, List.ofFn_succ_last, adjoin_append_iff]
    refine ⟨n, ih fun i => decision i.castSucc, rfl, ?_, ?_⟩
    · show (n : Int) ≤ n + 1
      omega
    · show (n : Int) + 1 = (n + 1 : Nat)
      omega

theorem keptIn_positionRanges {n : Nat} (decision : Fin n → Bool) (i : Fin n) :
    KeptIn (positionRanges decision) i.val ↔ decision i = true := by
  constructor
  · rintro ⟨r, hr, hkeep, hstart, hstop⟩
    obtain ⟨j, rfl⟩ := List.mem_ofFn.mp hr
    have hsame : j = i := by
      apply Fin.ext
      simp only at hstart hstop
      omega
    rwa [← hsame]
  · intro hkeep
    refine ⟨_, List.mem_ofFn.mpr ⟨i, rfl⟩, hkeep, Int.le_refl _, ?_⟩
    show (i.val : Int) < i.val + 1
    omega

theorem decisionRuns_eq_coalesce {n : Nat} (decision : Fin n → Bool) :
    decisionRuns decision = Range.coalesce (positionRanges decision) := by
  refine (coalesce_eq_joinRuns (adjoin_positionRanges decision) ?_).symm
  intro r hr
  obtain ⟨i, rfl⟩ := List.mem_ofFn.mp hr
  show (i.val : Int) < i.val + 1
  omega

theorem partitions_decisionRuns {n : Nat} (decision : Fin n → Bool) :
    Partitions 0 n (decisionRuns decision) := by
  rw [decisionRuns_eq_coalesce]
  exact partitions_coalesce (adjoin_positionRanges decision)

theorem keptIn_decisionRuns {n : Nat} (decision : Fin n → Bool) (i : Fin n) :
    KeptIn (decisionRuns decision) i.val ↔ decision i = true := by
  rw [decisionRuns_eq_coalesce, keptIn_coalesce, keptIn_positionRanges]

theorem decides_iff_keptIn {n : Nat} {ranges : List Range} (hparts : Partitions 0 n ranges)
    (decision : Fin n → Bool) :
    Decides ranges decision ↔ ∀ i : Fin n, KeptIn ranges i.val ↔ decision i = true := by
  refine forall_congr' fun i => ?_
  obtain ⟨r, hr, hspan⟩ := exists_range_at hparts.adjoin (Int.natCast_nonneg i.val)
    (Int.ofNat_lt.mpr i.isLt)
  rw [← keep_iff_keptIn hparts.adjoin hr hspan, ← Bool.eq_iff_iff]
  constructor
  · rintro ⟨other, hother, hstart, hstop, hkeep⟩
    rwa [eq_of_adjoin hparts.adjoin hr hother hspan ⟨hstart, hstop⟩]
  · intro hkeep
    exact ⟨r, hr, hspan.1, hspan.2, hkeep⟩

/-- A partition is the encoding of the decisions that it gives. -/
theorem eq_decisionRuns_iff {n : Nat} {ranges : List Range} (hparts : Partitions 0 n ranges)
    (decision : Fin n → Bool) : Decides ranges decision ↔ ranges = decisionRuns decision := by
  rw [decides_iff_keptIn hparts]
  constructor
  · intro hkept
    refine eq_of_partitions hparts (partitions_decisionRuns decision) fun i hstart hstop => ?_
    obtain ⟨k, rfl⟩ := Int.eq_ofNat_of_zero_le hstart
    have hk : k < n := Int.ofNat_lt.mp hstop
    exact (hkept ⟨k, hk⟩).trans (keptIn_decisionRuns decision ⟨k, hk⟩).symm
  · rintro rfl
    exact keptIn_decisionRuns decision

theorem exists_decides {n : Nat} {ranges : List Range} (hparts : Partitions 0 n ranges) :
    ∃ decision : Fin n → Bool, Decides ranges decision :=
  ⟨fun i => decide (KeptIn ranges i.val),
    (decides_iff_keptIn hparts _).mpr fun _ => decide_eq_true_iff.symm⟩

/-! ### Where ranges start -/

theorem exists_start_of_mem_coalesce {ranges : List Range} {r : Range}
    (hr : r ∈ Range.coalesce ranges) : ∃ first ∈ ranges, first.start = r.start := by
  induction ranges generalizing r with
  | nil => simp [Range.coalesce] at hr
  | cons first later ih =>
    have hlater : ∀ other ∈ Range.coalesce later, ∃ start ∈ first :: later,
        start.start = other.start := by
      intro other hother
      obtain ⟨start, hstart, heq⟩ := ih hother
      exact ⟨start, List.mem_cons_of_mem _ hstart, heq⟩
    rw [Range.coalesce] at hr
    split at hr
    · exact hlater r hr
    · split at hr
      · rw [List.mem_singleton.mp hr]
        exact ⟨first, List.mem_cons_self, rfl⟩
      · rename_i next rest hnext
        rw [hnext] at hlater
        split at hr
        · rcases List.mem_cons.mp hr with rfl | hr
          · exact ⟨first, List.mem_cons_self, rfl⟩
          · exact hlater r (List.mem_cons_of_mem _ hr)
        · rcases List.mem_cons.mp hr with rfl | hr
          · exact ⟨r, List.mem_cons_self, rfl⟩
          · exact hlater r hr

/-- A line starts where the lines do, or after a line feed. -/
theorem start_of_mem_lineRulings {keep : Int → Prop} [DecidablePred keep] {start : Int}
    {lines : List (List UInt8)} (hlines : AreLines lineFeed lines) {r : Range}
    (hr : r ∈ lineRulings keep start lines) :
    r.start = start ∨ ∃ i : Nat, r.start = start + i + 1 ∧ lines.flatten[i]? = some lineFeed := by
  induction lines generalizing start with
  | nil => simp [lineRulings] at hr
  | cons line later ih =>
    have hsplit : AreLines lineFeed ([line] ++ later) := hlines
    obtain ⟨-, hended, hlater⟩ := areLines_append_iff.mp hsplit
    rcases List.mem_cons.mp hr with rfl | hr
    · exact .inl rfl
    · refine .inr ?_
      have hmore : later ≠ [] := by
        rintro rfl
        simp [lineRulings] at hr
      obtain ⟨front, rfl⟩ := hended hmore line List.mem_cons_self
      rcases ih hlater hr with hfirst | ⟨i, hstart, hfeed⟩
      · refine ⟨front.length, ?_, ?_⟩
        · rw [hfirst, List.length_append, List.length_singleton]
          omega
        · simp
      · refine ⟨(front ++ [lineFeed]).length + i, ?_, ?_⟩
        · rw [hstart]
          omega
        · rw [List.flatten_cons, List.getElem?_append_right (Nat.le_add_right _ _),
            Nat.add_sub_cancel_left, hfeed]

theorem start_of_mem_resolve {source : List UInt8} {claims : List Match} {retain : Bool} {r : Range}
    (hr : r ∈ resolve source claims retain) :
    r.start = 0 ∨ ∃ i : Nat, r.start = i + 1 ∧ source[i]? = some lineFeed := by
  rw [resolve_eq_coalesce, splitLines_eq_cutAfter] at hr
  obtain ⟨first, hfirst, hsame⟩ := exists_start_of_mem_coalesce hr
  have hstart := start_of_mem_lineRulings (areLines_cutAfter lineFeed source) hfirst
  simpa only [flatten_cutAfter, hsame, Int.zero_add] using hstart

/-! ### What the check accepts -/

/-- **The check accepts exactly the run-length encodings of decisions,** each way to decide has one,
and both passes write them. -/
theorem checkPartition_canonical :
    (∀ (n : Nat) (decision : Fin n → Bool),
      checkPartition (decisionRuns decision) n = .ok () ∧
        Decides (decisionRuns decision) decision ∧
        ∀ ranges, checkPartition ranges n = .ok () → Decides ranges decision →
          ranges = decisionRuns decision) ∧
    (∀ (n : Nat) (ranges : List Range),
      (checkPartition ranges n = .ok () ↔
        ∃ decision : Fin n → Bool, ranges = decisionRuns decision) ∧
      ((∃ fault, checkPartition ranges n = .error fault) ↔
        ∀ decision : Fin n → Bool, ranges ≠ decisionRuns decision)) ∧
    (∀ (n : Nat) (claims : List Match) (retain : Bool),
      checkPartition (coverage n claims retain) n = .ok ()) ∧
    ∀ (source : List UInt8) (claims : List Match) (retain : Bool),
      checkPartition (resolve source claims retain) source.length = .ok () ∧
        ∀ r ∈ resolve source claims retain,
          r.start = 0 ∨ ∃ i : Nat, r.start = i + 1 ∧ source[i]? = some lineFeed := by
  have haccepted : ∀ (n : Nat) (ranges : List Range), checkPartition ranges n = .ok () ↔
      ∃ decision : Fin n → Bool, ranges = decisionRuns decision := by
    intro n ranges
    rw [checkPartition_eq_ok_iff]
    constructor
    · intro hparts
      obtain ⟨decision, hdecides⟩ := exists_decides hparts
      exact ⟨decision, (eq_decisionRuns_iff hparts decision).mp hdecides⟩
    · rintro ⟨decision, rfl⟩
      exact partitions_decisionRuns decision
  refine ⟨fun n decision => ⟨?_, ?_, ?_⟩, fun n ranges => ⟨haccepted n ranges, ?_⟩, ?_, ?_⟩
  · exact checkPartition_eq_ok_iff.mpr (partitions_decisionRuns decision)
  · exact (eq_decisionRuns_iff (partitions_decisionRuns decision) decision).mpr rfl
  · intro ranges hcheck hdecides
    exact (eq_decisionRuns_iff (checkPartition_eq_ok_iff.mp hcheck) decision).mp hdecides
  · rw [← not_exists, ← haccepted]
    cases checkPartition ranges n <;> simp
  · intro n claims retain
    exact checkPartition_eq_ok_iff.mpr (partitions_coverage (Int.natCast_nonneg n) claims retain)
  · intro source claims retain
    exact ⟨checkPartition_eq_ok_iff.mpr (partitions_resolve source claims retain),
      fun r => start_of_mem_resolve⟩

/-- Three positions of which the second is elided, and a source whose second line is. -/
theorem checkPartition_canonical_middle :
    [⟨0, 1, true⟩, ⟨1, 2, false⟩, ⟨2, 3, true⟩] = decisionRuns (fun i : Fin 3 => i != 1) ∧
      ⟨2, 4, false⟩ ∈ resolve [97, 10, 98, 10, 99]
        [⟨2, 4, .body, 10, "block", by decide, by decide⟩] true ∧
      ∃ i : Nat, (2 : Int) = i + 1 ∧ ([97, 10, 98, 10, 99] : List UInt8)[i]? = some lineFeed := by
  obtain ⟨hunique, -, -, hresolve⟩ := checkPartition_canonical
  have hmem : (⟨2, 4, false⟩ : Range) ∈ resolve [97, 10, 98, 10, 99]
      [⟨2, 4, .body, 10, "block", by decide, by decide⟩] true := by
    rw [resolve_eq_coalesce]
    decide
  refine ⟨?_, hmem, ?_⟩
  · exact (hunique 3 fun i => i != 1).2.2 _ (by decide) (by decide)
  · exact ((hresolve _ _ _).2 _ hmem).resolve_left (by decide)

end CodeOutline
