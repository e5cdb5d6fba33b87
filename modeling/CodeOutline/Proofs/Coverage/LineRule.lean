/-
  CodeOutline/Proofs/Coverage/LineRule.lean
  =========================================
  **The rule for a line, and the partition that it gives.**

  `KeptLine` decides a line on its own from the decisions of its bytes: a byte that shows something
  has to be kept, or, where nothing on the line shows, any byte.  `lineRuns` decides all lines of a
  source in this way and joins neighbours that are decided alike.

  `resolve` never decides a byte.  It walks over the lines with a cursor in the coverage, and
  `snap_eq_lineRulings` says that the cursor loses nothing: what it has passed ends before the
  line, and what it does not look at begins after it.  With the rule for the bytes of the coverage
  this is the partition by lines (`resolve_eq_lineRuns`).
-/
import CodeOutline.Coverage.Snap
import CodeOutline.Proofs.Coverage.Sweep
import CodeOutline.Proofs.Source.Lines

namespace CodeOutline

/-! ### The rule -/

/-- Whether a line whose first byte has the offset `start` is kept: some byte that shows something
is, or the line is blank and some byte is. -/
def KeptLine (keep : Int → Prop) (start : Int) (bytes : List UInt8) : Prop :=
  (∃ k : Fin bytes.length, isBlankByte bytes[k] = false ∧ keep (start + k)) ∨
    (∀ b ∈ bytes, isBlankByte b = true) ∧ ∃ k : Fin bytes.length, keep (start + k)

instance (keep : Int → Prop) [DecidablePred keep] (start : Int) (bytes : List UInt8) :
    Decidable (KeptLine keep start bytes) :=
  inferInstanceAs (Decidable (
    (∃ k : Fin bytes.length, isBlankByte bytes[k] = false ∧ keep (start + k)) ∨
    (∀ b ∈ bytes, isBlankByte b = true) ∧ ∃ k : Fin bytes.length, keep (start + k)))

/-- One range for each line, decided on its own. -/
def lineRulings (keep : Int → Prop) [DecidablePred keep] (start : Int) :
    List (List UInt8) → List Range
  | [] => []
  | line :: later =>
    ⟨start, start + line.length, decide (KeptLine keep start line)⟩
      :: lineRulings keep (start + line.length) later

/-- The longest runs of lines that are decided alike. -/
def lineRuns (keep : Int → Prop) [DecidablePred keep] (source : List UInt8) : List Range :=
  joinRuns (lineRulings keep 0 (cutAfter lineFeed source))

/-! ### Only the bytes of the line count -/

theorem keptLine_congr {keep keep' : Int → Prop} {start : Int} {line : List UInt8}
    (hsame : ∀ i, start ≤ i → i < start + line.length → (keep i ↔ keep' i)) :
    KeptLine keep start line ↔ KeptLine keep' start line := by
  have hbyte : ∀ k : Fin line.length, keep (start + k) ↔ keep' (start + k) :=
    fun k => hsame _ (by omega) (by omega)
  simp only [KeptLine, hbyte]

theorem lineRulings_congr {keep keep' : Int → Prop} [DecidablePred keep] [DecidablePred keep']
    {start : Int} {lines : List (List UInt8)}
    (hsame : ∀ i, start ≤ i → i < start + lines.flatten.length → (keep i ↔ keep' i)) :
    lineRulings keep start lines = lineRulings keep' start lines := by
  induction lines generalizing start with
  | nil => rfl
  | cons line later ih =>
    rw [List.flatten_cons, List.length_append] at hsame
    have hline : KeptLine keep start line ↔ KeptLine keep' start line :=
      keptLine_congr fun i hle hlt => hsame i hle (by omega)
    rw [lineRulings, lineRulings, ih fun i hle hlt => hsame i (by omega) (by omega)]
    simp only [hline]

theorem adjoin_lineRulings (keep : Int → Prop) [DecidablePred keep] (start : Int)
    (lines : List (List UInt8)) :
    Adjoin start (start + lines.flatten.length) (lineRulings keep start lines) := by
  induction lines generalizing start with
  | nil => simp [lineRulings, Adjoin]
  | cons line later ih =>
    refine ⟨rfl, ?_, ?_⟩
    · show start ≤ start + line.length
      omega
    · have hlater := ih (start + line.length)
      rwa [List.flatten_cons, List.length_append, Int.natCast_add, ← Int.add_assoc]

theorem nonempty_of_mem_lineRulings {keep : Int → Prop} [DecidablePred keep] {start : Int}
    {lines : List (List UInt8)} (hlines : ∀ line ∈ lines, line ≠ []) :
    ∀ r ∈ lineRulings keep start lines, r.start < r.stop := by
  induction lines generalizing start with
  | nil => simp [lineRulings]
  | cons line later ih =>
    intro r hr
    rcases List.mem_cons.mp hr with rfl | hr
    · have := List.length_pos_iff.mpr (hlines line List.mem_cons_self)
      show start < start + line.length
      omega
    · exact ih (fun other hother => hlines other (List.mem_cons_of_mem _ hother)) r hr

/-! ### The decision of the cursor -/

theorem mem_part_iff (line : Line) (start stop : Int) (b : UInt8) :
    b ∈ line.part start stop ↔
      ∃ k : Fin line.bytes.length,
        line.bytes[k] = b ∧ start ≤ line.start + k ∧ line.start + k < stop := by
  rw [Line.part, List.mem_iff_getElem]
  constructor
  · rintro ⟨j, hj, rfl⟩
    simp only [List.length_take, List.length_drop, Line.stop] at hj
    refine ⟨⟨(max start line.start - line.start).toNat + j, by omega⟩, ?_, ?_, ?_⟩
    · simp
    · show start ≤ line.start + ((max start line.start - line.start).toNat + j : Nat)
      omega
    · show line.start + ((max start line.start - line.start).toNat + j : Nat) < stop
      omega
  · rintro ⟨⟨k, hk⟩, rfl, hle, hlt⟩
    simp only at hle hlt
    refine ⟨k - (max start line.start - line.start).toNat, ?_, ?_⟩
    · simp only [List.length_take, List.length_drop, Line.stop]
      omega
    · have hshift : (max start line.start - line.start).toNat
          + (k - (max start line.start - line.start).toNat) = k := by omega
      simp [hshift]

theorem isBlank_iff (line : Line) :
    line.isBlank = true ↔ ∀ b ∈ line.bytes, isBlankByte b = true := by
  simp [Line.isBlank, allBlank]

theorem part_decides_iff (line : Line) (r : Range) :
    (!(line.part r.start r.stop).isEmpty
        && (line.isBlank || !allBlank (line.part r.start r.stop))) = true ↔
      ∃ k : Fin line.bytes.length, (isBlankByte line.bytes[k] = false ∨ line.isBlank = true) ∧
        r.start ≤ line.start + k ∧ line.start + k < r.stop := by
  rw [Bool.and_eq_true, Bool.or_eq_true, Bool.not_eq_true', Bool.not_eq_true', allBlank,
    List.all_eq_false, List.isEmpty_eq_false_iff_exists_mem]
  constructor
  · rintro ⟨⟨b, hb⟩, hblank | ⟨c, hc, hshows⟩⟩
    · obtain ⟨k, -, hspan⟩ := (mem_part_iff line _ _ b).mp hb
      exact ⟨k, .inr hblank, hspan⟩
    · obtain ⟨k, rfl, hspan⟩ := (mem_part_iff line _ _ c).mp hc
      exact ⟨k, .inl (by simpa using hshows), hspan⟩
  · rintro ⟨k, hshows, hspan⟩
    have hmem := (mem_part_iff line _ _ line.bytes[k]).mpr ⟨k, rfl, hspan⟩
    refine ⟨⟨_, hmem⟩, ?_⟩
    rcases hshows with hshows | hblank
    · exact .inr ⟨_, hmem, by simpa using hshows⟩
    · exact .inl hblank

theorem isKept_iff {line : Line} {covered : List Range}
    (hordered : covered.Pairwise fun a b => a.start ≤ b.start) :
    line.isKept covered = true ↔ KeptLine (KeptIn covered) line.start line.bytes := by
  rw [Line.isKept, takeWhile_eq_filter (hordered.imp fun hle hb => by simp at hb ⊢; omega),
    List.any_filter, List.any_eq_true]
  simp only [Bool.and_assoc, Bool.and_eq_true, decide_eq_true_eq]
  have hfound : ∀ r : Range, r.start < line.stop ∧ r.keep = true ∧
      (!(line.part r.start r.stop).isEmpty) = true ∧
        (line.isBlank || !allBlank (line.part r.start r.stop)) = true ↔
      r.keep = true ∧ ∃ k : Fin line.bytes.length,
        (isBlankByte line.bytes[k] = false ∨ line.isBlank = true) ∧
          r.start ≤ line.start + k ∧ line.start + k < r.stop := by
    intro r
    rw [← Bool.and_eq_true, part_decides_iff, and_left_comm]
    refine and_congr_right fun _ => and_iff_right_of_imp ?_
    rintro ⟨k, -, hle, -⟩
    simp only [Line.stop]
    omega
  simp only [hfound, KeptLine, KeptIn, ← isBlank_iff]
  constructor
  · rintro ⟨r, hr, hkeep, k, hshows, hspan⟩
    rcases hshows with hshows | hblank
    · exact .inl ⟨k, hshows, r, hr, hkeep, hspan⟩
    · exact .inr ⟨hblank, k, r, hr, hkeep, hspan⟩
  · rintro (⟨k, hshows, r, hr, hkeep, hspan⟩ | ⟨hblank, k, r, hr, hkeep, hspan⟩)
    · exact ⟨r, hr, hkeep, k, .inl hshows, hspan⟩
    · exact ⟨r, hr, hkeep, k, .inr hblank, hspan⟩

/-- What the cursor passes holds no byte from there on. -/
theorem keptIn_dropWhile {covered : List Range} {start i : Int}
    (hordered : covered.Pairwise fun a b => a.start ≤ b.start ∧ a.stop ≤ b.start) (hi : start ≤ i) :
    KeptIn (covered.dropWhile (·.stop ≤ start)) i ↔ KeptIn covered i := by
  induction covered with
  | nil => rfl
  | cons r later ih =>
    rw [List.dropWhile_cons]
    split
    · rename_i hpassed
      have hbefore : ¬ (r.start ≤ i ∧ i < r.stop) := by simp at hpassed; omega
      rw [ih (List.pairwise_cons.mp hordered).2, keptIn_cons]
      simp [hbefore]
    · rfl

theorem snap_eq_lineRulings {covered : List Range}
    (hordered : covered.Pairwise fun a b => a.start ≤ b.start ∧ a.stop ≤ b.start) (start : Int)
    (lines : List (List UInt8)) :
    snap (placeLines start lines) covered = lineRulings (KeptIn covered) start lines := by
  induction lines generalizing start covered with
  | nil => rfl
  | cons line later ih =>
    have hrest := hordered.sublist (List.dropWhile_sublist (·.stop ≤ start) (l := covered))
    have hkept : Line.isKept ⟨start, line⟩ (covered.dropWhile (·.stop ≤ start)) =
        decide (KeptLine (KeptIn covered) start line) := by
      rw [Bool.eq_iff_iff, decide_eq_true_eq, isKept_iff (hrest.imp And.left)]
      exact keptLine_congr fun i hle _ => keptIn_dropWhile hordered hle
    have hlater :
        lineRulings (KeptIn (covered.dropWhile (·.stop ≤ start))) (start + line.length) later =
          lineRulings (KeptIn covered) (start + line.length) later :=
      lineRulings_congr fun i hle _ => keptIn_dropWhile hordered (by omega)
    rw [placeLines, snap, lineRulings, ih hrest, hlater]
    simp only [hkept, Line.stop]

/-! ### The partition of a source -/

theorem resolve_eq_coalesce (source : List UInt8) (claims : List Match) (retain : Bool) :
    resolve source claims retain =
      Range.coalesce (lineRulings (KeptAt retain claims) 0 (splitLines source)) := by
  have hadjoin := adjoin_coverage (Int.natCast_nonneg source.length) claims retain
  have hbytes : lineRulings (KeptIn (coverage source.length claims retain)) 0 (splitLines source) =
      lineRulings (KeptAt retain claims) 0 (splitLines source) :=
    lineRulings_congr fun i hle hlt =>
      keptIn_coverage hle (by rwa [flatten_splitLines, Int.zero_add] at hlt)
  rw [resolve, linesOf, snap_eq_lineRulings (pairwise_of_adjoin hadjoin), hbytes]

/-- Matches that decide every byte alike leave the same lines. -/
theorem resolve_congr {as bs : List Match} (source : List UInt8) (retain : Bool)
    (hsame : ∀ i, KeptAt retain as i ↔ KeptAt retain bs i) :
    resolve source as retain = resolve source bs retain := by
  rw [resolve_eq_coalesce, resolve_eq_coalesce]
  exact congrArg Range.coalesce (lineRulings_congr fun i _ _ => hsame i)

theorem resolve_eq_joinRuns (source : List UInt8) (claims : List Match) (retain : Bool) :
    resolve source claims retain =
      joinRuns (lineRulings (KeptAt retain claims) 0 (splitLines source)) := by
  rw [resolve_eq_coalesce]
  exact coalesce_eq_joinRuns (adjoin_lineRulings _ 0 _)
    (nonempty_of_mem_lineRulings fun line hline => nonempty_of_mem_splitLines hline)

/-- **The resolver decides every line on its own and joins what is decided alike.** -/
theorem resolve_eq_lineRuns (source : List UInt8) (claims : List Match) (retain : Bool) :
    resolve source claims retain = lineRuns (KeptAt retain claims) source := by
  rw [resolve_eq_joinRuns, splitLines_eq_cutAfter, lineRuns]

/-- A body over the second of three lines. -/
example : lineRuns (KeptAt true [⟨2, 4, .body, 10, "block", by decide, by decide⟩])
    [97, 10, 98, 10, 99] = [⟨0, 2, true⟩, ⟨2, 4, false⟩, ⟨4, 5, true⟩] := by decide

/-! ### Lines in the partition -/

theorem mem_lineRulings (keep : Int → Prop) [DecidablePred keep] {start : Int}
    {lines : List (List UInt8)} {line : Line} (hline : line ∈ placeLines start lines) :
    ⟨line.start, line.stop, decide (KeptLine keep line.start line.bytes)⟩ ∈
      lineRulings keep start lines := by
  induction lines generalizing start with
  | nil => simp [placeLines] at hline
  | cons bytes later ih =>
    rw [placeLines, List.mem_cons] at hline
    rcases hline with rfl | hline
    · exact List.mem_cons_self
    · exact List.mem_cons_of_mem _ (ih hline)

theorem nonempty_of_mem_linesOf {source : List UInt8} {line : Line}
    (hline : line ∈ linesOf source) : line.start < line.stop :=
  nonempty_of_mem_lineRulings (fun _ => nonempty_of_mem_splitLines) _
    (mem_lineRulings (fun _ => True) hline)

theorem exists_line_of_flatten {lines : List (List UInt8)} {i : Nat} {b : UInt8} (start : Int)
    (hbyte : lines.flatten[i]? = some b) :
    ∃ line ∈ placeLines start lines, ∃ k : Fin line.bytes.length,
      line.start + k = start + i ∧ line.bytes[k] = b := by
  induction lines generalizing start i with
  | nil => simp at hbyte
  | cons bytes later ih =>
    rw [List.flatten_cons] at hbyte
    by_cases hhere : i < bytes.length
    · rw [List.getElem?_append_left hhere] at hbyte
      exact ⟨⟨start, bytes⟩, List.mem_cons_self, ⟨i, hhere⟩, rfl,
        (List.getElem?_eq_some_iff.mp hbyte).2⟩
    · rw [List.getElem?_append_right (Nat.le_of_not_lt hhere)] at hbyte
      obtain ⟨line, hline, k, hoffset, heq⟩ := ih (start + bytes.length) hbyte
      exact ⟨line, List.mem_cons_of_mem _ hline, k, by omega, heq⟩

theorem exists_line_of_byte {source : List UInt8} {i : Nat} {b : UInt8}
    (hbyte : source[i]? = some b) :
    ∃ line ∈ linesOf source, ∃ k : Fin line.bytes.length,
      line.start + k = i ∧ line.bytes[k] = b := by
  rw [← flatten_splitLines source] at hbyte
  simpa [linesOf] using exists_line_of_flatten 0 hbyte

/-- The line lies in a range with this decision. -/
def DecidesLine (ranges : List Range) (line : Line) (keep : Bool) : Prop :=
  ∃ r ∈ ranges, r.keep = keep ∧ r.start ≤ line.start ∧ line.stop ≤ r.stop

instance (ranges : List Range) (line : Line) (keep : Bool) :
    Decidable (DecidesLine ranges line keep) :=
  inferInstanceAs (Decidable
    (∃ r ∈ ranges, r.keep = keep ∧ r.start ≤ line.start ∧ line.stop ≤ r.stop))

/-- The partition decides every line as the rule does. -/
theorem decidesLine_resolve_iff {source : List UInt8} {line : Line} (hline : line ∈ linesOf source)
    (claims : List Match) (retain keep : Bool) :
    DecidesLine (resolve source claims retain) line keep ↔
      decide (KeptLine (KeptAt retain claims) line.start line.bytes) = keep := by
  have hfull := nonempty_of_mem_linesOf hline
  obtain ⟨whole, hwhole, hkeep, hstart, hstop⟩ :=
    exists_coalesce_over (mem_lineRulings (KeptAt retain claims) hline) hfull
  have hadjoin := adjoin_coalesce (adjoin_lineRulings (KeptAt retain claims) 0 (splitLines source))
  rw [resolve_eq_coalesce]
  constructor
  · rintro ⟨r, hr, rfl, hle, hge⟩
    -- both hold the first byte of the line
    rw [eq_of_adjoin hadjoin hr hwhole ⟨hle, Int.lt_of_lt_of_le hfull hge⟩
      ⟨hstart, Int.lt_of_lt_of_le hfull hstop⟩]
    exact hkeep.symm
  · exact fun hsame => ⟨whole, hwhole, hkeep.trans hsame, hstart, hstop⟩

/-- A line lies in a kept range just when the rule keeps it. -/
theorem exists_kept_over_iff {source : List UInt8} {line : Line} (hline : line ∈ linesOf source)
    (claims : List Match) (retain : Bool) :
    (∃ r ∈ resolve source claims retain,
        r.keep = true ∧ r.start ≤ line.start ∧ line.stop ≤ r.stop) ↔
      KeptLine (KeptAt retain claims) line.start line.bytes := by
  rw [← decide_eq_true_iff (p := KeptLine _ _ _)]
  exact decidesLine_resolve_iff hline claims retain true

end CodeOutline
