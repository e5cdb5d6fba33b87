/-
  CodeOutline/Proofs/Source/Outline.lean
  ======================================
  **What is left of a text whose lines are decided.**

  `outline` is the text that is left, line by line: the kept lines as they are, and one line put in
  for each longest run of elided ones, the placeholder with the line ending of the last line of the
  run.  It is said here what such a text looks like, for any decisions whatever:

    * its lines are the lines of the outline (`areLines_outline`), and no two that were put in
      stand beside each other (`isChain_outline`);
    * it has no more lines than the text (`length_outline_le`), and is the text when all are kept
      (`outline_of_keep`);
    * it ends in a line feed when the text does (`suffix_lineFeed_outline_iff`), and has no bare one
      when the text has none (`noBareLineFeed_outline`).
-/
import CodeOutline.Proofs.Coverage.LineRule
import CodeOutline.Proofs.Source.Ending

namespace CodeOutline

open Text (Chars)

/-- A line of a text, the offset of its first byte, and its decision. -/
structure RuledLine where
  start : Int
  chars : Chars
  keep : Bool
deriving DecidableEq, Repr

/-- A line of what is left: one of the text, or one put in for a run of elided lines. -/
structure LeftLine where
  chars : Chars
  inserted : Bool
deriving DecidableEq, Repr

/-- The lines of a text from the offset `start` on, each decided on its own. -/
def ruledLines (keep : Int → Prop) [DecidablePred keep] (start : Int) : List Chars → List RuledLine
  | [] => []
  | line :: later =>
    ⟨start, line, decide (KeptLine keep start (Utf8.encode line))⟩
      :: ruledLines keep (start + (Utf8.encode line).length) later

/-- What is left of a run of lines that are decided alike. -/
def leave (placeholder : Chars) : List RuledLine → List LeftLine
  | [] => []
  | first :: later =>
    if first.keep then (first :: later).map fun line => ⟨line.chars, false⟩
    else [⟨placeholder ++ endingOf ((first :: later).getLast (by simp)).chars, true⟩]

/-- What is left of a text. -/
def outline (placeholder : Chars) (lines : List RuledLine) : List LeftLine :=
  (lines.splitBy fun a b => a.keep == b.keep).flatMap (leave placeholder)

/-! ### Runs of one decision -/

structure IsRun (run : List RuledLine) (keep : Bool) : Prop where
  nonempty : run ≠ []
  alike : ∀ line ∈ run, line.keep = keep

theorem isRun_of_isChain {run : List RuledLine} (hnonempty : run ≠ [])
    (hchain : run.IsChain fun a b => (a.keep == b.keep) = true) : ∃ keep, IsRun run keep := by
  induction run with
  | nil => exact absurd rfl hnonempty
  | cons first later ih =>
    cases later with
    | nil => exact ⟨first.keep, hnonempty, by simp⟩
    | cons next later =>
      obtain ⟨hsame, hrest⟩ := List.isChain_cons_cons.mp hchain
      obtain ⟨keep, -, halike⟩ := ih (List.cons_ne_nil _ _) hrest
      refine ⟨keep, hnonempty, List.forall_mem_cons.mpr ⟨?_, halike⟩⟩
      rw [beq_iff_eq.mp hsame]
      exact halike next List.mem_cons_self

theorem exists_isRun_of_mem {lines run : List RuledLine}
    (hrun : run ∈ lines.splitBy fun a b => a.keep == b.keep) : ∃ keep, IsRun run keep :=
  isRun_of_isChain (List.ne_nil_of_mem_splitBy hrun) (List.isChain_of_mem_splitBy hrun)

theorem leave_kept {placeholder : Chars} {run : List RuledLine} (hrun : IsRun run true) :
    leave placeholder run = run.map fun line => ⟨line.chars, false⟩ := by
  cases run with
  | nil => rfl
  | cons first later => rw [leave, if_pos (hrun.alike first List.mem_cons_self)]

theorem leave_elided {placeholder : Chars} {run : List RuledLine} (hrun : IsRun run false) :
    leave placeholder run =
      [⟨placeholder ++ endingOf (run.getLast hrun.nonempty).chars, true⟩] := by
  cases run with
  | nil => exact absurd rfl hrun.nonempty
  | cons first later => rw [leave, if_neg (by simp [hrun.alike first List.mem_cons_self])]

theorem inserted_of_mem_leave (placeholder : Chars) {run : List RuledLine} {keep : Bool}
    (hrun : IsRun run keep) : ∀ line ∈ leave placeholder run, line.inserted = !keep := by
  intro line hline
  cases keep with
  | true =>
    rw [leave_kept hrun] at hline
    obtain ⟨ruled, -, rfl⟩ := List.mem_map.mp hline
    rfl
  | false =>
    rw [leave_elided hrun, List.mem_singleton] at hline
    subst hline
    rfl

theorem leave_eq_nil_iff {placeholder : Chars} {run : List RuledLine} :
    leave placeholder run = [] ↔ run = [] := by
  cases run with
  | nil => simp [leave]
  | cons first later =>
    rw [leave]
    split <;> simp

theorem flatMap_leave_eq_nil_iff (placeholder : Chars) {runs : List (List RuledLine)} :
    runs.flatMap (leave placeholder) = [] ↔ runs.flatten = [] := by
  simp only [List.flatMap_eq_nil_iff, List.flatten_eq_nil_iff, leave_eq_nil_iff]

/-! ### The line that is put in -/

theorem suffix_lineFeed_inserted_iff {placeholder : Chars} (hplain : '\n' ∉ placeholder)
    (line : Chars) : ['\n'] <:+ placeholder ++ endingOf line ↔ ['\n'] <:+ line := by
  rcases endingOf_cases line with ⟨hends, heq⟩ | ⟨hends, heq⟩ | ⟨hends, heq⟩ <;> rw [heq]
  · exact iff_of_true ⟨placeholder ++ ['\r'], by simp⟩ (suffix_lineFeed_of_crlf hends)
  · exact iff_of_true (List.suffix_append _ _) hends
  · refine iff_of_false (fun hsuffix => hplain ?_) hends
    rw [List.append_nil] at hsuffix
    exact hsuffix.mem List.mem_cons_self

theorem lineFeed_notMem_inserted {placeholder : Chars} (hplain : '\n' ∉ placeholder)
    (line : Chars) : '\n' ∉ (placeholder ++ endingOf line).dropLast := by
  rcases endingOf_cases line with ⟨-, heq⟩ | ⟨-, heq⟩ | ⟨-, heq⟩ <;> rw [heq]
  · rw [List.dropLast_append_of_ne_nil (by simp)]
    simpa using hplain
  · simpa using hplain
  · rw [List.append_nil]
    exact fun hmem => hplain (List.dropLast_subset _ hmem)

/-- A run ends as its last line does. -/
theorem endingOf_run {run : List RuledLine} (hnonempty : run ≠ [])
    (hlines : AreLines '\n' (run.map RuledLine.chars)) :
    endingOf (run.map RuledLine.chars).flatten = endingOf (run.getLast hnonempty).chars := by
  obtain ⟨earlier, last, rfl⟩ := (List.eq_nil_or_concat run).resolve_left hnonempty
  simp only [List.concat_eq_append, List.map_append, List.map_cons, List.map_nil,
    List.getLast_concat, List.flatten_concat] at hlines ⊢
  obtain ⟨-, hended, hlast⟩ := areLines_append_iff.mp hlines
  refine endingOf_append (suffix_flatten (hended (List.cons_ne_nil _ _))) fun hnil => ?_
  exact hlast.nonempty (by simp [hnil])

/-! ### Where the lines come from -/

/-- A line that is left is a kept line of the run, or stands for its last line. -/
theorem of_mem_leave {placeholder : Chars} {run : List RuledLine} {line : LeftLine}
    (hline : line ∈ leave placeholder run) :
    ∃ ruled ∈ run, line = ⟨ruled.chars, false⟩ ∨
      line = ⟨placeholder ++ endingOf ruled.chars, true⟩ := by
  cases run with
  | nil => simp [leave] at hline
  | cons first later =>
    rw [leave] at hline
    split at hline
    · obtain ⟨ruled, hruled, rfl⟩ := List.mem_map.mp hline
      exact ⟨ruled, hruled, .inl rfl⟩
    · rw [List.mem_singleton] at hline
      exact ⟨_, List.getLast_mem _, .inr hline⟩

theorem of_mem_outline {placeholder : Chars} {lines : List RuledLine} {line : LeftLine}
    (hline : line ∈ outline placeholder lines) :
    ∃ ruled ∈ lines, line = ⟨ruled.chars, false⟩ ∨
      line = ⟨placeholder ++ endingOf ruled.chars, true⟩ := by
  obtain ⟨run, hrun, hline⟩ := List.mem_flatMap.mp hline
  obtain ⟨ruled, hruled, heq⟩ := of_mem_leave hline
  refine ⟨ruled, ?_, heq⟩
  have hmem := List.mem_flatten_of_mem hrun hruled
  rwa [List.flatten_splitBy] at hmem

theorem mem_outline_of_keep {placeholder : Chars} {lines : List RuledLine} {ruled : RuledLine}
    (hruled : ruled ∈ lines) (hkeep : ruled.keep = true) :
    ⟨ruled.chars, false⟩ ∈ outline placeholder lines := by
  rw [← List.flatten_splitBy (fun a b : RuledLine => a.keep == b.keep) lines] at hruled
  obtain ⟨run, hrun, hruled⟩ := List.mem_flatten.mp hruled
  obtain ⟨keep, halike⟩ := exists_isRun_of_mem hrun
  obtain rfl : keep = true := by rw [← halike.alike ruled hruled, hkeep]
  refine List.mem_flatMap.mpr ⟨run, hrun, ?_⟩
  rw [leave_kept halike]
  exact List.mem_map_of_mem hruled

/-! ### The lines of an outline -/

theorem areLines_flatMap_leave {placeholder : Chars} (hplain : '\n' ∉ placeholder)
    (hnonempty : placeholder ≠ []) {runs : List (List RuledLine)}
    (hruns : ∀ run ∈ runs, ∃ keep, IsRun run keep)
    (hlines : AreLines '\n' (runs.flatten.map RuledLine.chars)) :
    AreLines '\n' ((runs.flatMap (leave placeholder)).map LeftLine.chars) := by
  induction runs with
  | nil => exact hlines
  | cons run later ih =>
    obtain ⟨⟨keep, hrun⟩, hlater⟩ := List.forall_mem_cons.mp hruns
    rw [List.flatten_cons, List.map_append, areLines_append_iff] at hlines
    rw [List.flatMap_cons, List.map_append, areLines_append_iff]
    obtain ⟨hfirst, hended, hrest⟩ := hlines
    refine ⟨?_, fun hmore => ?_, ih hlater hrest⟩
    · cases keep with
      | true =>
        rw [leave_kept hrun, List.map_map]
        exact hfirst
      | false =>
        rw [leave_elided hrun]
        exact ⟨by simp [hnonempty], by simpa using lineFeed_notMem_inserted hplain _, by simp⟩
    · -- a line that is put in is ended because the last line of its run is
      have hnext : later.flatten.map RuledLine.chars ≠ [] := by
        rwa [ne_eq, List.map_eq_nil_iff, flatMap_leave_eq_nil_iff, ← List.map_eq_nil_iff] at hmore
      rw [List.forall_mem_map] at hended ⊢
      intro line hline
      obtain ⟨ruled, hruled, rfl | rfl⟩ := of_mem_leave hline
      · exact hended hnext ruled hruled
      · exact (suffix_lineFeed_inserted_iff hplain _).mpr (hended hnext ruled hruled)

/-- The lines of an outline are its lines as a text. -/
theorem areLines_outline {placeholder : Chars} (hplain : '\n' ∉ placeholder)
    (hnonempty : placeholder ≠ []) {lines : List RuledLine}
    (hlines : AreLines '\n' (lines.map RuledLine.chars)) :
    AreLines '\n' ((outline placeholder lines).map LeftLine.chars) := by
  refine areLines_flatMap_leave hplain hnonempty (fun run => exists_isRun_of_mem) ?_
  rwa [List.flatten_splitBy]

/-! ### What an outline looks like -/

/-- Where a run ends and the next one begins, the decision changes. -/
theorem inserted_change {placeholder : Chars} {run next : List RuledLine} {keep other : Bool}
    (hrun : IsRun run keep) (hnext : IsRun next other)
    (hcut : ∃ (ha : run ≠ []) (hb : next ≠ []),
      ((run.getLast ha).keep == (next.head hb).keep) = false) :
    ∀ a ∈ leave placeholder run, ∀ b ∈ leave placeholder next,
      a.inserted = true → b.inserted = false := by
  obtain ⟨ha, hb, hcut⟩ := hcut
  rw [hrun.alike _ (List.getLast_mem ha), hnext.alike _ (List.head_mem hb)] at hcut
  intro a hamem b hbmem hinserted
  rw [inserted_of_mem_leave placeholder hrun a hamem] at hinserted
  rw [inserted_of_mem_leave placeholder hnext b hbmem]
  obtain rfl : keep = false := by simpa using hinserted
  cases other with
  | false => exact absurd hcut (by decide)
  | true => rfl

/-- Of two neighbours at most one was put in. -/
theorem isChain_outline (placeholder : Chars) (lines : List RuledLine) :
    (outline placeholder lines).IsChain fun a b => a.inserted = true → b.inserted = false := by
  rw [outline, List.flatMap, List.isChain_flatten (by simp [leave_eq_nil_iff]), List.isChain_map]
  constructor
  · rw [List.forall_mem_map]
    intro run hrun
    obtain ⟨keep, halike⟩ := exists_isRun_of_mem hrun
    cases keep with
    | false => rw [leave_elided halike]; exact List.isChain_singleton _
    | true =>
      have hkept := inserted_of_mem_leave placeholder halike
      refine (List.pairwise_of_forall_mem_list fun a ha b _ hinserted => ?_).isChain
      exact absurd hinserted (by simp [hkept a ha])
  · have hcuts := List.isChain_getLast_head_splitBy
      (fun a b : RuledLine => a.keep == b.keep) lines
    refine hcuts.imp_of_mem_imp fun run next hrun hnext hcut => ?_
    obtain ⟨keep, hrun⟩ := exists_isRun_of_mem hrun
    obtain ⟨other, hnext⟩ := exists_isRun_of_mem hnext
    exact fun a ha b hb => inserted_change hrun hnext hcut a (List.mem_of_getLast? ha) b
      (List.mem_of_head? hb)

theorem length_outline_le (placeholder : Chars) (lines : List RuledLine) :
    (outline placeholder lines).length ≤ lines.length := by
  have hrun : ∀ run, (leave placeholder run).length ≤ run.length := by
    intro run
    cases run with
    | nil => rfl
    | cons first later =>
      rw [leave]
      split <;> simp
  have hruns : ∀ runs : List (List RuledLine),
      (runs.flatMap (leave placeholder)).length ≤ runs.flatten.length := by
    intro runs
    induction runs with
    | nil => exact Nat.le_refl 0
    | cons run later ih =>
      rw [List.flatMap_cons, List.flatten_cons, List.length_append, List.length_append]
      exact Nat.add_le_add (hrun run) ih
  have hsplit := hruns (lines.splitBy fun a b => a.keep == b.keep)
  rwa [List.flatten_splitBy] at hsplit

theorem suffix_lineFeed_leave_iff {placeholder : Chars} (hplain : '\n' ∉ placeholder)
    {run : List RuledLine} {keep : Bool} (hrun : IsRun run keep)
    (hlines : AreLines '\n' (run.map RuledLine.chars)) :
    ['\n'] <:+ ((leave placeholder run).map LeftLine.chars).flatten ↔
      ['\n'] <:+ (run.map RuledLine.chars).flatten := by
  cases keep with
  | true => rw [leave_kept hrun, List.map_map]; rfl
  | false =>
    rw [leave_elided hrun, ← endingOf_run hrun.nonempty hlines, List.map_singleton,
      List.flatten_singleton]
    exact suffix_lineFeed_inserted_iff hplain _

theorem suffix_lineFeed_flatMap_leave_iff {placeholder : Chars} (hplain : '\n' ∉ placeholder)
    (hnonempty : placeholder ≠ []) {runs : List (List RuledLine)}
    (hruns : ∀ run ∈ runs, ∃ keep, IsRun run keep)
    (hlines : AreLines '\n' (runs.flatten.map RuledLine.chars)) :
    ['\n'] <:+ ((runs.flatMap (leave placeholder)).map LeftLine.chars).flatten ↔
      ['\n'] <:+ (runs.flatten.map RuledLine.chars).flatten := by
  induction runs with
  | nil => rfl
  | cons run later ih =>
    obtain ⟨⟨keep, hrun⟩, hlater⟩ := List.forall_mem_cons.mp hruns
    rw [List.flatten_cons, List.map_append, areLines_append_iff] at hlines
    obtain ⟨hfirst, -, hrest⟩ := hlines
    simp only [List.flatMap_cons, List.flatten_cons, List.map_append, List.flatten_append]
    by_cases hlast : later.flatten = []
    · have hnone := (flatMap_leave_eq_nil_iff placeholder).mpr hlast
      simp only [hlast, hnone, List.map_nil, List.flatten_nil, List.append_nil]
      exact suffix_lineFeed_leave_iff hplain hrun hfirst
    · have hleft := areLines_flatMap_leave hplain hnonempty hlater hrest
      rw [singleton_suffix_append_iff, singleton_suffix_append_iff, ih hlater hrest]
      · rwa [ne_eq, hrest.flatten_eq_nil_iff, List.map_eq_nil_iff]
      · rwa [ne_eq, hleft.flatten_eq_nil_iff, List.map_eq_nil_iff, flatMap_leave_eq_nil_iff]

theorem suffix_lineFeed_outline_iff {placeholder : Chars} (hplain : '\n' ∉ placeholder)
    (hnonempty : placeholder ≠ []) {lines : List RuledLine}
    (hlines : AreLines '\n' (lines.map RuledLine.chars)) :
    ['\n'] <:+ ((outline placeholder lines).map LeftLine.chars).flatten ↔
      ['\n'] <:+ (lines.map RuledLine.chars).flatten := by
  rw [← List.flatten_splitBy (fun a b : RuledLine => a.keep == b.keep) lines] at hlines
  have hsplit := suffix_lineFeed_flatMap_leave_iff hplain hnonempty
    (fun run => exists_isRun_of_mem) hlines
  rwa [List.flatten_splitBy] at hsplit

theorem noBareLineFeed_outline {placeholder : Chars} (hplain : '\n' ∉ placeholder)
    (hnonempty : placeholder ≠ []) {lines : List RuledLine}
    (hlines : AreLines '\n' (lines.map RuledLine.chars))
    (hbare : NoBareLineFeed (lines.map RuledLine.chars).flatten) :
    NoBareLineFeed ((outline placeholder lines).map LeftLine.chars).flatten := by
  rw [noBareLineFeed_flatten_iff hlines, List.forall_mem_map] at hbare
  rw [noBareLineFeed_flatten_iff (areLines_outline hplain hnonempty hlines), List.forall_mem_map]
  intro line hline hends
  obtain ⟨ruled, hruled, rfl | rfl⟩ := of_mem_outline hline
  · exact hbare ruled hruled hends
  · have hcrlf := hbare ruled hruled ((suffix_lineFeed_inserted_iff hplain _).mp hends)
    rw [endingOf, if_pos hcrlf]
    exact List.suffix_append _ _

theorem outline_of_keep {placeholder : Chars} {lines : List RuledLine}
    (hkeep : ∀ line ∈ lines, line.keep = true) :
    outline placeholder lines = lines.map fun line => ⟨line.chars, false⟩ := by
  have hrun : ∀ run ∈ lines.splitBy (fun a b => a.keep == b.keep),
      leave placeholder run = run.map fun line => ⟨line.chars, false⟩ := by
    intro run hrun
    refine leave_kept ⟨List.ne_nil_of_mem_splitBy hrun, fun line hline => hkeep line ?_⟩
    have hmem := List.mem_flatten_of_mem hrun hline
    rwa [List.flatten_splitBy] at hmem
  rw [outline, List.flatMap, List.map_congr_left hrun, ← List.map_flatten, List.flatten_splitBy]

end CodeOutline
