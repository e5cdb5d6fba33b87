/-
  CodeOutline/Proofs/Source/Render.lean
  =====================================
  **The renderer leaves the outline of a text.**

  The offsets of matches may lie anywhere, also inside a character.  The ranges of the resolver do
  not: they are joined lines (`resolve_encode`), and a line of the bytes is a line of the text
  (`cutAfter_encode`).  So every range holds the bytes of whole characters, which are read back
  without a fault, and what is rendered is the outline (`renderChars_runs`).
-/
import CodeOutline.Input.Settings
import CodeOutline.Proofs.Source.Outline

namespace CodeOutline

open Text (Chars)

/-! ### The lines of a text and of its bytes -/

theorem lineFeed_notMem_dropLast_encode {line : Chars} (hline : '\n' ∉ line.dropLast) :
    lineFeed ∉ (Utf8.encode line).dropLast := by
  rcases List.eq_nil_or_concat line with rfl | ⟨rest, c, rfl⟩
  · simp
  · rw [List.concat_eq_append] at hline ⊢
    rw [List.dropLast_concat] at hline
    rw [Utf8.encode_append, Utf8.encode_cons, Utf8.encode_nil, List.append_nil,
      List.dropLast_append_of_ne_nil String.utf8EncodeChar_ne_nil, List.mem_append]
    rintro (hmem | hmem)
    · exact hline ((Utf8.mem_encode_iff (by decide) (by decide)).mp hmem)
    · -- a line feed is all of its character, and nothing is left of it
      rw [(Utf8.eq_of_mem_encodeChar (List.dropLast_subset _ hmem) (by decide)).2] at hmem
      simp at hmem

/-- The lines of the bytes are the bytes of the lines. -/
theorem cutAfter_encode (s : Chars) :
    cutAfter lineFeed (Utf8.encode s) = (cutAfter '\n' s).map Utf8.encode := by
  have hlines := areLines_cutAfter '\n' s
  have hlf : String.utf8EncodeChar '\n' = [lineFeed] := by decide
  refine cutAfter_eq_iff.mpr ⟨?_, ?_, ?_, ?_⟩
  · rw [← Utf8.encode_flatten, flatten_cutAfter]
  · intro hnil
    obtain ⟨line, hline, heq⟩ := List.mem_map.mp hnil
    exact hlines.nonempty (Utf8.encode_eq_nil_iff.mp heq ▸ hline)
  · rw [List.forall_mem_map]
    exact fun line hline => lineFeed_notMem_dropLast_encode (hlines.inside line hline)
  · rw [← List.map_dropLast, List.forall_mem_map]
    intro line hline
    have hends := hlines.ends line hline
    rw [List.singleton_suffix_iff_getLast?_eq_some] at hends ⊢
    exact (Utf8.getLast?_encode_iff hlf (by decide)).mpr hends

/-- The bytes of a line, with its decision. -/
def RuledLine.range (line : RuledLine) : Range :=
  ⟨line.start, line.start + (Utf8.encode line.chars).length, line.keep⟩

theorem lineRulings_encode (keep : Int → Prop) [DecidablePred keep] (start : Int)
    (lines : List Chars) :
    lineRulings keep start (lines.map Utf8.encode) =
      (ruledLines keep start lines).map RuledLine.range := by
  induction lines generalizing start with
  | nil => rfl
  | cons line later ih =>
    rw [List.map_cons, lineRulings, ruledLines, List.map_cons, ih]
    rfl

theorem chars_ruledLines (keep : Int → Prop) [DecidablePred keep] (start : Int)
    (lines : List Chars) : (ruledLines keep start lines).map RuledLine.chars = lines := by
  induction lines generalizing start with
  | nil => rfl
  | cons line later ih => rw [ruledLines, List.map_cons, ih]

/-- The lines of a text with their decisions. -/
def ruledText (keep : Int → Prop) [DecidablePred keep] (text : Chars) : List RuledLine :=
  ruledLines keep 0 (cutAfter '\n' text)

/-! ### Slices -/

theorem clampOffset_natCast {length n : Nat} (hle : n ≤ length) :
    clampOffset length (n : Int) = n := by
  rw [clampOffset, if_neg (by omega), Int.toNat_natCast, Nat.min_eq_left hle]

theorem slice_middle (before piece after : List UInt8) :
    slice (before ++ piece ++ after) before.length (before.length + piece.length : Nat) =
      piece := by
  simp only [slice]
  rw [clampOffset_natCast (by simp), clampOffset_natCast (by simp)]
  simp

/-! ### Runs of lines -/

theorem stop_of_adjoin {lines : List RuledLine} {start stop : Int}
    (hadjoin : Adjoin start stop (lines.map RuledLine.range)) :
    stop = start + (Utf8.encode (lines.map RuledLine.chars).flatten).length := by
  induction lines generalizing start with
  | nil => simpa [Adjoin] using hadjoin.symm
  | cons line later ih =>
    obtain ⟨hstart, -, hlater⟩ := hadjoin
    rw [ih hlater, List.map_cons, List.flatten_cons, Utf8.encode_append, List.length_append]
    simp only [RuledLine.range] at hstart ⊢
    omega

theorem renderRange_run {placeholder : Chars} {run : List RuledLine} {keep : Bool}
    (hrun : IsRun run keep) (hlines : AreLines '\n' (run.map RuledLine.chars))
    {source : List UInt8} (before : List UInt8) {after : List UInt8}
    (hsource : source = before ++ Utf8.encode (run.map RuledLine.chars).flatten ++ after)
    {stop : Int} (hadjoin : Adjoin before.length stop (run.map RuledLine.range)) :
    renderRange source placeholder ⟨before.length, stop, keep⟩ =
      .ok ((leave placeholder run).map LeftLine.chars).flatten := by
  have hslice :
      slice source before.length stop = Utf8.encode (run.map RuledLine.chars).flatten := by
    rw [hsource, stop_of_adjoin hadjoin]
    exact slice_middle _ _ _
  rw [renderRange]
  cases keep with
  | true =>
    simp only [hslice, if_true]
    rw [Utf8.decode_encode, leave_kept hrun, List.map_map]
    rfl
  | false =>
    simp only [hslice, Bool.false_eq_true, if_false]
    rw [lineEnding_encode, endingOf_run hrun.nonempty hlines, leave_elided hrun]
    simp

theorem renderChars_runs {placeholder : Chars} {runs : List (List RuledLine)}
    (hruns : ∀ run ∈ runs, ∃ keep, IsRun run keep)
    (hlines : AreLines '\n' (runs.flatten.map RuledLine.chars)) {source : List UInt8}
    (before : List UInt8)
    (hsource : source = before ++ Utf8.encode (runs.flatten.map RuledLine.chars).flatten)
    {stop : Int} (hadjoin : Adjoin before.length stop (runs.flatten.map RuledLine.range)) :
    renderChars source placeholder ((runs.map (List.map RuledLine.range)).filterMap Range.overRun) =
      .ok ((runs.flatMap (leave placeholder)).map LeftLine.chars).flatten := by
  -- `before` grows by the bytes of a run with every range that is rendered
  induction runs generalizing before with
  | nil => rfl
  | cons run later ih =>
    obtain ⟨⟨keep, hrun⟩, hlater⟩ := List.forall_mem_cons.mp hruns
    simp only [List.flatten_cons, List.map_append, List.flatten_append, Utf8.encode_append]
      at hlines hsource hadjoin
    rw [← List.append_assoc] at hsource
    obtain ⟨hfirst, -, hrest⟩ := areLines_append_iff.mp hlines
    obtain ⟨between, hhere, hthere⟩ := adjoin_append_iff.mp hadjoin
    have hover : Range.overRun (run.map RuledLine.range) = some ⟨before.length, between, keep⟩ :=
      overRun_of_adjoin hhere (by simpa using hrun.nonempty)
        (by rw [List.forall_mem_map]; exact hrun.alike)
    have hbetween : between = (before ++ Utf8.encode (run.map RuledLine.chars).flatten).length := by
      rw [stop_of_adjoin hhere, List.length_append, Int.natCast_add]
    rw [hbetween] at hthere
    rw [List.map_cons, List.filterMap_cons_some hover, renderChars,
      renderRange_run hrun hfirst before hsource hhere, ih hlater hrest _ hsource hthere]
    simp only [List.flatMap_cons, List.map_append, List.flatten_append]
    rfl

/-! ### The partition of a text -/

/-- The ranges of the resolver are the longest runs of lines with one decision. -/
theorem resolve_encode (text : Chars) (claims : List Match) (retain : Bool) :
    resolve (Utf8.encode text) claims retain =
      joinRuns ((ruledText (KeptAt retain claims) text).map RuledLine.range) := by
  rw [resolve_eq_joinRuns, splitLines_eq_cutAfter, cutAfter_encode, lineRulings_encode, ruledText]

theorem areLines_ruledText (keep : Int → Prop) [DecidablePred keep] (text : Chars) :
    AreLines '\n' ((ruledText keep text).map RuledLine.chars) := by
  rw [ruledText, chars_ruledLines]
  exact areLines_cutAfter '\n' text

theorem flatten_ruledText (keep : Int → Prop) [DecidablePred keep] (text : Chars) :
    ((ruledText keep text).map RuledLine.chars).flatten = text := by
  rw [ruledText, chars_ruledLines, flatten_cutAfter]

theorem adjoin_ruledText (keep : Int → Prop) [DecidablePred keep] (text : Chars) :
    ∃ stop, Adjoin 0 stop ((ruledText keep text).map RuledLine.range) := by
  rw [ruledText, ← lineRulings_encode]
  exact ⟨_, adjoin_lineRulings keep 0 _⟩

/-- **Rendering the partition of a text never fails, and leaves its outline.** -/
theorem renderChars_resolve (text : Chars) (claims : List Match) (retain : Bool)
    (placeholder : Chars) :
    renderChars (Utf8.encode text) placeholder (resolve (Utf8.encode text) claims retain) =
      .ok ((outline placeholder (ruledText (KeptAt retain claims) text)).map
        LeftLine.chars).flatten := by
  obtain ⟨stop, hadjoin⟩ := adjoin_ruledText (KeptAt retain claims) text
  have hlines := areLines_ruledText (KeptAt retain claims) text
  have hflat := flatten_ruledText (KeptAt retain claims) text
  rw [resolve_encode, joinRuns, splitBy_map, outline]
  rw [← List.flatten_splitBy (fun a b : RuledLine => a.keep == b.keep)
    (ruledText (KeptAt retain claims) text)] at hadjoin hlines hflat
  exact renderChars_runs (fun run => exists_isRun_of_mem) hlines [] (by rw [hflat]; rfl) hadjoin

/-- What is left of a text is its outline, line for line: every kept line as it is, in order, and
one line for each longest run of elided ones. -/
structure LeavesOutline (placeholder : Chars) (lines : List RuledLine) (text output : Chars) :
    Prop where
  eq_outline : output = ((outline placeholder lines).map LeftLine.chars).flatten
  lines_eq : cutAfter '\n' output = (outline placeholder lines).map LeftLine.chars
  eq_text : (∀ line ∈ lines, line.keep = true) → output = text
  apart : (outline placeholder lines).IsChain fun a b => a.inserted = true → b.inserted = false
  length_le : (cutAfter '\n' output).length ≤ (cutAfter '\n' text).length
  ended_iff : ['\n'] <:+ output ↔ ['\n'] <:+ text
  noBareLineFeed : NoBareLineFeed text → NoBareLineFeed output

theorem plain_of_isPlaceholder {placeholder : String}
    (hplaceholder : isPlaceholder placeholder = true) :
    placeholder.toList ≠ [] ∧ '\n' ∉ placeholder.toList := by
  simp only [isPlaceholder, Bool.and_eq_true, bne_iff_ne, Bool.not_eq_true',
    List.contains_eq_mem, decide_eq_false_iff_not] at hplaceholder
  obtain ⟨⟨hnonempty, hplain⟩, -⟩ := hplaceholder
  exact ⟨by simpa using hnonempty, hplain⟩

theorem leavesOutline_outline {placeholder : Chars} (hnonempty : placeholder ≠ [])
    (hplain : '\n' ∉ placeholder) (keep : Int → Prop) [DecidablePred keep] (text : Chars) :
    LeavesOutline placeholder (ruledText keep text) text
      ((outline placeholder (ruledText keep text)).map LeftLine.chars).flatten := by
  have hlines := areLines_ruledText keep text
  have hflat := flatten_ruledText keep text
  have hcut := cutAfter_flatten (areLines_outline hplain hnonempty hlines)
  refine ⟨rfl, hcut, fun hkeep => ?_, isChain_outline _ _, ?_, ?_, fun hbare => ?_⟩
  · rw [outline_of_keep hkeep, List.map_map]
    exact hflat
  · have hle := length_outline_le placeholder (ruledText keep text)
    rwa [hcut, List.length_map, ← chars_ruledLines keep 0 (cutAfter '\n' text), List.length_map]
  · rw [suffix_lineFeed_outline_iff hplain hnonempty hlines, hflat]
  · exact noBareLineFeed_outline hplain hnonempty hlines (by rwa [hflat])

theorem render_resolve (text : String) (claims : List Match) (retain : Bool)
    (placeholder : String) :
    render (Utf8.encode text.toList) (resolve (Utf8.encode text.toList) claims retain) placeholder =
      .ok (String.ofList ((outline placeholder.toList
        (ruledText (KeptAt retain claims) text.toList)).map LeftLine.chars).flatten) := by
  rw [render, renderChars_resolve]
  rfl

theorem exists_ruled_of_mem_placeLines (keep : Int → Prop) [DecidablePred keep] {start : Int}
    {lines : List Chars} {line : Line} (hline : line ∈ placeLines start (lines.map Utf8.encode)) :
    ∃ ruled ∈ ruledLines keep start lines, Utf8.encode ruled.chars = line.bytes ∧
      ruled.keep = decide (KeptLine keep line.start line.bytes) := by
  induction lines generalizing start with
  | nil => simp [placeLines] at hline
  | cons chars later ih =>
    rw [List.map_cons, placeLines, List.mem_cons] at hline
    rcases hline with rfl | hline
    · exact ⟨_, List.mem_cons_self, rfl, rfl⟩
    · obtain ⟨ruled, hruled, hsame⟩ := ih hline
      exact ⟨ruled, List.mem_cons_of_mem _ hruled, hsame⟩

/-- A kept line of the source is a line of what is rendered. -/
theorem mem_splitLines_of_kept {text output placeholder : String} {claims : List Match}
    {retain : Bool} {line : Line} (hplaceholder : isPlaceholder placeholder = true)
    (hrender : render (Utf8.encode text.toList) (resolve (Utf8.encode text.toList) claims retain)
      placeholder = .ok output)
    (hline : line ∈ linesOf (Utf8.encode text.toList))
    (hkept : KeptLine (KeptAt retain claims) line.start line.bytes) :
    line.bytes ∈ splitLines (Utf8.encode output.toList) := by
  obtain ⟨hnonempty, hplain⟩ := plain_of_isPlaceholder hplaceholder
  rw [linesOf, splitLines_eq_cutAfter, cutAfter_encode] at hline
  obtain ⟨ruled, hruled, hbytes, hkeep⟩ :=
    exists_ruled_of_mem_placeLines (KeptAt retain claims) hline
  have houtline := leavesOutline_outline hnonempty hplain (KeptAt retain claims) text.toList
  rw [render_resolve, Except.ok.injEq] at hrender
  rw [← hrender, String.toList_ofList, splitLines_eq_cutAfter, cutAfter_encode, houtline.lines_eq,
    ← hbytes]
  refine List.mem_map_of_mem (List.mem_map.mpr ⟨⟨ruled.chars, false⟩, ?_, rfl⟩)
  exact mem_outline_of_keep hruled (by simp [hkeep, hkept])

/-- **A partition of a text renders to its outline**, whatever was claimed. -/
theorem render_resolve_leavesOutline (text : String) (claims : List Match) (retain : Bool)
    (placeholder : String) (hplaceholder : isPlaceholder placeholder = true) :
    resolve (Utf8.encode text.toList) claims retain =
        joinRuns ((ruledText (KeptAt retain claims) text.toList).map RuledLine.range) ∧
      ∃ output : String,
        render (Utf8.encode text.toList) (resolve (Utf8.encode text.toList) claims retain)
          placeholder = .ok output ∧
        LeavesOutline placeholder.toList (ruledText (KeptAt retain claims) text.toList)
          text.toList output.toList := by
  obtain ⟨hnonempty, hplain⟩ := plain_of_isPlaceholder hplaceholder
  refine ⟨resolve_encode _ _ _, _, render_resolve _ _ _ _, ?_⟩
  rw [String.toList_ofList]
  exact leavesOutline_outline hnonempty hplain _ _

/-- Here the claim for a body begins inside the first character. -/
theorem render_resolve_inside_character :
    isPlaceholder defaultPlaceholder = true ∧
      render (Utf8.encode "é(\r\n1)\r\nz".toList)
        (resolve (Utf8.encode "é(\r\n1)\r\nz".toList)
          [⟨1, 9, .body, 10, "block", by decide, by decide⟩] true) defaultPlaceholder =
        .ok "é(\r\n⋮----\r\nz" := by
  have hplaceholder : isPlaceholder defaultPlaceholder = true := by decide
  obtain ⟨-, output, hrender, houtline⟩ := render_resolve_leavesOutline "é(\r\n1)\r\nz"
    [⟨1, 9, .body, 10, "block", by decide, by decide⟩] true defaultPlaceholder hplaceholder
  refine ⟨hplaceholder, hrender.trans (congrArg _ (String.toList_inj.mp ?_))⟩
  rw [houtline.eq_outline]
  decide

end CodeOutline
