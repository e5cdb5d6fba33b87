/-
  CodeOutline/Proofs/Source/Hidden.lean
  =====================================
  **Elided text does not show.**

  Two sources are compared that differ only in what stands on elided lines.  The resolver reads the
  bytes of such a line, and the renderer reads how an elided range ends, but both only ask which
  bytes are blank and which blanks they are.  `SameBlank` relates bytes that answer this alike;
  it carries over to lines (`forall₂_splitLines`), to the decisions of lines
  (`resolve_of_sameBlanks`) and to line endings (`lineEnding_of_sameBlanks`).

  So the partition is the same for both sources, and so is what is put in for an elided range.  A
  kept range holds no line that differs.
-/
import CodeOutline.Proofs.Coverage.Partition
import CodeOutline.Proofs.Source.Render

namespace CodeOutline

/-- The second source differs from the first one only in bytes that are not blank, in both, and
that stand on lines which the ranges elide in the first. -/
structure HidesIn (ranges : List Range) (first second : List UInt8) : Prop where
  length_eq : first.length = second.length
  hidden : ∀ i : Fin first.length, ∀ other ∈ second[i.val]?, first[i] ≠ other →
    isBlankByte first[i] = false ∧ isBlankByte other = false ∧
      ∃ line ∈ linesOf first, (line.start ≤ i.val ∧ i.val < line.stop) ∧
        DecidesLine ranges line false

/-! ### Bytes that are blank alike -/

/-- The bytes are the same, or neither is blank. -/
def SameBlank (x y : UInt8) : Prop :=
  x = y ∨ isBlankByte x = false ∧ isBlankByte y = false

namespace SameBlank

variable {x y : UInt8}

theorem symm (hsame : SameBlank x y) : SameBlank y x := by
  rcases hsame with heq | ⟨hx, hy⟩
  · exact .inl heq.symm
  · exact .inr ⟨hy, hx⟩

theorem isBlankByte_eq (hsame : SameBlank x y) : isBlankByte x = isBlankByte y := by
  rcases hsame with rfl | ⟨hx, hy⟩
  · rfl
  · rw [hx, hy]

/-- A byte that is blank can be told from all others. -/
theorem eq_iff {mark : UInt8} (hmark : isBlankByte mark = true) (hsame : SameBlank x y) :
    x = mark ↔ y = mark := by
  rcases hsame with rfl | ⟨hx, hy⟩
  · rfl
  · have hne : ∀ z, isBlankByte z = false → z ≠ mark := by
      intro z hz heq
      rw [heq, hmark] at hz
      cases hz
    exact iff_of_false (hne x hx) (hne y hy)

end SameBlank

/-- Byte for byte, the sources are blank alike. -/
abbrev SameBlanks (first second : List UInt8) : Prop :=
  List.Forall₂ SameBlank first second

theorem sameBlanks_of_hidesIn {ranges : List Range} {first second : List UInt8}
    (hhides : HidesIn ranges first second) : SameBlanks first second := by
  apply List.forall₂_iff_get.mpr
  refine ⟨hhides.length_eq, fun i hfirst hsecond => ?_⟩
  by_cases heq : first.get ⟨i, hfirst⟩ = second.get ⟨i, hsecond⟩
  · exact .inl heq
  · have hother : second[i]? = some (second.get ⟨i, hsecond⟩) := List.getElem?_eq_getElem hsecond
    obtain ⟨hx, hy, -⟩ := hhides.hidden ⟨i, hfirst⟩ _ hother heq
    exact .inr ⟨hx, hy⟩

/-! ### The partition -/

theorem forall₂_splitLines {first second : List UInt8} (hsame : SameBlanks first second) :
    List.Forall₂ SameBlanks (splitLines first) (splitLines second) := by
  induction hsame with
  | nil => exact .nil
  | @cons x y first second hxy hrest ih =>
    rw [splitLines, splitLines]
    by_cases hx : x = lineFeed
    · have hy : y = lineFeed := (hxy.eq_iff (by decide)).mp hx
      rw [if_pos hx, if_pos hy]
      exact .cons (.cons hxy .nil) ih
    · have hy : y ≠ lineFeed := fun heq => hx ((hxy.eq_iff (by decide)).mpr heq)
      rw [if_neg hx, if_neg hy]
      -- both sources have a line left, or neither has
      generalize splitLines first = lines, splitLines second = others at ih ⊢
      cases ih with
      | nil => exact .cons (.cons hxy .nil) .nil
      | cons hline hlater => exact .cons (.cons hxy hline) hlater

theorem keptLine_of_sameBlanks {keep : Int → Prop} {start : Int} {bytes others : List UInt8}
    (hsame : SameBlanks bytes others) (hkept : KeptLine keep start bytes) :
    KeptLine keep start others := by
  have hlength := hsame.length_eq
  have hblank : ∀ k (hk : k < bytes.length) (hk' : k < others.length),
      isBlankByte bytes[k] = isBlankByte others[k] :=
    fun k hk hk' => ((List.forall₂_iff_get.mp hsame).2 k hk hk').isBlankByte_eq
  rcases hkept with ⟨k, hshows, hk⟩ | ⟨hall, k, hk⟩
  · exact .inl ⟨⟨k, hlength ▸ k.isLt⟩, (hblank k k.isLt _).symm.trans hshows, hk⟩
  · refine .inr ⟨?_, ⟨k, hlength ▸ k.isLt⟩, hk⟩
    intro b hb
    obtain ⟨j, hj, rfl⟩ := List.mem_iff_getElem.mp hb
    rw [← hblank j (hlength ▸ hj) hj]
    exact hall _ (List.getElem_mem _)

theorem keptLine_sameBlanks_iff {keep : Int → Prop} {start : Int} {bytes others : List UInt8}
    (hsame : SameBlanks bytes others) : KeptLine keep start bytes ↔ KeptLine keep start others := by
  have hback : List.Forall₂ (flip SameBlank) bytes others := hsame.imp fun _ _ => SameBlank.symm
  exact ⟨keptLine_of_sameBlanks hsame, keptLine_of_sameBlanks hback.flip⟩

theorem lineRulings_of_sameBlanks (keep : Int → Prop) [DecidablePred keep] {start : Int}
    {lines others : List (List UInt8)} (hsame : List.Forall₂ SameBlanks lines others) :
    lineRulings keep start lines = lineRulings keep start others := by
  induction hsame generalizing start with
  | nil => rfl
  | cons hline hlater ih =>
    rw [lineRulings, lineRulings, hline.length_eq, ih]
    simp only [keptLine_sameBlanks_iff hline]

/-- The partition of a source depends on its blanks alone. -/
theorem resolve_of_sameBlanks {first second : List UInt8} (hsame : SameBlanks first second)
    (claims : List Match) (retain : Bool) :
    resolve first claims retain = resolve second claims retain := by
  rw [resolve_eq_coalesce, resolve_eq_coalesce]
  exact congrArg Range.coalesce (lineRulings_of_sameBlanks _ (forall₂_splitLines hsame))

/-! ### The text -/

theorem lineEnding_of_sameBlanks {bytes others : List UInt8} (hsame : SameBlanks bytes others) :
    lineEnding bytes = lineEnding others := by
  have hreverse := List.forall₂_reverse_iff.mpr hsame
  unfold lineEnding
  generalize bytes.reverse = ends, others.reverse = otherEnds at hreverse ⊢
  cases hreverse with
  | nil => rfl
  | cons hlast hrest =>
    have hfeed : isBlankByte lineFeed = true := by decide
    have hreturn : isBlankByte carriageReturn = true := by decide
    simp only [hlast.eq_iff hfeed]
    cases hrest with
    | nil => rfl
    | cons hbefore _ => simp only [List.head?_cons, Option.some.injEq, hbefore.eq_iff hreturn]

theorem slice_of_sameBlanks {first second : List UInt8} (hsame : SameBlanks first second)
    (start stop : Int) : SameBlanks (slice first start stop) (slice second start stop) := by
  unfold slice
  rw [hsame.length_eq]
  exact List.forall₂_take _ (List.forall₂_drop _ hsame)

theorem slice_congr {first second : List UInt8} {start stop : Int} (hstart : 0 ≤ start)
    (hle : start ≤ stop)
    (hsame : ∀ i, start ≤ i → i < stop → byteAt? first i = byteAt? second i) :
    slice first start stop = slice second start stop := by
  apply List.ext_getElem?
  intro k
  have hstop := Int.le_trans hstart hle
  rw [getElem?_slice hstart hstop, getElem?_slice hstart hstop]
  split
  · rename_i hlt
    exact hsame _ (by omega) hlt
  · rfl

section

variable {claims : List Match} {retain : Bool} {first second : List UInt8}
  (hhides : HidesIn (resolve first claims retain) first second)

include hhides

/-- A kept range is the same text in both sources. -/
theorem slice_of_kept {r : Range} (hr : r ∈ resolve first claims retain) (hkeep : r.keep = true) :
    slice first r.start r.stop = slice second r.start r.stop := by
  obtain ⟨hadjoin, hfull, -⟩ := partitions_resolve first claims retain
  have hstart := start_le_of_adjoin hadjoin r hr
  apply slice_congr hstart (Int.le_of_lt (hfull r hr))
  intro i hle hlt
  have hnonneg := Int.le_trans hstart hle
  rw [byteAt?_of_nonneg hnonneg, byteAt?_of_nonneg hnonneg]
  by_cases hi : i.toNat < first.length
  · have hother : second[i.toNat]? = some (second.get ⟨i.toNat, hhides.length_eq ▸ hi⟩) :=
      List.getElem?_eq_getElem _
    rw [List.getElem?_eq_getElem hi, hother]
    by_contra hdiffers
    obtain ⟨-, -, line, -, ⟨hfrom, huntil⟩, range, hrange, helided, hover, hunder⟩ :=
      hhides.hidden ⟨i.toNat, hi⟩ _ hother fun heq => hdiffers (congrArg some heq)
    -- the byte would lie both in a kept and in an elided range
    have hsame : r = range := eq_of_adjoin hadjoin hr hrange ⟨hle, hlt⟩ (by simp at *; omega)
    rw [hsame, helided] at hkeep
    cases hkeep
  · rw [List.getElem?_eq_none (Nat.le_of_not_lt hi),
      List.getElem?_eq_none (hhides.length_eq ▸ Nat.le_of_not_lt hi)]

theorem renderRange_of_hidesIn (placeholder : Text.Chars) {r : Range}
    (hr : r ∈ resolve first claims retain) :
    renderRange first placeholder r = renderRange second placeholder r := by
  unfold renderRange
  by_cases hkeep : r.keep = true
  · simp only [slice_of_kept hhides hr hkeep]
  · have hblanks := slice_of_sameBlanks (sameBlanks_of_hidesIn hhides) r.start r.stop
    simp only [if_neg hkeep, lineEnding_of_sameBlanks hblanks]

end

theorem renderChars_congr {first second : List UInt8} {placeholder : Text.Chars}
    {ranges : List Range}
    (hsame : ∀ r ∈ ranges, renderRange first placeholder r = renderRange second placeholder r) :
    renderChars first placeholder ranges = renderChars second placeholder ranges := by
  induction ranges with
  | nil => rfl
  | cons r later ih =>
    obtain ⟨hr, hlater⟩ := List.forall_mem_cons.mp hsame
    rw [renderChars, renderChars, hr, ih hlater]

/-- **What stands on elided lines does not show.**  Texts that differ nowhere else are parted alike
and leave the same text. -/
theorem render_resolve_hidden (first second : String) (claims : List Match) (retain : Bool)
    (placeholder : String)
    (hhides : HidesIn (resolve (Utf8.encode first.toList) claims retain)
      (Utf8.encode first.toList) (Utf8.encode second.toList)) :
    resolve (Utf8.encode first.toList) claims retain =
        resolve (Utf8.encode second.toList) claims retain ∧
      ∃ output : String,
        render (Utf8.encode first.toList) (resolve (Utf8.encode first.toList) claims retain)
          placeholder = .ok output ∧
        render (Utf8.encode second.toList) (resolve (Utf8.encode second.toList) claims retain)
          placeholder = .ok output := by
  have hparts := resolve_of_sameBlanks (sameBlanks_of_hidesIn hhides) claims retain
  have hfirst := render_resolve first claims retain placeholder
  refine ⟨hparts, _, hfirst, ?_⟩
  rw [← hparts, ← hfirst, render, render,
    renderChars_congr fun r hr => renderRange_of_hidesIn hhides placeholder.toList hr]

/-- A body over the second line, whose first blank is kept by a match of higher priority. -/
def blankAnchored : List Match :=
  [⟨2, 8, .body, 10, "block", by decide, by decide⟩,
    ⟨2, 3, .nameAnchor, 11, "name", by decide, by decide⟩]

/-- Here a character of two bytes stands where the other text has two characters. -/
theorem render_resolve_hidden_character :
    HidesIn (resolve (Utf8.encode "a\n =é\r\nb".toList) blankAnchored true)
        (Utf8.encode "a\n =é\r\nb".toList) (Utf8.encode "a\n +12\r\nb".toList) ∧
      render (Utf8.encode "a\n +12\r\nb".toList)
        (resolve (Utf8.encode "a\n +12\r\nb".toList) blankAnchored true) defaultPlaceholder =
        .ok "a\n⋮----\r\nb" := by
  have hranges : resolve (Utf8.encode "a\n =é\r\nb".toList) blankAnchored true =
      [⟨0, 2, true⟩, ⟨2, 8, false⟩, ⟨8, 9, true⟩] := by
    rw [resolve_eq_lineRuns]
    decide
  have hhides : HidesIn (resolve (Utf8.encode "a\n =é\r\nb".toList) blankAnchored true)
      (Utf8.encode "a\n =é\r\nb".toList) (Utf8.encode "a\n +12\r\nb".toList) := by
    rw [hranges]
    exact ⟨by decide, by decide +kernel⟩
  obtain ⟨-, output, hfirst, hsecond⟩ :=
    render_resolve_hidden "a\n =é\r\nb" "a\n +12\r\nb" blankAnchored true defaultPlaceholder hhides
  have houtput : render (Utf8.encode "a\n =é\r\nb".toList)
      [⟨0, 2, true⟩, ⟨2, 8, false⟩, ⟨8, 9, true⟩] defaultPlaceholder =
        .ok "a\n⋮----\r\nb" := by rfl
  rw [hranges, houtput] at hfirst
  exact ⟨hhides, hsecond.trans hfirst.symm⟩

end CodeOutline
