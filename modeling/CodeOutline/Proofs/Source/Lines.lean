/-
  CodeOutline/Proofs/Source/Lines.lean
  ====================================
  **Lines, of bytes and of characters.**

  A line goes up to and including the next line mark; the last line may lack one.  `cutAfter` cuts
  a list in this way, and `cutAfter_eq_iff` says that there is only one way to do it: whatever is
  made of pieces that are lines (`AreLines`) has just these pieces as its lines.  So the lines of a
  text that is put together from lines need never be computed.

  The bytes of a source are cut at line feeds by `splitLines`, which is `cutAfter` for that mark
  (`splitLines_eq_cutAfter`).
-/
import CodeOutline.Proofs.Runs
import CodeOutline.Source.Render

namespace CodeOutline

variable {α : Type}

/-- The pieces of a list that end in the mark, and what remains after the last mark. -/
def cutAfter [DecidableEq α] (mark : α) (l : List α) : List (List α) :=
  l.splitBy fun a _ => a != mark

/-- Pieces that can stand beside each other as lines: each but the last ends in the mark, which
occurs nowhere else, and none is empty. -/
structure AreLines (mark : α) (lines : List (List α)) : Prop where
  nonempty : [] ∉ lines
  inside : ∀ line ∈ lines, mark ∉ line.dropLast
  ends : ∀ line ∈ lines.dropLast, [mark] <:+ line

/-! ### Lines beside each other -/

/-- Lines can be taken apart anywhere; where any follow, those before the cut are all ended. -/
theorem areLines_append_iff {mark : α} {before after : List (List α)} :
    AreLines mark (before ++ after) ↔
      AreLines mark before ∧ (after ≠ [] → ∀ line ∈ before, [mark] <:+ line) ∧
        AreLines mark after := by
  by_cases hafter : after = []
  · subst hafter
    have hnone : AreLines mark ([] : List (List α)) := ⟨by simp, by simp, by simp⟩
    simp [hnone]
  constructor
  · rintro ⟨hnonempty, hinside, hends⟩
    rw [List.mem_append, not_or] at hnonempty
    rw [List.forall_mem_append] at hinside
    rw [List.dropLast_append_of_ne_nil hafter, List.forall_mem_append] at hends
    exact ⟨⟨hnonempty.1, hinside.1, fun line hline => hends.1 line (List.dropLast_subset _ hline)⟩,
      fun _ => hends.1, hnonempty.2, hinside.2, hends.2⟩
  · rintro ⟨hbefore, hended, hlines⟩
    refine ⟨?_, ?_, ?_⟩
    · rw [List.mem_append, not_or]
      exact ⟨hbefore.nonempty, hlines.nonempty⟩
    · rw [List.forall_mem_append]
      exact ⟨hbefore.inside, hlines.inside⟩
    · rw [List.dropLast_append_of_ne_nil hafter, List.forall_mem_append]
      exact ⟨hended hafter, hlines.ends⟩

theorem AreLines.flatten_eq_nil_iff {mark : α} {lines : List (List α)}
    (hlines : AreLines mark lines) : lines.flatten = [] ↔ lines = [] := by
  rw [List.flatten_eq_nil_iff]
  constructor
  · intro hnil
    cases lines with
    | nil => rfl
    | cons line later =>
      exact absurd (hnil line List.mem_cons_self ▸ List.mem_cons_self) hlines.nonempty
  · rintro rfl
    simp

theorem suffix_flatten {mark : α} {lines : List (List α)} (hended : ∀ line ∈ lines, [mark] <:+ line)
    (hnonempty : lines.flatten ≠ []) : [mark] <:+ lines.flatten := by
  rcases List.eq_nil_or_concat lines with rfl | ⟨earlier, last, rfl⟩
  · exact absurd rfl hnonempty
  · rw [List.concat_eq_append, List.flatten_concat]
    exact (hended last (by simp)).trans (List.suffix_append _ _)

/-! ### There is one way to cut -/

variable [DecidableEq α]

theorem isChain_ne_iff (mark : α) (l : List α) :
    (l.IsChain fun a _ => (a != mark) = true) ↔ mark ∉ l.dropLast := by
  rw [isChain_left_iff]
  constructor
  · intro hall hmark
    simpa using hall mark hmark
  · intro hmark a ha
    exact bne_iff_ne.mpr fun heq => hmark (heq ▸ ha)

/-- Where no piece is empty, whether two pieces are cut apart is up to the end of the first. -/
theorem isChain_getLast_iff {mark : α} {lines : List (List α)} (hnonempty : [] ∉ lines) :
    (lines.IsChain fun a b => ∃ (ha : a ≠ []) (_ : b ≠ []), (a.getLast ha != mark) = false) ↔
      ∀ line ∈ lines.dropLast, [mark] <:+ line := by
  simp only [List.singleton_suffix_iff_getLast?_eq_some]
  rw [← isChain_left_iff]
  induction lines with
  | nil => simp
  | cons a lines ih =>
    simp only [List.mem_cons, not_or] at hnonempty
    obtain ⟨ha, hlines⟩ := hnonempty
    cases lines with
    | nil => simp
    | cons b lines =>
      have hb : b ≠ [] := fun hnil => hlines (hnil ▸ List.mem_cons_self)
      rw [List.isChain_cons_cons, List.isChain_cons_cons, ih hlines,
        List.getLast?_eq_some_getLast (Ne.symm ha)]
      refine and_congr_left fun _ => ?_
      simp [Ne.symm ha, hb]

/-- **There is one way to cut a list into lines.** -/
theorem cutAfter_eq_iff {mark : α} {l : List α} {lines : List (List α)} :
    cutAfter mark l = lines ↔ lines.flatten = l ∧ AreLines mark lines := by
  rw [cutAfter, List.splitBy_eq_iff]
  simp only [isChain_ne_iff]
  constructor
  · rintro ⟨hflat, hnonempty, hinside, hends⟩
    exact ⟨hflat.symm, hnonempty, hinside, (isChain_getLast_iff hnonempty).mp hends⟩
  · rintro ⟨hflat, hnonempty, hinside, hends⟩
    exact ⟨hflat.symm, hnonempty, hinside, (isChain_getLast_iff hnonempty).mpr hends⟩

theorem flatten_cutAfter (mark : α) (l : List α) : (cutAfter mark l).flatten = l :=
  (cutAfter_eq_iff.mp rfl).1

theorem areLines_cutAfter (mark : α) (l : List α) : AreLines mark (cutAfter mark l) :=
  (cutAfter_eq_iff.mp rfl).2

theorem cutAfter_flatten {mark : α} {lines : List (List α)} (hlines : AreLines mark lines) :
    cutAfter mark lines.flatten = lines :=
  cutAfter_eq_iff.mpr ⟨rfl, hlines⟩

/-! ### Counting lines -/

theorem count_of_inside {mark : α} {line : List α} (hinside : mark ∉ line.dropLast) :
    line.count mark = if [mark] <:+ line then 1 else 0 := by
  rcases List.eq_nil_or_concat line with rfl | ⟨rest, last, rfl⟩
  · simp
  · rw [List.concat_eq_append] at hinside ⊢
    rw [List.dropLast_concat] at hinside
    have hends : [mark] <:+ rest ++ [last] ↔ last = mark := by
      rw [List.singleton_suffix_iff_getLast?_eq_some, List.getLast?_concat, Option.some.injEq]
    rw [List.count_append, List.count_eq_zero.mpr hinside, Nat.zero_add]
    by_cases hlast : last = mark <;> simp [hends, hlast]

/-- Ended lines hold one mark each. -/
theorem count_flatten_of_ended {mark : α} {lines : List (List α)}
    (hinside : ∀ line ∈ lines, mark ∉ line.dropLast) (hended : ∀ line ∈ lines, [mark] <:+ line) :
    lines.flatten.count mark = lines.length := by
  induction lines with
  | nil => rfl
  | cons line later ih =>
    rw [List.forall_mem_cons] at hinside hended
    rw [List.flatten_cons, List.count_append, ih hinside.2 hended.2,
      count_of_inside hinside.1, if_pos hended.1, List.length_cons, Nat.add_comm]

/-- Without its last element a text lacks just the mark of its last line. -/
theorem count_dropLast_flatten {mark : α} {lines : List (List α)} (hlines : AreLines mark lines)
    (hsome : lines ≠ []) : lines.flatten.dropLast.count mark + 1 = lines.length := by
  obtain ⟨earlier, last, rfl⟩ := (List.eq_nil_or_concat lines).resolve_left hsome
  rw [List.concat_eq_append] at hlines ⊢
  obtain ⟨hearlier, hended, hlast⟩ := areLines_append_iff.mp hlines
  have hfull : last ≠ [] := fun hnil => hlast.nonempty (by simp [hnil])
  have hrest : mark ∉ last.dropLast := hlast.inside last (List.mem_singleton_self last)
  rw [List.flatten_append, List.flatten_singleton, List.dropLast_append_of_ne_nil hfull,
    List.count_append, List.count_eq_zero.mpr hrest, List.length_append,
    count_flatten_of_ended hearlier.inside (hended (List.cons_ne_nil _ _))]
  rfl

/-- There is a line for each mark, and one more when the text goes on after the last mark. -/
theorem length_of_areLines {mark : α} {lines : List (List α)} (hlines : AreLines mark lines) :
    lines.length = lines.flatten.count mark +
      if lines.flatten = [] ∨ [mark] <:+ lines.flatten then 0 else 1 := by
  rcases List.eq_nil_or_concat lines with rfl | ⟨earlier, last, rfl⟩
  · rfl
  · rw [List.concat_eq_append] at hlines ⊢
    obtain ⟨hearlier, hended, hlast⟩ := areLines_append_iff.mp hlines
    have hfull : last ≠ [] := fun hnil => hlast.nonempty (by simp [hnil])
    have hends : [mark] <:+ earlier.flatten ++ last ↔ [mark] <:+ last := by
      simp only [List.singleton_suffix_iff_getLast?_eq_some, List.getLast?_append_of_ne_nil _ hfull]
    rw [List.flatten_append, List.flatten_singleton, List.count_append, List.length_append,
      count_flatten_of_ended hearlier.inside (hended (List.cons_ne_nil _ _)),
      count_of_inside (hlast.inside last (List.mem_singleton_self last))]
    by_cases hmark : [mark] <:+ last <;> simp [hends, hmark, hfull]

/-! ### The lines of a source -/

theorem splitLines_eq_cutAfter (source : List UInt8) :
    splitLines source = cutAfter lineFeed source := by
  induction source with
  | nil => rfl
  | cons b rest ih =>
    rw [splitLines, ih]
    cases rest with
    | nil => split <;> rfl
    | cons c rest =>
      obtain ⟨line, later, hsplit⟩ := exists_splitBy_cons (fun a _ => a != lineFeed) c rest
      simp only [cutAfter, splitBy_cons_cons _ hsplit, hsplit]
      by_cases hb : b = lineFeed <;> simp [hb]

theorem flatten_splitLines (source : List UInt8) : (splitLines source).flatten = source := by
  rw [splitLines_eq_cutAfter, flatten_cutAfter]

theorem nonempty_of_mem_splitLines {source line : List UInt8} (hline : line ∈ splitLines source) :
    line ≠ [] := by
  rw [splitLines_eq_cutAfter] at hline
  exact fun hnil => (areLines_cutAfter lineFeed source).nonempty (hnil ▸ hline)

end CodeOutline
