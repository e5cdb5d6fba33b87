/-
  CodeOutline/Proofs/Source/Ending.lean
  =====================================
  **Line endings.**

  A line ends in a carriage return and a line feed, in a line feed alone, or, when it is the last
  one, in neither.  `endingOf` reads this off the characters, the renderer off the bytes, and both
  find the same (`lineEnding_encode`).

  A text whose line feeds all follow a carriage return is one whose ended lines all end in both
  (`noBareLineFeed_flatten_iff`), so it is enough to look at the lines one by one.
-/
import CodeOutline.Proofs.Source.Lines
import CodeOutline.Proofs.Text.Utf8
import CodeOutline.Source.Render

namespace CodeOutline

open Text (Chars)

/-- How a text ends: in a carriage return and a line feed, in a line feed, or in neither. -/
def endingOf (line : Chars) : Chars :=
  if ['\r', '\n'] <:+ line then ['\r', '\n'] else if ['\n'] <:+ line then ['\n'] else []

/-- No line feed stands without a carriage return before it. -/
def NoBareLineFeed (text : Chars) : Prop :=
  ∀ before after, text = before ++ '\n' :: after → ['\r'] <:+ before

theorem endingOf_cases (line : Chars) :
    (['\r', '\n'] <:+ line ∧ endingOf line = ['\r', '\n']) ∨
      (['\n'] <:+ line ∧ endingOf line = ['\n']) ∨
        (¬ ['\n'] <:+ line ∧ endingOf line = []) := by
  unfold endingOf
  by_cases hcrlf : ['\r', '\n'] <:+ line
  · exact .inl ⟨hcrlf, if_pos hcrlf⟩
  · rw [if_neg hcrlf]
    by_cases hlf : ['\n'] <:+ line
    · exact .inr (.inl ⟨hlf, if_pos hlf⟩)
    · exact .inr (.inr ⟨hlf, if_neg hlf⟩)

/-! ### Suffixes -/

theorem suffix_lineFeed_iff {line : Chars} : ['\n'] <:+ line ↔ ∃ rest, line = rest ++ ['\n'] :=
  ⟨fun ⟨rest, heq⟩ => ⟨rest, heq.symm⟩, fun ⟨rest, heq⟩ => ⟨rest, heq.symm⟩⟩

theorem suffix_crlf_concat_iff {rest : Chars} :
    ['\r', '\n'] <:+ rest ++ ['\n'] ↔ ['\r'] <:+ rest := by
  show ['\r'] ++ ['\n'] <:+ rest ++ ['\n'] ↔ ['\r'] <:+ rest
  exact List.suffix_append_self_iff

theorem suffix_lineFeed_of_crlf {line : Chars} (hcrlf : ['\r', '\n'] <:+ line) :
    ['\n'] <:+ line :=
  (List.suffix_cons '\r' ['\n']).trans hcrlf

theorem singleton_suffix_append_iff {α : Type} {a : α} {before line : List α} (hline : line ≠ []) :
    [a] <:+ before ++ line ↔ [a] <:+ line := by
  rw [List.singleton_suffix_iff_getLast?_eq_some, List.singleton_suffix_iff_getLast?_eq_some,
    List.getLast?_append_of_ne_nil _ hline]

/-- A carriage return belongs to the line feed after it, not to the line before. -/
theorem suffix_crlf_append_iff {before line : Chars} (hbefore : before ≠ [] → ['\n'] <:+ before)
    (hline : line ≠ []) : ['\r', '\n'] <:+ before ++ line ↔ ['\r', '\n'] <:+ line := by
  refine ⟨fun hcrlf => ?_, fun hcrlf => hcrlf.trans (List.suffix_append before line)⟩
  have hlf := (singleton_suffix_append_iff hline).mp (suffix_lineFeed_of_crlf hcrlf)
  obtain ⟨rest, rfl⟩ := suffix_lineFeed_iff.mp hlf
  rw [← List.append_assoc, suffix_crlf_concat_iff] at hcrlf
  rw [suffix_crlf_concat_iff]
  by_cases hrest : rest = []
  · -- the text before would end in both marks
    subst hrest
    rw [List.append_nil] at hcrlf
    have hended := hbefore (by rintro rfl; simp at hcrlf)
    rw [List.singleton_suffix_iff_getLast?_eq_some] at hcrlf hended
    rw [hcrlf] at hended
    exact absurd hended (by decide)
  · exact (singleton_suffix_append_iff hrest).mp hcrlf

theorem endingOf_append {before line : Chars} (hbefore : before ≠ [] → ['\n'] <:+ before)
    (hline : line ≠ []) : endingOf (before ++ line) = endingOf line := by
  simp only [endingOf, suffix_crlf_append_iff hbefore hline, singleton_suffix_append_iff hline]

/-! ### The bytes of an ending -/

theorem endingOf_concat (rest : Chars) :
    endingOf (rest ++ ['\n']) = if ['\r'] <:+ rest then ['\r', '\n'] else ['\n'] := by
  simp only [endingOf, suffix_crlf_concat_iff, List.suffix_append, if_true]

theorem endingOf_of_open {line : Chars} (hopen : ¬ ['\n'] <:+ line) : endingOf line = [] := by
  rw [endingOf, if_neg (fun hcrlf => hopen (suffix_lineFeed_of_crlf hcrlf)), if_neg hopen]

theorem lineEnding_of_ne {bytes : List UInt8} (hopen : bytes.getLast? ≠ some lineFeed) :
    lineEnding bytes = [] := by
  rw [← List.head?_reverse] at hopen
  unfold lineEnding
  split
  · rename_i b rest hreverse
    rw [hreverse, List.head?_cons] at hopen
    exact if_neg fun heq => hopen (congrArg some heq)
  · rfl

theorem lineEnding_encode (s : Chars) : lineEnding (Utf8.encode s) = endingOf s := by
  have hlf : String.utf8EncodeChar '\n' = [lineFeed] := by decide
  have hcr : String.utf8EncodeChar '\r' = [carriageReturn] := by decide
  by_cases hends : ['\n'] <:+ s
  · obtain ⟨rest, rfl⟩ := suffix_lineFeed_iff.mp hends
    have hreturn := Utf8.getLast?_encode_iff hcr (by decide) (s := rest)
    simp [lineEnding, endingOf_concat, hlf, hreturn, List.singleton_suffix_iff_getLast?_eq_some]
  · rw [endingOf_of_open hends, lineEnding_of_ne]
    rwa [ne_eq, Utf8.getLast?_encode_iff hlf (by decide),
      ← List.singleton_suffix_iff_getLast?_eq_some]

/-! ### Bare line feeds -/

theorem eq_concat_of_inside {line before after : Chars} (hinside : '\n' ∉ line.dropLast)
    (heq : line = before ++ '\n' :: after) : line = before ++ ['\n'] := by
  cases after with
  | nil => exact heq
  | cons c after =>
    rw [heq, List.dropLast_append_of_ne_nil (List.cons_ne_nil _ _)] at hinside
    simp at hinside

theorem noBareLineFeed_flatten {lines : List Chars}
    (hinside : ∀ line ∈ lines, '\n' ∉ line.dropLast)
    (hends : ∀ line ∈ lines, ['\n'] <:+ line → ['\r', '\n'] <:+ line) :
    NoBareLineFeed lines.flatten := by
  induction lines with
  | nil => intro before after heq; simp at heq
  | cons line later ih =>
    rw [List.forall_mem_cons] at hinside hends
    have hlater := ih hinside.2 hends.2
    intro before after heq
    rw [List.flatten_cons] at heq
    rcases List.append_eq_append_iff.mp heq with ⟨rest, rfl, hrest⟩ | ⟨rest, hline, hrest⟩
    · exact (hlater rest after hrest).trans (List.suffix_append line rest)
    · cases rest with
      | nil => simpa using hlater [] after (by simpa using hrest.symm)
      | cons c rest =>
        obtain ⟨rfl, -⟩ := List.cons.inj hrest
        rw [eq_concat_of_inside hinside.1 hline] at hends
        exact suffix_crlf_concat_iff.mp (hends.1 (List.suffix_append before _))

/-- A text has no bare line feed when none of its lines ends in one. -/
theorem noBareLineFeed_flatten_iff {lines : List Chars} (hlines : AreLines '\n' lines) :
    NoBareLineFeed lines.flatten ↔ ∀ line ∈ lines, ['\n'] <:+ line → ['\r', '\n'] <:+ line := by
  refine ⟨fun hbare line hmem hlf => ?_, noBareLineFeed_flatten hlines.inside⟩
  obtain ⟨earlier, later, rfl⟩ := List.append_of_mem hmem
  obtain ⟨rest, rfl⟩ := suffix_lineFeed_iff.mp hlf
  have hended := (areLines_append_iff.mp hlines).2.1 (List.cons_ne_nil _ _)
  have hreturn := hbare (earlier.flatten ++ rest) later.flatten (by simp)
  rw [← suffix_crlf_concat_iff, List.append_assoc] at hreturn
  exact (suffix_crlf_append_iff (suffix_flatten hended) (by simp)).mp hreturn

end CodeOutline
