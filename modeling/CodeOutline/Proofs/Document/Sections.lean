/-
  CodeOutline/Proofs/Document/Sections.lean
  =========================================
  **What a document keeps of the texts of its files.**

  Whatever its style, a document is a row of lines: some before the files, a section for each of
  them in their order, and some after them (`Layout`, `parts_eq`).  Blanks at its very end are
  dropped, and nothing else (`toList_render`).

  So a text below which something shows stands in the document whole (`keepsText_of_isVisible`).
  The last text of a plain document without an instruction has nothing below it: the blanks at its
  end are dropped with those of the document (`toList_render_of_not_closed`).
-/
import CodeOutline.Proofs.Document.Fence

namespace CodeOutline

open Text (Chars)

namespace Document

/-! ### Layouts -/

/-- How a document is laid out: the lines before its files, those above and below the text of a
file, and those after the files, with the way a text is written and read. -/
structure Layout where
  before : List Chars
  opening : Output → List Chars
  write : Chars → Chars
  closing : List Chars
  after : List Chars
  read : Chars → Chars

namespace Layout

/-- The section of a file. -/
def lines (L : Layout) (file : Output) : List Chars :=
  L.opening file ++ L.write file.content.toList :: L.closing

/-- What stands above the text of a file that comes after the files `front`. -/
def above (L : Layout) (front : List Output) (file : Output) : Chars :=
  Text.unlines (L.before ++ (front.flatMap L.lines ++ L.opening file))

/-- What stands below the text of a file that comes before the files `back`. -/
def below (L : Layout) (back : List Output) : Chars :=
  Text.unlines (L.closing ++ (back.flatMap L.lines ++ L.after))

/-- Whether the text of a file, or the opening above it where there is no text, ends in something
that shows, line feeds apart. -/
def endsVisible (L : Layout) (file : Output) : Bool :=
  Text.endsVisible (Text.joinWith ['\n'] (L.opening file) ++ dropFinalNewlines file.content.toList)

theorem unlines_eq (L : Layout) (front : List Output) (file : Output) (back : List Output) :
    Text.unlines (L.before ++ ((front ++ file :: back).flatMap L.lines ++ L.after)) =
      L.above front file ++ (L.write file.content.toList ++ '\n' :: L.below back) := by
  simp [above, below, lines, Text.unlines]

end Layout

def plainLayout (c : Context) : Layout where
  before := [c.summary.toList, []]
    ++ plainTitle "Notes".toList ++ c.notes.map noteLine ++ [[]]
    ++ (given c.header).flatMap (fun text => plainTitle "User Provided Header".toList ++ [text, []])
    ++ plainTitle "Directory Structure".toList ++ [c.listing.toList, []]
    ++ plainTitle "Files".toList
  opening file := [] :: plainTitle ("File: ".toList ++ file.path.toList)
  write := id
  closing := []
  after := (given c.instruction).flatMap fun text =>
    [] :: (plainTitle "Instruction".toList ++ [text])
  read := id

def markdownLayout (c : Context) : Layout where
  before := [c.summary.toList, [], "# Notes".toList, []] ++ c.notes.map noteLine ++ [[]]
    ++ (given c.header).flatMap (fun text => ["# User Provided Header".toList, [], text, []])
    ++ ["# Directory Structure".toList, [], c.fence.toList, c.listing.toList, c.fence.toList, [],
      "# Files".toList]
  opening file := [[], "## File: ".toList ++ file.path.toList, [],
    c.fence.toList ++ ((detectLanguage file.path).getD "").toList]
  write := dropFinalNewlines
  closing := [c.fence.toList]
  after := (given c.instruction).flatMap fun text => [[], "# Instruction".toList, [], text]
  read := id

def xmlLayout (c : Context) : Layout where
  before := Markup.escape c.summary.toList ::
    ((leading c).flatMap Element.lines ++ [[], "<files>".toList])
  opening file := ["<file path=".toList ++ Markup.quoteAttribute file.path.toList ++ ['>']]
  write content := Markup.escape (dropFinalNewlines content)
  closing := ["</file>".toList, []]
  after := "</files>".toList :: (trailing c).flatMap Element.lines
  read := Markup.unescape

def layout (c : Context) : Layout :=
  match c.style with
  | .plain => plainLayout c
  | .markdown => markdownLayout c
  | .xml => xmlLayout c

/-- A mark after each part of two rows, or before each. -/
theorem cons_flatMap_flatMap {α β γ : Type} (mark : γ) (write : α → List γ) (items : List α)
    (writeOther : β → List γ) (others : List β) :
    mark :: (items.flatMap (fun item => write item ++ [mark]) ++
        others.flatMap (fun other => writeOther other ++ [mark])) =
      (items.flatMap (fun item => mark :: write item) ++
        others.flatMap (fun other => mark :: writeOther other)) ++ [mark] := by
  rw [← List.cons_append, cons_flatMap_concat, List.append_assoc, List.singleton_append,
    cons_flatMap_concat, List.append_assoc]

-- A section is written with a blank line after it and laid out with one before it: the blank line
-- after the heading of the files is then the first section's, and one is left at the end.

theorem plain_eq (c : Context) :
    plain c = (plainLayout c).before ++
      ((c.files.flatMap (plainLayout c).lines ++ (plainLayout c).after) ++ [[]]) := by
  have hblank := cons_flatMap_flatMap []
    (fun file : Output => plainTitle ("File: ".toList ++ file.path.toList) ++ [file.content.toList])
    c.files (fun text => plainTitle "Instruction".toList ++ [text]) (given c.instruction)
  calc plain c = (plainLayout c).before ++ ([] :: (c.files.flatMap plainFile ++
        (given c.instruction).flatMap
          (fun text => plainTitle "Instruction".toList ++ [text, []]))) := by
        simp [plain, plainLayout]
    _ = _ := congrArg ((plainLayout c).before ++ ·) hblank

theorem markdown_eq (c : Context) :
    markdown c = (markdownLayout c).before ++
      ((c.files.flatMap (markdownLayout c).lines ++ (markdownLayout c).after) ++ [[]]) := by
  have hblank := cons_flatMap_flatMap []
    (fun file : Output => ["## File: ".toList ++ file.path.toList, [],
      c.fence.toList ++ ((detectLanguage file.path).getD "").toList,
      dropFinalNewlines file.content.toList, c.fence.toList])
    c.files (fun text => ["# Instruction".toList, [], text]) (given c.instruction)
  calc markdown c = (markdownLayout c).before ++
        ([] :: (c.files.flatMap (markdownFile c.fence.toList) ++
          (given c.instruction).flatMap (fun text => ["# Instruction".toList, [], text, []]))) := by
        simp [markdown, markdownLayout]
    _ = _ := congrArg ((markdownLayout c).before ++ ·) hblank

theorem xml_eq_layout (c : Context) :
    xml c = (xmlLayout c).before ++
      ((c.files.flatMap (xmlLayout c).lines ++ (xmlLayout c).after) ++ [[]]) := by
  have hlines : (xmlLayout c).lines = xmlFile := rfl
  rw [xml_eq, elements, hlines]
  simp [xmlLayout, Element.lines, filesElement, Element.opening, Element.closing]

/-- A document is laid out as its style says. -/
theorem parts_eq (c : Context) :
    parts c = (layout c).before ++
      ((c.files.flatMap (layout c).lines ++ (layout c).after) ++ [[]]) := by
  unfold parts layout
  cases c.style with
  | plain => exact plain_eq c
  | markdown => exact markdown_eq c
  | xml => exact xml_eq_layout c

/-! ### The ends of a document -/

theorem head?_toList_summary (c : Context) : c.summary.toList.head? = some 'T' := by
  obtain ⟨rest, hsummary⟩ := exists_summary c
  rw [hsummary, String.toList_append]
  rfl

theorem exists_before (c : Context) :
    ∃ first later, (layout c).before = first :: later ∧ first.head? = some 'T' := by
  unfold layout
  cases c.style with
  | plain => exact ⟨_, _, rfl, head?_toList_summary c⟩
  | markdown => exact ⟨_, _, rfl, head?_toList_summary c⟩
  | xml => exact ⟨_, _, rfl, head?_summary c⟩

/-- Nothing is dropped from a document but blanks at its end. -/
theorem toList_render (c : Context) :
    (render c).toList = Text.trimRight (Text.unlines ((layout c).before ++
      (c.files.flatMap (layout c).lines ++ (layout c).after))) ++ ['\n'] := by
  obtain ⟨first, later, hbefore, hfirst⟩ := exists_before c
  obtain ⟨rest, rfl⟩ := List.head?_eq_some_iff.mp hfirst
  have hleft : ∀ lines, Text.trimLeft (Text.unlines ((layout c).before ++ lines)) =
      Text.unlines ((layout c).before ++ lines) := by
    intro lines
    apply Text.dropWhile_of_head
    rw [hbefore]
    intro d hd
    obtain rfl := Option.some.inj hd
    decide
  rw [render, String.toList_ofList, renderChars, parts_eq, ← List.append_assoc,
    Text.joinWith_concat_nil, Text.trim, hleft]

/-! ### Line feeds and blanks at the end of a text -/

theorem dropFinalNewlines_concat (s : Chars) :
    dropFinalNewlines (s ++ ['\n']) = dropFinalNewlines s :=
  dropFinalNewlines_append_replicate s 1

theorem dropFinalNewlines_append_of_ne_nil {t : Chars} (s : Chars) (ht : dropFinalNewlines t ≠ []) :
    dropFinalNewlines (s ++ t) = s ++ dropFinalNewlines t := by
  apply Text.dropRightWhile_append_of_exists
  by_contra hnone
  apply ht
  apply List.rdropWhile_eq_nil_iff.mpr
  intro c hc
  by_contra hother
  exact hnone ⟨c, hc, by simpa using hother⟩

theorem dropFinalNewlines_trimRight (s : Chars) :
    dropFinalNewlines (Text.trimRight s) = Text.trimRight s := by
  apply List.rdropWhile_eq_self_iff.mpr
  intro hne hfeed
  have hblank : Text.isBlank ((Text.trimRight s).getLast hne) = true := by
    rw [beq_iff_eq.mp hfeed]
    decide
  exact List.rdropWhile_last_not Text.isBlank s hne hblank

/-- Line feeds at the end of a text are dropped with the blanks there. -/
theorem trimRight_append_dropFinalNewlines (s t : Chars) :
    Text.trimRight (s ++ dropFinalNewlines t) = Text.trimRight (s ++ t) := by
  obtain ⟨n, ht⟩ := exists_dropFinalNewlines t
  have hfeeds : Text.isVisible (List.replicate n '\n') = false := by
    apply List.any_eq_false.mpr
    intro c hc
    rw [List.eq_of_mem_replicate hc]
    decide
  calc Text.trimRight (s ++ dropFinalNewlines t)
      = Text.trimRight ((s ++ dropFinalNewlines t) ++ List.replicate n '\n') :=
        (Text.trimRight_append_of_blank _ hfeeds).symm
    _ = Text.trimRight (s ++ t) := by rw [List.append_assoc, ← ht]

section

variable {s body : Chars}

/-- Below a line that ends a trimmed text there is nothing, and all of the line is left where its
end shows. -/
theorem exists_append_iff_of_empty (hs : s ≠ []) :
    (∃ text, dropFinalNewlines text = [] ∧
        Text.trimRight (s ++ ['\n']) ++ ['\n'] = (s ++ ['\n']) ++ text) ↔
      Text.endsVisible s = true := by
  have htrim : Text.trimRight (s ++ ['\n']) = Text.trimRight s :=
    Text.trimRight_append_of_blank s (by decide)
  rw [Text.endsVisible_iff, htrim]
  constructor
  · intro hkept
    obtain ⟨text, -, heq⟩ := hkept
    have hprefix : Text.trimRight s <+: s := List.rdropWhile_prefix _ _
    have hlength := congrArg List.length heq
    simp only [List.length_append, List.length_singleton] at hlength
    exact ⟨hs, hprefix.eq_of_length_le (by omega)⟩
  · intro hends
    exact ⟨[], rfl, by rw [hends.2, List.append_nil]⟩

theorem exists_append_iff_of_ne_nil (hne : body ≠ []) (hbody : dropFinalNewlines body = body) :
    (∃ text, dropFinalNewlines text = body ∧ Text.trimRight (s ++ body) ++ ['\n'] = s ++ text) ↔
      Text.endsVisible body = true := by
  rw [← Text.endsVisible_append s hne, Text.endsVisible_iff]
  constructor
  · intro hkept
    obtain ⟨text, htext, heq⟩ := hkept
    -- without their line feeds, the one side is trimmed and the other is the whole text
    have hdropped := congrArg dropFinalNewlines heq
    rw [dropFinalNewlines_concat, dropFinalNewlines_trimRight,
      dropFinalNewlines_append_of_ne_nil _ (htext ▸ hne), htext] at hdropped
    exact ⟨List.append_ne_nil_of_right_ne_nil _ hne, hdropped⟩
  · intro hends
    refine ⟨body ++ ['\n'], ?_, ?_⟩
    · rw [dropFinalNewlines_concat, hbody]
    · rw [hends.2, List.append_assoc]

/-- A text below a line is left, line feeds apart, where the two of them end in something that
shows. -/
theorem exists_append_iff (hs : s ≠ []) (hbody : dropFinalNewlines body = body) :
    (∃ text, dropFinalNewlines text = body ∧
        Text.trimRight ((s ++ ['\n']) ++ body) ++ ['\n'] = (s ++ ['\n']) ++ text) ↔
      Text.endsVisible (s ++ body) = true := by
  by_cases hne : body = []
  · rw [hne, List.append_nil, List.append_nil]
    exact exists_append_iff_of_empty hs
  · rw [Text.endsVisible_append s hne]
    exact exists_append_iff_of_ne_nil hne hbody

end

/-! ### What is kept -/

/-- What is left of the end of a document: nothing of blanks, else all up to the last thing that
shows, and a line feed. -/
def cutEnd (s : Chars) : Chars :=
  if Text.isVisible s then Text.trimRight s ++ ['\n'] else []

/-- Whether the document has the text of a file in its place: below all that comes before the text
and above what is left of all that comes after it, there is what reads as the content of the file,
line feeds at the end apart. -/
def KeepsText (c : Context) (front : List Output) (file : Output) (back : List Output) : Prop :=
  ∃ text, SameButEnd file.content (String.ofList ((layout c).read text)) ∧
    (render c).toList = (layout c).above front file ++ (text ++ cutEnd ((layout c).below back))

/-- Whether the document has a section for each file, in their order, and in each of them the
text. -/
def KeepsTexts (c : Context) : Prop :=
  ∀ front file back, c.files = front ++ file :: back → KeepsText c front file back

/-- Whether something shows below the last text. -/
def Closed (c : Context) : Prop :=
  match c.style with
  | .plain => given c.instruction ≠ []
  | .markdown => given c.instruction ≠ [] ∨ Text.isVisible c.fence.toList = true
  | .xml => True

/-- What is written reads as it was, line feeds at the end apart. -/
theorem dropFinalNewlines_read_write (c : Context) (content : Chars) :
    dropFinalNewlines ((layout c).read ((layout c).write content ++ ['\n'])) =
      dropFinalNewlines content := by
  unfold layout
  cases c.style with
  | plain => exact dropFinalNewlines_concat content
  | markdown =>
    show dropFinalNewlines (dropFinalNewlines content ++ ['\n']) = _
    rw [dropFinalNewlines_concat, dropFinalNewlines_idem]
  | xml =>
    have hfeed : Markup.escape (dropFinalNewlines content) ++ ['\n'] =
        Markup.escape (dropFinalNewlines content ++ ['\n']) := by
      rw [Markup.escape, Markup.escape, List.flatMap_append]
      rfl
    show dropFinalNewlines
      (Markup.unescape (Markup.escape (dropFinalNewlines content) ++ ['\n'])) = _
    rw [hfeed, Markup.unescape_escape, dropFinalNewlines_concat, dropFinalNewlines_idem]

/-! ### What shows below a text -/

theorem isVisible_opening (c : Context) (file : Output) :
    Text.isVisible (Text.unlines ((layout c).opening file)) = true := by
  unfold layout
  cases c.style with
  | plain =>
    apply Text.isVisible_of_mem (c := '=')
    · simp [plainLayout, plainTitle, plainRule, Text.unlines]
    · decide
  | markdown =>
    apply Text.isVisible_of_mem (c := '#')
    · simp [markdownLayout, Text.unlines]
    · decide
  | xml =>
    apply Text.isVisible_of_mem (c := '<')
    · simp [xmlLayout, Text.unlines]
    · decide

theorem opening_ne_nil (c : Context) (file : Output) : (layout c).opening file ≠ [] := by
  intro hnil
  have hshown := isVisible_opening c file
  rw [hnil] at hshown
  cases hshown

theorem joinWith_opening_ne_nil (c : Context) (file : Output) :
    Text.joinWith ['\n'] ((layout c).opening file) ≠ [] := by
  intro hnil
  have hshown := isVisible_opening c file
  rw [Text.unlines_eq_joinWith (opening_ne_nil c file), hnil] at hshown
  exact absurd hshown (by decide)

theorem exists_above_eq (c : Context) (front : List Output) (file : Output) :
    ∃ earlier, (layout c).above front file =
      (earlier ++ Text.joinWith ['\n'] ((layout c).opening file)) ++ ['\n'] := by
  refine ⟨Text.unlines ((layout c).before ++ front.flatMap (layout c).lines), ?_⟩
  rw [Layout.above, ← List.append_assoc, Text.unlines_append _ ((layout c).opening file),
    Text.unlines_eq_joinWith (opening_ne_nil c file), List.append_assoc]

theorem isVisible_lines (c : Context) (file : Output) :
    Text.isVisible (Text.unlines ((layout c).lines file)) = true := by
  rw [Layout.lines, Text.unlines_append, Text.isVisible_append, isVisible_opening, Bool.true_or]

theorem isVisible_unlines_flatMap_iff {α : Type} {write : α → List Chars}
    (hwrite : ∀ item, Text.isVisible (Text.unlines (write item)) = true) (items : List α) :
    Text.isVisible (Text.unlines (items.flatMap write)) = true ↔ items ≠ [] := by
  cases items with
  | nil => simp [Text.unlines, Text.isVisible]
  | cons item later => simp [Text.unlines_append, Text.isVisible_append, hwrite]

theorem closed_iff (c : Context) :
    Closed c ↔ Text.isVisible (Text.unlines (layout c).closing) = true ∨
      Text.isVisible (Text.unlines (layout c).after) = true := by
  unfold Closed layout
  cases c.style with
  | plain =>
    have hclosing : ¬ Text.isVisible (Text.unlines (plainLayout c).closing) = true :=
      Bool.false_ne_true
    have hafter : Text.isVisible (Text.unlines (plainLayout c).after) = true ↔
        given c.instruction ≠ [] := by
      apply isVisible_unlines_flatMap_iff
      intro text
      apply Text.isVisible_of_mem (c := '=')
      · simp [plainTitle, plainRule, Text.unlines]
      · decide
    exact hafter.symm.trans (or_iff_right hclosing).symm
  | markdown =>
    have hclosing : Text.isVisible (Text.unlines (markdownLayout c).closing) =
        Text.isVisible c.fence.toList := by
      show Text.isVisible ((c.fence.toList ++ ['\n']) ++ []) = _
      rw [List.append_nil, Text.isVisible_append]
      exact Bool.or_false _
    have hafter : Text.isVisible (Text.unlines (markdownLayout c).after) = true ↔
        given c.instruction ≠ [] := by
      apply isVisible_unlines_flatMap_iff
      intro text
      apply Text.isVisible_of_mem (c := '#')
      · simp [Text.unlines]
      · decide
    rw [hclosing, hafter]
    exact or_comm
  | xml => exact iff_of_true trivial (.inl rfl)

theorem isVisible_below_iff (c : Context) (back : List Output) :
    Text.isVisible ((layout c).below back) = true ↔ back ≠ [] ∨ Closed c := by
  rw [closed_iff, Layout.below, Text.unlines_append, Text.unlines_append, Text.isVisible_append,
    Text.isVisible_append, Bool.or_eq_true, Bool.or_eq_true,
    isVisible_unlines_flatMap_iff (isVisible_lines c)]
  exact or_left_comm

theorem closed_of_instruction {c : Context} (hgiven : given c.instruction ≠ []) : Closed c := by
  unfold Closed
  cases c.style with
  | plain => exact hgiven
  | markdown => exact .inl hgiven
  | xml => exact trivial

/-- A fence that is made for some contents shows. -/
theorem closed_of_fence {c : Context} {contents : List String}
    (hfence : c.fence = Fence.forContents contents) (hstyle : c.style ≠ .plain) : Closed c := by
  unfold Closed
  cases hcase : c.style with
  | plain => exact absurd hcase hstyle
  | markdown =>
    have hne : c.fence.toList ≠ [] := by
      rw [hfence, ← List.length_pos_iff, String.length_toList]
      exact Fence.pos_length_forContents contents
    obtain ⟨d, hd⟩ := List.exists_mem_of_ne_nil _ hne
    refine .inr (Text.isVisible_of_mem hd ?_)
    rw [hfence] at hd
    exact Fence.forall_forContents (by decide) contents d hd
  | xml => exact trivial

section

variable {c : Context} {front back : List Output} {file : Output}
  (hfiles : c.files = front ++ file :: back)

include hfiles

theorem toList_render_of_files :
    (render c).toList = Text.trimRight ((layout c).above front file ++
      ((layout c).write file.content.toList ++ '\n' :: (layout c).below back)) ++ ['\n'] := by
  rw [toList_render, hfiles, Layout.unlines_eq]

/-- A text is kept where something shows below it. -/
theorem keepsText_of_isVisible (hbelow : Text.isVisible ((layout c).below back) = true) :
    KeepsText c front file back := by
  refine ⟨(layout c).write file.content.toList ++ ['\n'], ?_, ?_⟩
  · apply sameButEnd_iff.mpr
    rw [String.toList_ofList, dropFinalNewlines_read_write]
  · have hsplit : (layout c).above front file ++
        ((layout c).write file.content.toList ++ '\n' :: (layout c).below back) =
          ((layout c).above front file ++ ((layout c).write file.content.toList ++ ['\n'])) ++
            (layout c).below back := by simp
    rw [toList_render_of_files hfiles, hsplit, Text.trimRight_append_of_isVisible _ hbelow, cutEnd,
      if_pos hbelow]
    simp only [List.append_assoc]

end

/-! ### A text with nothing below it -/

section

variable {c : Context} (hopen : ¬ Closed c)

include hopen

theorem isVisible_below_of_not_closed : Text.isVisible ((layout c).below []) = false := by
  rw [Bool.eq_false_iff]
  intro hshown
  rcases (isVisible_below_iff c []).mp hshown with hne | hclosed
  · exact hne rfl
  · exact hopen hclosed

theorem read_of_not_closed : (layout c).read = id := by
  unfold Closed at hopen
  unfold layout
  cases hstyle : c.style with
  | plain => rfl
  | markdown => rfl
  | xml =>
    rw [hstyle] at hopen
    exact absurd trivial hopen

theorem dropFinalNewlines_write (content : Chars) :
    dropFinalNewlines ((layout c).write content) = dropFinalNewlines content := by
  have hread := dropFinalNewlines_read_write c content
  rwa [read_of_not_closed hopen, id, dropFinalNewlines_concat] at hread

variable {front : List Output} {last : Output} (hfiles : c.files = front ++ [last])

include hfiles

/-- The document ends where the text does, blanks at its end apart. -/
theorem toList_render_of_not_closed :
    (render c).toList =
      Text.trimRight ((layout c).above front last ++ last.content.toList) ++ ['\n'] := by
  have hbelow : Text.isVisible ('\n' :: (layout c).below []) = false := by
    rw [← List.singleton_append, Text.isVisible_append, isVisible_below_of_not_closed hopen]
    decide
  have hwritten : Text.trimRight ((layout c).above front last ++
      (layout c).write last.content.toList) =
        Text.trimRight ((layout c).above front last ++ last.content.toList) := by
    rw [← trimRight_append_dropFinalNewlines, dropFinalNewlines_write hopen,
      trimRight_append_dropFinalNewlines]
  rw [toList_render_of_files hfiles, ← List.append_assoc, Text.trimRight_append_of_blank _ hbelow,
    hwritten]

/-- So the text is kept where there are no blanks to drop. -/
theorem keepsText_last_iff : KeepsText c front last [] ↔ (layout c).endsVisible last = true := by
  obtain ⟨earlier, habove⟩ := exists_above_eq c front last
  have hopening := joinWith_opening_ne_nil c last
  have hrest : cutEnd ((layout c).below []) = [] := by
    rw [cutEnd, isVisible_below_of_not_closed hopen]
    rfl
  have hkeeps : KeepsText c front last [] ↔
      ∃ text, dropFinalNewlines text = dropFinalNewlines last.content.toList ∧
        Text.trimRight ((layout c).above front last ++ dropFinalNewlines last.content.toList) ++
          ['\n'] = (layout c).above front last ++ text := by
    simp only [KeepsText, sameButEnd_iff, String.toList_ofList, read_of_not_closed hopen, id, hrest,
      List.append_nil, toList_render_of_not_closed hopen hfiles, trimRight_append_dropFinalNewlines,
      eq_comm (a := dropFinalNewlines last.content.toList)]
  rw [hkeeps, habove, exists_append_iff (List.append_ne_nil_of_right_ne_nil _ hopening)
    (dropFinalNewlines_idem _), List.append_assoc,
    Text.endsVisible_append _ (List.append_ne_nil_of_left_ne_nil hopening _), Layout.endsVisible]

end

/-! ### All texts -/

theorem keepsTexts_of_closed {c : Context} (hclosed : Closed c) : KeepsTexts c := by
  intro front file back hfiles
  exact keepsText_of_isVisible hfiles ((isVisible_below_iff c back).mpr (.inr hclosed))

/-- A document that is built from files keeps their texts, unless it is a plain one that ends with
them. -/
theorem keepsTexts_of_build {files : List Output} {date : Timestamp}
    {options : List (String × Value)} {c : Context}
    (hbuild : Context.build files date options = .ok c)
    (hends : c.style ≠ .plain ∨ given c.instruction ≠ []) : KeepsTexts c := by
  obtain ⟨-, -, hfence⟩ := of_build hbuild
  apply keepsTexts_of_closed
  rcases hends with hstyle | hgiven
  · exact closed_of_fence hfence hstyle
  · exact closed_of_instruction hgiven

/-- **Texts in documents.**  A document keeps the texts of its files, line feeds at their ends
apart, exactly when something shows below the last of them or there are no other blanks at its
end.  All texts but the last are kept in any case; where nothing shows below the last one, the
document ends where that does, blanks at its end apart. -/
theorem keepsTexts_iff (c : Context) :
    (KeepsTexts c ↔ Closed c ∨ ∀ last ∈ c.files.getLast?, (layout c).endsVisible last = true) ∧
      (∀ front file back, c.files = front ++ file :: back → back ≠ [] →
        KeepsText c front file back) ∧
      ∀ front last, c.files = front ++ [last] → ¬ Closed c →
        (render c).toList =
          Text.trimRight ((layout c).above front last ++ last.content.toList) ++ ['\n'] := by
  have hinside : ∀ front file back, c.files = front ++ file :: back → back ≠ [] →
      KeepsText c front file back := by
    intro front file back hfiles hback
    exact keepsText_of_isVisible hfiles ((isVisible_below_iff c back).mpr (.inl hback))
  refine ⟨?_, hinside, fun front last hfiles hopen => toList_render_of_not_closed hopen hfiles⟩
  by_cases hclosed : Closed c
  · exact iff_of_true (keepsTexts_of_closed hclosed) (.inl hclosed)
  · rw [or_iff_right hclosed]
    constructor
    · intro hkeeps last hlast
      obtain ⟨front, hfiles⟩ := List.getLast?_eq_some_iff.mp hlast
      exact (keepsText_last_iff hclosed hfiles).mp (hkeeps front last [] hfiles)
    · intro hends front file back hfiles
      by_cases hback : back = []
      · subst hback
        have hlast : file ∈ c.files.getLast? := by
          rw [hfiles]
          exact List.getLast?_concat
        exact (keepsText_last_iff hclosed hfiles).mpr (hends file hlast)
      · exact hinside front file back hfiles hback

/-- Two files whose contents end in blanks. -/
def blankEnded (style : Style) (instruction : Option String) : Context :=
  .ofFiles [⟨"a.txt", " \t"⟩, ⟨"b.txt", "x  \n"⟩] firstOfMay.toString style true defaultPlaceholder
    none instruction

theorem keepsTexts_iff_blankEnded :
    KeepsTexts (blankEnded .plain (some " ")) ∧ KeepsTexts (blankEnded .markdown none) ∧
      KeepsText (blankEnded .plain none) [] ⟨"a.txt", " \t"⟩ [⟨"b.txt", "x  \n"⟩] ∧
      ¬ KeepsTexts (blankEnded .plain none) := by
  have hinstruction : Closed (blankEnded .plain (some " ")) :=
    closed_of_instruction (List.cons_ne_nil _ _)
  have hbuilt : Context.build (blankEnded .markdown none).files firstOfMay
      [("style", .text "markdown")] = .ok (blankEnded .markdown none) := rfl
  refine ⟨(keepsTexts_iff _).1.mpr (.inl hinstruction),
    keepsTexts_of_build hbuilt (.inl (by decide)),
    (keepsTexts_iff _).2.1 _ _ _ rfl (List.cons_ne_nil _ _), ?_⟩
  intro hkeeps
  have hopen : ¬ Closed (blankEnded .plain none) := by
    show ¬ given none ≠ []
    decide
  have hends := ((keepsTexts_iff _).1.mp hkeeps).resolve_left hopen ⟨"b.txt", "x  \n"⟩ rfl
  have hcut : (layout (blankEnded .plain none)).endsVisible ⟨"b.txt", "x  \n"⟩ = false := by
    decide +kernel
  rw [hcut] at hends
  cases hends

/-- A plain document of one file and no instruction. -/
def single (content : String) : Context :=
  .ofFiles [⟨"a.txt", content⟩] "now" .plain true defaultPlaceholder none none

/-- The blanks at the end of the last text are lost: the document is that of another text. -/
theorem not_keepsTexts_single :
    ¬ KeepsTexts (single "x  \n") ∧ ¬ SameButEnd "x  \n" "x" ∧
      render (single "x  \n") = render (single "x") := by
  have hfiles : ∀ content, (single content).files = [] ++ [⟨"a.txt", content⟩] := fun _ => rfl
  have hopen : ∀ content, ¬ Closed (single content) := by
    intro content
    show ¬ given none ≠ []
    decide
  refine ⟨?_, ?_, ?_⟩
  · intro hkeeps
    have hends := (keepsText_last_iff (hopen _) (hfiles _)).mp (hkeeps [] _ [] (hfiles _))
    have hcut : (layout (single "x  \n")).endsVisible ⟨"a.txt", "x  \n"⟩ = false := by
      decide +kernel
    rw [hcut] at hends
    cases hends
  · rw [sameButEnd_iff]
    decide +kernel
  · apply String.toList_injective
    have hcontent : "x  \n".toList = "x".toList ++ "  \n".toList := by decide +kernel
    have habove : (layout (single "x  \n")).above [] ⟨"a.txt", "x  \n"⟩ =
        (layout (single "x")).above [] ⟨"a.txt", "x"⟩ := rfl
    rw [toList_render_of_not_closed (hopen _) (hfiles "x  \n"),
      toList_render_of_not_closed (hopen _) (hfiles "x"), habove, hcontent, ← List.append_assoc,
      Text.trimRight_append_of_blank _ (by decide +kernel)]

end Document

end CodeOutline
