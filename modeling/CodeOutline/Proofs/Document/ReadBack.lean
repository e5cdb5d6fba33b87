/-
  CodeOutline/Proofs/Document/ReadBack.lean
  =========================================
  **XML documents are read back.**

  An XML document is a summary and a list of elements, each after a blank line (`renderChars_eq`).
  Every element but the one of the files holds text alone, so it is one piece for the reader; that
  of the files is a piece for each file.  What a reader collects is read off piece by piece
  (`collect_renderChars`).
-/
import CodeOutline.Proofs.Document.Markup
import CodeOutline.Proofs.Text.Lines
import Mathlib.Data.List.Forall2

namespace CodeOutline

open Text (Chars)

namespace Document

open Markup (NoMarkup Piece collect)

/-! ### Elements -/

structure Element where
  name : String
  body : List Chars

namespace Element

def opening (e : Element) : Chars :=
  '<' :: (e.name.toList ++ ['>'])

def closing (e : Element) : Chars :=
  '<' :: '/' :: (e.name.toList ++ ['>'])

/-- The lines of an element, after a blank one. -/
def lines (e : Element) : List Chars :=
  [] :: e.opening :: (e.body ++ [e.closing])

/-- An element whose body is text, as a reader finds it. -/
def piece (e : Element) : Piece :=
  ⟨e.name.toList, '\n' :: Text.unlines e.body⟩

end Element

def notesElement (c : Context) : Element :=
  ⟨"notes", c.notes.map fun note => "- ".toList ++ Markup.escape note.toList⟩

def headerElement (text : Chars) : Element :=
  ⟨"user_provided_header", [Markup.escape text]⟩

def listingElement (c : Context) : Element :=
  ⟨"directory_structure", [Markup.escape c.listing.toList]⟩

def filesElement (c : Context) : Element :=
  ⟨"files", c.files.flatMap xmlFile⟩

def instructionElement (text : Chars) : Element :=
  ⟨"instruction", [Markup.escape text]⟩

/-- The elements before the files. -/
def leading (c : Context) : List Element :=
  notesElement c :: ((given c.header).map headerElement ++ [listingElement c])

/-- The elements after the files. -/
def trailing (c : Context) : List Element :=
  (given c.instruction).map instructionElement

def elements (c : Context) : List Element :=
  leading c ++ filesElement c :: trailing c

/-- A mark after each part, or before each. -/
theorem cons_flatMap_concat {α β : Type} (mark : β) (write : α → List β) (items : List α) :
    mark :: items.flatMap (fun item => write item ++ [mark]) =
      items.flatMap (fun item => mark :: write item) ++ [mark] := by
  induction items with
  | nil => rfl
  | cons item later ih => simp [ih]

theorem xmlElement_eq (e : Element) :
    xmlElement e.name e.body = (e.opening :: (e.body ++ [e.closing])) ++ [[]] := by
  simp [xmlElement, Element.opening, Element.closing]

/-- A blank line after each element, or before each. -/
theorem flatMap_xmlElement (es : List Element) :
    [] :: es.flatMap (fun e => xmlElement e.name e.body) = es.flatMap Element.lines ++ [[]] := by
  simp only [xmlElement_eq]
  exact cons_flatMap_concat [] (fun e : Element => e.opening :: (e.body ++ [e.closing])) es

theorem xml_eq (c : Context) :
    xml c = Markup.escape c.summary.toList :: (elements c).flatMap Element.lines ++ [[]] := by
  rw [List.cons_append, ← flatMap_xmlElement]
  simp [xml, elements, leading, trailing, notesElement, headerElement, listingElement, filesElement,
    instructionElement, List.flatMap_map]

/-! ### The whole document -/

theorem exists_summary (c : Context) :
    ∃ rest : String, c.summary = "This document merges " ++ rest := by
  unfold Context.summary
  simp only [String.append_assoc]
  exact ⟨_, rfl⟩

theorem head?_summary (c : Context) : (Markup.escape c.summary.toList).head? = some 'T' := by
  obtain ⟨rest, hrest⟩ := exists_summary c
  rw [hrest, String.toList_append]
  rfl

theorem exists_closing (c : Context) :
    ∃ front e, (elements c).flatMap Element.lines = front ++ [Element.closing e] := by
  rcases List.eq_nil_or_concat (elements c) with hnil | ⟨es, e, hes⟩
  · exact absurd hnil (List.append_ne_nil_of_right_ne_nil _ (List.cons_ne_nil _ _))
  · exact ⟨es.flatMap Element.lines ++ [] :: e.opening :: e.body, e, by simp [hes, Element.lines]⟩

theorem parts_of_xml {c : Context} (hstyle : c.style = .xml) : parts c = xml c := by
  rw [parts, hstyle]

/-- Nothing is dropped at the ends of a document but its last, empty line. -/
theorem renderChars_eq {c : Context} (hstyle : c.style = .xml) :
    renderChars c = Text.unlines
      (Markup.escape c.summary.toList :: (elements c).flatMap Element.lines) := by
  obtain ⟨rest, hsummary⟩ := List.head?_eq_some_iff.mp (head?_summary c)
  obtain ⟨front, e, hclosing⟩ := exists_closing c
  -- the text starts with a letter and ends with a bracket, so the only blank to drop is the last
  -- line feed, and the document gets it back
  have hunlines : Text.unlines (('T' :: rest) :: (front ++ [e.closing])) =
      (Text.unlines (('T' :: rest) :: front) ++ e.closing) ++ ['\n'] := by
    rw [← List.cons_append, Text.unlines_append]
    simp [Text.unlines]
  have htrim : Text.trim ((Text.unlines (('T' :: rest) :: front) ++ e.closing) ++ ['\n']) =
      (Text.unlines (('T' :: rest) :: front) ++ e.closing) ++ Text.trimRight ['\n'] := by
    apply Text.trim_append
    · intro c hc
      obtain rfl := Option.some.inj hc
      decide
    · have hlast : (Text.unlines (('T' :: rest) :: front) ++ e.closing).getLast? = some '>' := by
        simp [Element.closing, List.getLast?_cons]
      intro c hc
      rw [hlast] at hc
      obtain rfl := Option.some.inj hc
      decide
    · exact List.append_ne_nil_of_right_ne_nil _ (List.cons_ne_nil _ _)
  rw [show Text.trimRight ['\n'] = [] from rfl, List.append_nil] at htrim
  rw [renderChars, parts_of_xml hstyle, xml_eq, Text.joinWith_concat_nil, hsummary, hclosing,
    hunlines, htrim]

/-! ### Reading -/

section

variable {α : Type} {hold : Piece → Option α}
  (hclosing : ∀ piece, piece.tag.head? = some '/' → hold piece = none)

/-- The piece of a file. -/
def filePiece (file : Output) : Piece :=
  ⟨"file path=".toList ++ Markup.quoteAttribute file.path.toList,
    '\n' :: (Markup.escape (dropFinalNewlines file.content.toList) ++ ['\n'])⟩

theorem noMarkup_tag (file : Output) : NoMarkup (filePiece file).tag :=
  Markup.noMarkup_append (by decide) (Markup.noMarkup_quoteAttribute _)

theorem noMarkup_text (file : Output) : NoMarkup (filePiece file).text :=
  Markup.noMarkup_append (s := ['\n']) (by decide)
    (Markup.noMarkup_append (Markup.noMarkup_escape _) (by decide))

theorem unlines_xmlFile (file : Output) (rest : Chars) :
    Text.unlines (xmlFile file) ++ rest =
      '<' :: ((filePiece file).tag ++ '>' :: ((filePiece file).text ++
        '<' :: '/' :: ("file".toList ++ '>' :: (['\n', '\n'] ++ rest)))) := by
  have hopening : "<file path=".toList = '<' :: "file path=".toList := rfl
  have hclose : "</file>".toList = '<' :: '/' :: ("file".toList ++ ['>']) := rfl
  unfold filePiece xmlFile Text.unlines
  simp only [hopening, hclose, List.flatMap_cons, List.flatMap_nil, List.append_assoc,
    List.cons_append, List.nil_append, List.append_nil]

include hclosing in
theorem collect_xmlFile (file : Output) (rest : Chars) :
    collect hold (Text.unlines (xmlFile file) ++ rest) =
      (hold (filePiece file)).toList ++ collect hold rest := by
  have hname : NoMarkup "file".toList := by decide
  rw [unlines_xmlFile, Markup.collect_tag (noMarkup_tag file) (noMarkup_text file),
    Markup.collect_closing hclosing hname, Markup.collect_append (by decide)]

/-- What is written for one item after the other is collected item by item. -/
theorem collect_flatMap {β : Type} {write : β → List Chars} {piece : β → Piece} {items : List β}
    (hwrite : ∀ item ∈ items, ∀ rest, collect hold (Text.unlines (write item) ++ rest) =
      (hold (piece item)).toList ++ collect hold rest) (rest : Chars) :
    collect hold (Text.unlines (items.flatMap write) ++ rest) =
      items.filterMap (fun item => hold (piece item)) ++ collect hold rest := by
  induction items with
  | nil => rfl
  | cons item later ih =>
    obtain ⟨hitem, hlater⟩ := List.forall_mem_cons.mp hwrite
    rw [List.flatMap_cons, Text.unlines_append, List.append_assoc, hitem, ih hlater,
      List.filterMap_cons]
    cases hold (piece item) <;> rfl

theorem unlines_lines (e : Element) (rest : Chars) :
    Text.unlines e.lines ++ rest = '\n' :: '<' :: (e.piece.tag ++ '>' :: (e.piece.text ++
      '<' :: '/' :: (e.piece.tag ++ '>' :: ('\n' :: rest)))) := by
  simp [Text.unlines, Element.lines, Element.opening, Element.closing, Element.piece]

/-- Whether an element holds text and no other element. -/
structure Element.IsText (e : Element) : Prop where
  name : NoMarkup e.name.toList
  body : ∀ line ∈ e.body, NoMarkup line

theorem Element.IsText.piece_text {e : Element} (he : e.IsText) : NoMarkup e.piece.text := by
  intro c hc
  rcases List.mem_cons.mp hc with rfl | hmem
  · decide
  · obtain ⟨line, hline, hmem⟩ := List.mem_flatMap.mp hmem
    rcases List.mem_append.mp hmem with hmem | hfeed
    · exact he.body line hline c hmem
    · rw [List.mem_singleton.mp hfeed]
      decide

include hclosing in
theorem collect_lines {e : Element} (he : e.IsText) (rest : Chars) :
    collect hold (Text.unlines e.lines ++ rest) = (hold e.piece).toList ++ collect hold rest := by
  have htag : NoMarkup e.piece.tag := he.name
  rw [unlines_lines, Markup.collect_cons_of_ne (by decide), Markup.collect_tag htag he.piece_text,
    Markup.collect_closing hclosing htag, Markup.collect_cons_of_ne (by decide)]

theorem unlines_filesElement (c : Context) (rest : Chars) :
    Text.unlines (filesElement c).lines ++ rest = '\n' :: '<' :: ("files".toList ++ '>' ::
      ('\n' :: (Text.unlines (c.files.flatMap xmlFile) ++
        '<' :: '/' :: ("files".toList ++ '>' :: ('\n' :: rest))))) := by
  simp [Text.unlines, Element.lines, Element.opening, Element.closing, filesElement]

include hclosing in
/-- The tag around the files is a piece of its own, and so is every file. -/
theorem collect_filesElement (hfiles : ∀ text, hold ⟨"files".toList, text⟩ = none) (c : Context)
    (rest : Chars) :
    collect hold (Text.unlines (filesElement c).lines ++ rest) =
      c.files.filterMap (fun file => hold (filePiece file)) ++ collect hold rest := by
  have hname : NoMarkup "files".toList := by decide
  rw [unlines_filesElement, Markup.collect_cons_of_ne (by decide),
    Markup.collect_of_none hname hfiles, Markup.collect_cons_of_ne (by decide),
    collect_flatMap fun file _ => collect_xmlFile hclosing file,
    Markup.collect_closing hclosing hname, Markup.collect_cons_of_ne (by decide)]

theorem isText_of_escape {name : String} {text : Chars} (hname : NoMarkup name.toList) :
    Element.IsText ⟨name, [Markup.escape text]⟩ where
  name := hname
  body := List.forall_mem_singleton.mpr (Markup.noMarkup_escape text)

theorem isText_of_mem_leading {c : Context} {e : Element} (he : e ∈ leading c) : e.IsText := by
  rw [leading, List.mem_cons, List.mem_append, List.mem_map, List.mem_singleton] at he
  rcases he with rfl | ⟨text, -, rfl⟩ | rfl
  · constructor
    · show NoMarkup "notes".toList
      decide
    · intro line hline
      obtain ⟨note, -, rfl⟩ := List.mem_map.mp hline
      exact Markup.noMarkup_append (by decide) (Markup.noMarkup_escape _)
  · exact isText_of_escape (by decide)
  · exact isText_of_escape (by decide)

theorem isText_of_mem_trailing {c : Context} {e : Element} (he : e ∈ trailing c) : e.IsText := by
  obtain ⟨text, -, rfl⟩ := List.mem_map.mp he
  exact isText_of_escape (by decide)

include hclosing in
/-- What a reader collects from a document. -/
theorem collect_renderChars (hfiles : ∀ text, hold ⟨"files".toList, text⟩ = none) {c : Context}
    (hstyle : c.style = .xml) :
    collect hold (renderChars c) = (leading c).filterMap (fun e => hold e.piece) ++
      (c.files.filterMap (fun file => hold (filePiece file)) ++
        (trailing c).filterMap (fun e => hold e.piece)) := by
  have hsummary : '<' ∉ Markup.escape c.summary.toList := by
    intro hmem
    exact (Markup.noMarkup_escape _ _ hmem).1 rfl
  have hlines : renderChars c = Markup.escape c.summary.toList ++ '\n' ::
      (Text.unlines ((leading c).flatMap Element.lines) ++ (Text.unlines (filesElement c).lines ++
        (Text.unlines ((trailing c).flatMap Element.lines) ++ []))) := by
    rw [renderChars_eq hstyle, elements]
    simp [Text.unlines]
  have hleading : ∀ e ∈ leading c, ∀ rest, collect hold (Text.unlines e.lines ++ rest) =
      (hold e.piece).toList ++ collect hold rest := by
    intro e he
    exact collect_lines hclosing (isText_of_mem_leading he)
  have htrailing : ∀ e ∈ trailing c, ∀ rest, collect hold (Text.unlines e.lines ++ rest) =
      (hold e.piece).toList ++ collect hold rest := by
    intro e he
    exact collect_lines hclosing (isText_of_mem_trailing he)
  rw [hlines, Markup.collect_append hsummary, Markup.collect_cons_of_ne (by decide),
    collect_flatMap hleading, collect_filesElement hclosing hfiles, collect_flatMap htrailing,
    show collect hold [] = [] from rfl, List.append_nil]

end

/-! ### What is read -/

theorem text?_escape (name : String) (text : Chars) :
    Piece.text? name (Element.piece ⟨name, [Markup.escape text]⟩) = some text := by
  simp [Piece.text?, Element.piece, Text.unlines, Markup.inner_between, Markup.unescape_escape]

theorem text?_of_ne {name : String} {e : Element} (hne : e.name ≠ name) :
    Piece.text? name e.piece = none := by
  rw [Piece.text?, if_neg]
  intro heq
  exact hne (String.toList_injective heq)

theorem text?_filePiece {name : String} (hname : name.toList.head? ≠ some 'f') (file : Output) :
    Piece.text? name (filePiece file) = none := by
  rw [Piece.text?, if_neg]
  intro heq
  apply hname
  rw [← heq]
  rfl

theorem file?_filePiece (file : Output) :
    Piece.file? (filePiece file) =
      some ⟨file.path, String.ofList (dropFinalNewlines file.content.toList)⟩ := by
  have hvalue : (filePiece file).tag.dropPrefix? "file path=".toList =
      some (Markup.quoteAttribute file.path.toList) :=
    List.dropPrefix?_eq_some_iff.mpr ⟨_, rfl, by simp⟩
  have htext : Markup.inner (filePiece file).text =
      Markup.escape (dropFinalNewlines file.content.toList) := Markup.inner_between _ _ _
  rw [Piece.file?, hvalue, htext, Option.map_some, Markup.unescape_escape,
    Markup.unescape_inner_quoteAttribute, String.ofList_toList]

theorem file?_of_head? {piece : Piece} (hhead : piece.tag.head? ≠ some 'f') :
    piece.file? = none := by
  have hnone : piece.tag.dropPrefix? "file path=".toList = none := by
    rw [Option.eq_none_iff_forall_ne_some]
    intro value hvalue
    obtain ⟨front, htag, hfront⟩ := List.dropPrefix?_eq_some_iff.mp hvalue
    apply hhead
    rw [htag, eq_of_beq hfront]
    rfl
  rw [Piece.file?, hnone, Option.map_none]

theorem name_mem_of_mem_leading {c : Context} {e : Element} (he : e ∈ leading c) :
    e.name ∈ ["notes", "user_provided_header", "directory_structure"] := by
  rw [leading, List.mem_cons, List.mem_append, List.mem_map, List.mem_singleton] at he
  rcases he with rfl | ⟨text, -, rfl⟩ | rfl
  · exact List.mem_cons_self
  · exact List.mem_cons_of_mem _ List.mem_cons_self
  · exact List.mem_cons_of_mem _ (List.mem_cons_of_mem _ List.mem_cons_self)

theorem name_of_mem_trailing {c : Context} {e : Element} (he : e ∈ trailing c) :
    e.name = "instruction" := by
  obtain ⟨text, -, rfl⟩ := List.mem_map.mp he
  rfl

/-- The content is read without the line feeds at its end. -/
def trimmedFile (file : Output) : Output :=
  ⟨file.path, String.ofList (dropFinalNewlines file.content.toList)⟩

variable {c : Context}

theorem readFiles_render (hstyle : c.style = .xml) :
    Markup.readFiles (render c) = c.files.map trimmedFile := by
  have hclosing : ∀ piece : Piece, piece.tag.head? = some '/' → piece.file? = none := by
    intro piece hslash
    apply file?_of_head?
    rw [hslash]
    decide
  have hleading : (leading c).filterMap (fun e => e.piece.file?) = [] := by
    rw [List.filterMap_eq_nil_iff]
    intro e he
    have hnames : ∀ name ∈ ["notes", "user_provided_header", "directory_structure"],
        name.toList.head? ≠ some 'f' := by decide
    exact file?_of_head? (hnames e.name (name_mem_of_mem_leading he))
  have htrailing : (trailing c).filterMap (fun e => e.piece.file?) = [] := by
    rw [List.filterMap_eq_nil_iff]
    intro e he
    have hname : "instruction".toList.head? ≠ some 'f' := by decide
    rw [← name_of_mem_trailing he] at hname
    exact file?_of_head? hname
  rw [Markup.readFiles, render, String.toList_ofList,
    collect_renderChars hclosing (fun text => rfl) hstyle, hleading, htrailing, List.nil_append,
    List.append_nil, funext file?_filePiece]
  exact congrFun List.filterMap_eq_map' c.files

theorem readTexts_render {name : String} (hname : name ∈ ["user_provided_header", "instruction"])
    (hstyle : c.style = .xml) :
    Markup.readTexts name (render c) =
      (leading c).filterMap (fun e => Piece.text? name e.piece) ++
        (trailing c).filterMap (fun e => Piece.text? name e.piece) := by
  have hhead : name.toList.head? ≠ some 'f' ∧ name.toList.head? ≠ some '/' := by
    revert name
    decide
  have hclosing : ∀ piece : Piece, piece.tag.head? = some '/' → Piece.text? name piece = none := by
    intro piece hslash
    rw [Piece.text?, if_neg]
    intro heq
    rw [heq] at hslash
    exact hhead.2 hslash
  have hfiles : ∀ text, Piece.text? name ⟨"files".toList, text⟩ = none := by
    intro text
    rw [Piece.text?, if_neg]
    intro heq
    apply hhead.1
    rw [← heq]
    rfl
  have hnone : c.files.filterMap (fun file => Piece.text? name (filePiece file)) = [] :=
    List.filterMap_eq_nil_iff.mpr fun file _ => text?_filePiece hhead.1 file
  rw [Markup.readTexts, render, String.toList_ofList, collect_renderChars hclosing hfiles hstyle,
    hnone, List.nil_append]

theorem filterMap_text?_escape (name : String) (texts : List Chars) :
    (texts.map fun text => (⟨name, [Markup.escape text]⟩ : Element)).filterMap
      (fun e => Piece.text? name e.piece) = texts := by
  rw [List.filterMap_map]
  exact (List.filterMap_congr fun text _ => text?_escape name text).trans List.filterMap_some

theorem filterMap_text?_of_ne {name : String} {es : List Element} (hes : ∀ e ∈ es, e.name ≠ name) :
    es.filterMap (fun e => Piece.text? name e.piece) = [] :=
  List.filterMap_eq_nil_iff.mpr fun e he => text?_of_ne (hes e he)

theorem readHeader_render (hstyle : c.style = .xml) :
    Markup.readTexts "user_provided_header" (render c) = given c.header := by
  have hnotes : ∀ e ∈ [notesElement c], e.name ≠ "user_provided_header" :=
    List.forall_mem_singleton.mpr (by show "notes" ≠ _; decide)
  have hlisting : ∀ e ∈ [listingElement c], e.name ≠ "user_provided_header" :=
    List.forall_mem_singleton.mpr (by show "directory_structure" ≠ _; decide)
  have htrailing : ∀ e ∈ trailing c, e.name ≠ "user_provided_header" := by
    intro e he
    rw [name_of_mem_trailing he]
    decide
  have hleading : leading c =
      [notesElement c] ++ ((given c.header).map headerElement ++ [listingElement c]) := rfl
  rw [readTexts_render (by decide) hstyle, filterMap_text?_of_ne htrailing, List.append_nil,
    hleading, List.filterMap_append, List.filterMap_append, filterMap_text?_of_ne hnotes,
    filterMap_text?_of_ne hlisting, List.nil_append, List.append_nil]
  exact filterMap_text?_escape "user_provided_header" (given c.header)

theorem readInstruction_render (hstyle : c.style = .xml) :
    Markup.readTexts "instruction" (render c) = given c.instruction := by
  have hleading : ∀ e ∈ leading c, e.name ≠ "instruction" := by
    have hnames : ∀ name ∈ ["notes", "user_provided_header", "directory_structure"],
        name ≠ "instruction" := by decide
    intro e he
    exact hnames e.name (name_mem_of_mem_leading he)
  rw [readTexts_render (by decide) hstyle, filterMap_text?_of_ne hleading, List.nil_append]
  exact filterMap_text?_escape "instruction" (given c.instruction)

/-- Whether two texts are the same but for line feeds at their ends. -/
def SameButEnd (s t : String) : Prop :=
  ∃ body m n, s.toList = body ++ List.replicate m '\n' ∧ t.toList = body ++ List.replicate n '\n'

theorem exists_dropFinalNewlines (s : Chars) :
    ∃ n, s = dropFinalNewlines s ++ List.replicate n '\n' := by
  refine ⟨(s.rtakeWhile (· == '\n')).length, ?_⟩
  have hfeeds : s.rtakeWhile (· == '\n') =
      List.replicate (s.rtakeWhile (· == '\n')).length '\n' := by
    apply List.eq_replicate_of_mem
    intro c hc
    exact beq_iff_eq.mp (List.mem_rtakeWhile_imp (p := (· == '\n')) hc)
  rw [← hfeeds]
  exact List.rdropWhile_append_rtakeWhile.symm

theorem dropFinalNewlines_idem (s : Chars) :
    dropFinalNewlines (dropFinalNewlines s) = dropFinalNewlines s :=
  List.rdropWhile_idempotent _ _

theorem dropFinalNewlines_append_replicate (s : Chars) (n : Nat) :
    dropFinalNewlines (s ++ List.replicate n '\n') = dropFinalNewlines s := by
  apply Text.dropRightWhile_append_of_forall
  intro c hc
  rw [List.eq_of_mem_replicate hc]
  rfl

theorem sameButEnd_of_eq {s t : String}
    (heq : dropFinalNewlines s.toList = dropFinalNewlines t.toList) : SameButEnd s t := by
  obtain ⟨m, hm⟩ := exists_dropFinalNewlines s.toList
  obtain ⟨n, hn⟩ := exists_dropFinalNewlines t.toList
  exact ⟨dropFinalNewlines s.toList, m, n, hm, heq ▸ hn⟩

theorem sameButEnd_iff {s t : String} :
    SameButEnd s t ↔ dropFinalNewlines s.toList = dropFinalNewlines t.toList := by
  constructor
  · intro hsame
    obtain ⟨body, m, n, hs, ht⟩ := hsame
    rw [hs, ht, dropFinalNewlines_append_replicate, dropFinalNewlines_append_replicate]
  · exact sameButEnd_of_eq

/-- **An XML document says what it was made from**: the files in their order, but for the line
feeds at the end of a content, the header and the instruction. -/
theorem render_readBack (c : Context) (hstyle : c.style = .xml) :
    Markup.readFiles (render c) = c.files.map trimmedFile ∧
      Markup.readTexts "user_provided_header" (render c) = given c.header ∧
      Markup.readTexts "instruction" (render c) = given c.instruction ∧
      ∀ other : Context, other.style = .xml → render other = render c →
        List.Forall₂ (fun file another => file.path = another.path ∧
          SameButEnd file.content another.content) c.files other.files ∧
        given c.header = given other.header ∧ given c.instruction = given other.instruction := by
  refine ⟨readFiles_render hstyle, readHeader_render hstyle, readInstruction_render hstyle, ?_⟩
  -- what is read depends on the document alone, so the same document was made from the same texts
  intro other hother hsame
  have hfiles : c.files.map trimmedFile = other.files.map trimmedFile := by
    rw [← readFiles_render hstyle, ← readFiles_render hother, hsame]
  refine ⟨?_, ?_, ?_⟩
  · rw [← List.forall₂_eq_eq_eq, List.forall₂_map_left_iff, List.forall₂_map_right_iff] at hfiles
    apply hfiles.imp
    intro file another hfile
    obtain ⟨hpath, hcontent⟩ := Output.mk.inj hfile
    exact ⟨hpath, sameButEnd_of_eq (String.ofList_injective hcontent)⟩
  · rw [← readHeader_render hstyle, ← readHeader_render hother, hsame]
  · rw [← readInstruction_render hstyle, ← readInstruction_render hother, hsame]

theorem xmlFile_trimmedFile (file : Output) : xmlFile (trimmedFile file) = xmlFile file := by
  have hdrop : dropFinalNewlines (trimmedFile file).content.toList =
      dropFinalNewlines file.content.toList := by
    unfold trimmedFile
    dsimp only
    rw [String.toList_ofList, dropFinalNewlines_idem]
  unfold xmlFile
  rw [hdrop]
  rfl

/-- Conversely, files that are read as the same are written as the same. -/
theorem render_congr {c : Context} {files : List Output} (hstyle : c.style = .xml)
    (hfiles : files.map trimmedFile = c.files.map trimmedFile) :
    render { c with files := files } = render c := by
  have hlength : files.length = c.files.length := by
    simpa using congrArg List.length hfiles
  have hlines : files.flatMap xmlFile = c.files.flatMap xmlFile := by
    have hwritten := congrArg (List.flatMap xmlFile) hfiles
    simpa only [List.flatMap_map, xmlFile_trimmedFile] using hwritten
  have hxml : xml { c with files := files } = xml c := by
    unfold xml Context.summary Context.notes
    rw [hlength, hlines]
  rw [render, render, renderChars, renderChars, parts_of_xml hstyle,
    parts_of_xml (c := { c with files := files }) hstyle, hxml]

/-- Contexts whose texts look like markup. -/
def lookalike (content : String) : Context :=
  ⟨[⟨"a\"'\n</file>.py", content⟩, ⟨"", "x"⟩], "now", "a/", "", .xml, true, "<notes>",
    some "</files> &lt;", some ""⟩

theorem render_readBack_lookalike :
    Markup.readFiles (render (lookalike "<file path=\"b\">&amp;\n\n")) =
        [⟨"a\"'\n</file>.py", "<file path=\"b\">&amp;"⟩, ⟨"", "x"⟩] ∧
      Markup.readTexts "user_provided_header" (render (lookalike "<file path=\"b\">&amp;\n\n")) =
        ["</files> &lt;".toList] ∧
      render (lookalike "<file path=\"b\">&amp;") =
        render (lookalike "<file path=\"b\">&amp;\n\n") ∧
      List.Forall₂ (fun file another => file.path = another.path ∧
          SameButEnd file.content another.content)
        (lookalike "<file path=\"b\">&amp;\n\n").files
        (lookalike "<file path=\"b\">&amp;").files := by
  obtain ⟨hfiles, hheader, -, hother⟩ :=
    render_readBack (lookalike "<file path=\"b\">&amp;\n\n") rfl
  have htrimmed : (lookalike "<file path=\"b\">&amp;\n\n").files.map trimmedFile =
      [⟨"a\"'\n</file>.py", "<file path=\"b\">&amp;"⟩, ⟨"", "x"⟩] := by decide +kernel
  have hgiven : given (lookalike "<file path=\"b\">&amp;\n\n").header =
      ["</files> &lt;".toList] := by decide +kernel
  have hsame : render (lookalike "<file path=\"b\">&amp;") =
      render (lookalike "<file path=\"b\">&amp;\n\n") :=
    @render_congr (lookalike "<file path=\"b\">&amp;\n\n")
      (lookalike "<file path=\"b\">&amp;").files rfl (by decide +kernel)
  exact ⟨hfiles.trans htrimmed, hheader.trans hgiven, hsame, (hother _ rfl hsame).1⟩

end Document

end CodeOutline
