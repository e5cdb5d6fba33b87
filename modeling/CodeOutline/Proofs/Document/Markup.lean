/-
  CodeOutline/Proofs/Document/Markup.lean
  =======================================
  **Reading markup back.**

  A document is cut at its angle brackets into pieces, each a tag and the text after it, and
  entities are undone.  The reader knows nothing of the document but its characters.  Text that
  was escaped holds no bracket (`noMarkup_escape`), so it never opens a piece, and it is what it
  was once its entities are undone (`unescape_escape`).
-/
import CodeOutline.Document.Render
import CodeOutline.Proofs.Text.Blank

namespace CodeOutline.Markup

open Text (Chars)

/-! ### Entities -/

/-- Undoes the entities of a text. -/
def unescape : Chars → Chars
  | [] => []
  | '&' :: 'a' :: 'm' :: 'p' :: ';' :: rest => '&' :: unescape rest
  | '&' :: 'l' :: 't' :: ';' :: rest => '<' :: unescape rest
  | '&' :: 'g' :: 't' :: ';' :: rest => '>' :: unescape rest
  | '&' :: 'q' :: 'u' :: 'o' :: 't' :: ';' :: rest => '"' :: unescape rest
  | '&' :: '#' :: '1' :: '0' :: ';' :: rest => '\n' :: unescape rest
  | '&' :: '#' :: '1' :: '3' :: ';' :: rest => '\r' :: unescape rest
  | '&' :: '#' :: '9' :: ';' :: rest => '\t' :: unescape rest
  | c :: rest => c :: unescape rest

theorem unescape_cons_of_ne {c : Char} (rest : Chars) (hc : c ≠ '&') :
    unescape (c :: rest) = c :: unescape rest := by
  rw [unescape]
  all_goals
    rintro _ rfl
    exact absurd rfl hc

theorem unescape_escapeChar (c : Char) (rest : Chars) :
    unescape (escapeChar c ++ rest) = c :: unescape rest := by
  rw [escapeChar]
  split_ifs with hamp hlt hgt
  · rw [hamp]
    rfl
  · rw [hlt]
    rfl
  · rw [hgt]
    rfl
  · exact unescape_cons_of_ne rest hamp

theorem unescape_escapeAttributeChar (mark c : Char) (rest : Chars) :
    unescape (escapeAttributeChar mark c ++ rest) = c :: unescape rest := by
  rw [escapeAttributeChar]
  split_ifs with hfeed hreturn htab hquote
  · rw [hfeed]
    rfl
  · rw [hreturn]
    rfl
  · rw [htab]
    rfl
  · rw [Bool.and_eq_true, decide_eq_true_eq] at hquote
    rw [hquote.1]
    rfl
  · exact unescape_escapeChar c rest

theorem unescape_flatMap {f : Char → Chars}
    (hf : ∀ c rest, unescape (f c ++ rest) = c :: unescape rest) (s : Chars) :
    unescape (s.flatMap f) = s := by
  induction s with
  | nil => rfl
  | cons c s ih => rw [List.flatMap_cons, hf, ih]

theorem unescape_escape (s : Chars) : unescape (escape s) = s :=
  unescape_flatMap unescape_escapeChar s

/-! ### Angle brackets -/

/-- Whether a text holds no angle bracket. -/
def NoMarkup (s : Chars) : Prop :=
  ∀ c ∈ s, c ≠ '<' ∧ c ≠ '>'

instance (s : Chars) : Decidable (NoMarkup s) :=
  List.decidableBAll (fun c => c ≠ '<' ∧ c ≠ '>') s

theorem noMarkup_append {s t : Chars} (hs : NoMarkup s) (ht : NoMarkup t) : NoMarkup (s ++ t) :=
  List.forall_mem_append.mpr ⟨hs, ht⟩

theorem noMarkup_flatMap {f : Char → Chars} (hf : ∀ c, NoMarkup (f c)) (s : Chars) :
    NoMarkup (s.flatMap f) := by
  intro d hd
  obtain ⟨c, -, hmem⟩ := List.mem_flatMap.mp hd
  exact hf c d hmem

theorem noMarkup_escapeChar (c : Char) : NoMarkup (escapeChar c) := by
  rw [escapeChar]
  split_ifs with hamp hlt hgt
  · decide
  · decide
  · decide
  · exact List.forall_mem_singleton.mpr ⟨hlt, hgt⟩

theorem noMarkup_escapeAttributeChar (mark c : Char) : NoMarkup (escapeAttributeChar mark c) := by
  rw [escapeAttributeChar]
  split_ifs
  case neg => exact noMarkup_escapeChar c
  all_goals decide

theorem noMarkup_escape (s : Chars) : NoMarkup (escape s) :=
  noMarkup_flatMap noMarkup_escapeChar s

theorem noMarkup_quoteAttribute (s : Chars) : NoMarkup (quoteAttribute s) := by
  have hmark : NoMarkup [attributeMark s] := by
    rw [attributeMark]
    split <;> decide
  exact noMarkup_append (noMarkup_append hmark
    (noMarkup_flatMap (noMarkup_escapeAttributeChar (attributeMark s)) s)) hmark

/-! ### Pieces -/

/-- What stands between two angle brackets, and the text after it. -/
structure Piece where
  tag : Chars
  text : Chars
deriving DecidableEq, Repr

/-- Cuts a text at its first closing bracket. -/
def Piece.cut (s : Chars) : Piece :=
  ⟨s.takeWhile (· ≠ '>'), (s.dropWhile (· ≠ '>')).drop 1⟩

/-- The pieces of a document; each starts at an opening bracket. -/
def pieces (document : Chars) : List Piece :=
  (Text.splitAtChar '<' document).tail.map Piece.cut

/-- A text without its first and its last character. -/
def inner (s : Chars) : Chars :=
  s.tail.dropLast

/-- The text after the tag of the given name, without the line feeds around it. -/
def Piece.text? (name : String) (piece : Piece) : Option Chars :=
  if piece.tag = name.toList then some (unescape (inner piece.text)) else none

/-- The file of a piece: its path is the tag's attribute, without its quotes. -/
def Piece.file? (piece : Piece) : Option Output :=
  (piece.tag.dropPrefix? "file path=".toList).map fun value =>
    ⟨String.ofList (unescape (inner value)), String.ofList (unescape (inner piece.text))⟩

/-- What the pieces of a document hold, in their order. -/
def collect {α : Type} (hold : Piece → Option α) (document : Chars) : List α :=
  (pieces document).filterMap hold

def readTexts (name : String) (document : String) : List Chars :=
  collect (Piece.text? name) document.toList

def readFiles (document : String) : List Output :=
  collect Piece.file? document.toList

theorem inner_between (first last : Char) (s : Chars) : inner (first :: (s ++ [last])) = s :=
  List.dropLast_concat

theorem unescape_inner_quoteAttribute (s : Chars) : unescape (inner (quoteAttribute s)) = s := by
  rw [quoteAttribute, List.cons_append, inner_between]
  exact unescape_flatMap (unescape_escapeAttributeChar (attributeMark s)) s

theorem splitAtChar_eq_cons (mark : Char) (s : Chars) :
    Text.splitAtChar mark s = s.takeWhile (· ≠ mark) :: (Text.splitAtChar mark s).tail := by
  induction s with
  | nil => rfl
  | cons c s ih =>
    rw [Text.splitAtChar]
    split_ifs with hc
    · simp [hc]
    · rw [ih]
      simp [hc]

/-- An opening bracket opens a piece. -/
theorem pieces_bracket (rest : Chars) :
    pieces ('<' :: rest) = Piece.cut (rest.takeWhile (· ≠ '<')) :: pieces rest := by
  rw [pieces, Text.splitAtChar, if_pos rfl, List.tail_cons, splitAtChar_eq_cons, List.map_cons,
    pieces]

/-- Nothing else does. -/
theorem pieces_append {s : Chars} (hs : '<' ∉ s) (rest : Chars) :
    pieces (s ++ rest) = pieces rest := by
  induction s with
  | nil => rfl
  | cons c s ih =>
    rw [List.mem_cons, not_or] at hs
    obtain ⟨hc, hlater⟩ := hs
    rw [← ih hlater, List.cons_append, pieces, Text.splitAtChar, if_neg (Ne.symm hc),
      splitAtChar_eq_cons, pieces]
    rfl

theorem cut_tag {tag : Chars} (htag : NoMarkup tag) (text : Chars) :
    Piece.cut (tag ++ '>' :: text) = ⟨tag, text⟩ := by
  have hall : ∀ c ∈ tag, decide (c ≠ '>') = true := fun c hc => decide_eq_true (htag c hc).2
  rw [Piece.cut, List.takeWhile_append_of_pos hall, List.dropWhile_append_of_pos hall]
  simp

/-- The piece that a tag opens, with the text up to the next bracket. -/
theorem pieces_tag {tag : Chars} (htag : NoMarkup tag) (rest : Chars) :
    pieces ('<' :: (tag ++ '>' :: rest)) = ⟨tag, rest.takeWhile (· ≠ '<')⟩ :: pieces rest := by
  have hsplit : tag ++ '>' :: rest = (tag ++ ['>']) ++ rest := by simp
  have hopened : ∀ c ∈ tag ++ ['>'], c ≠ '<' := by
    rw [List.forall_mem_append, List.forall_mem_singleton]
    exact ⟨fun c hc => (htag c hc).1, by decide⟩
  have hall : ∀ c ∈ tag ++ ['>'], decide (c ≠ '<') = true :=
    fun c hc => decide_eq_true (hopened c hc)
  rw [pieces_bracket, hsplit, pieces_append fun hmem => hopened _ hmem rfl,
    List.takeWhile_append_of_pos hall, List.append_assoc, List.singleton_append, cut_tag htag]

section

variable {α : Type} {hold : Piece → Option α}

theorem collect_append {s : Chars} (hs : '<' ∉ s) (rest : Chars) :
    collect hold (s ++ rest) = collect hold rest := by
  rw [collect, pieces_append hs, collect]

theorem collect_cons_of_ne {c : Char} (hc : c ≠ '<') (rest : Chars) :
    collect hold (c :: rest) = collect hold rest :=
  collect_append (s := [c]) (by simpa using hc.symm) rest

theorem collect_tag {tag text : Chars} (htag : NoMarkup tag) (htext : NoMarkup text)
    (rest : Chars) :
    collect hold ('<' :: (tag ++ '>' :: (text ++ '<' :: rest))) =
      (hold ⟨tag, text⟩).toList ++ collect hold ('<' :: rest) := by
  have hall : ∀ c ∈ text, decide (c ≠ '<') = true := fun c hc => decide_eq_true (htext c hc).1
  have htake : (text ++ '<' :: rest).takeWhile (· ≠ '<') = text := by
    rw [List.takeWhile_append_of_pos hall, List.takeWhile_cons_of_neg (by decide), List.append_nil]
  rw [collect, pieces_tag htag, htake, pieces_append fun hmem => (htext _ hmem).1 rfl,
    List.filterMap_cons, collect]
  cases hold ⟨tag, text⟩ <;> rfl

/-- A tag after which nothing is read. -/
theorem collect_of_none {tag : Chars} (htag : NoMarkup tag)
    (hnone : ∀ text, hold ⟨tag, text⟩ = none) (rest : Chars) :
    collect hold ('<' :: (tag ++ '>' :: rest)) = collect hold rest := by
  rw [collect, pieces_tag htag, List.filterMap_cons_none (hnone _), collect]

/-- A closing tag holds nothing. -/
theorem collect_closing (hclosing : ∀ piece, piece.tag.head? = some '/' → hold piece = none)
    {name : Chars} (hname : NoMarkup name) (rest : Chars) :
    collect hold ('<' :: '/' :: (name ++ '>' :: rest)) = collect hold rest := by
  have hslash : NoMarkup ('/' :: name) := List.forall_mem_cons.mpr ⟨by decide, hname⟩
  exact collect_of_none hslash (fun text => hclosing _ rfl) rest

end

end CodeOutline.Markup
