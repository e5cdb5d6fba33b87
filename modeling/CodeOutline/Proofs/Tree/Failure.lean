/-
  CodeOutline/Proofs/Tree/Failure.lean
  ====================================
  **Which trees fail, byte by byte.**

  Whether an error spans what a source shows is decided by two offsets, one counted from each end
  of the source.  The one is the first offset at which the source shows something
  (`showsAt_contentStart`, `contentStart_le`), and the other is the one after the last
  (`exists_contentStop_eq`, `lt_contentStop`).  So the error spans the content exactly when it
  covers every byte that shows (`spansContent_iff`), and `parse_unreadable_iff` says when a tree is
  refused.
-/
import CodeOutline.Compress.File
import Mathlib.Data.List.Induction

namespace CodeOutline

variable {source : List UInt8}

/-- Whether the source has a byte at this offset that is not blank. -/
def ShowsAt (source : List UInt8) (i : Nat) : Prop :=
  ∃ b, source[i]? = some b ∧ isBlankByte b = false

/-! ### The first offset that shows -/

theorem showsAt_cons_zero {b : UInt8} : ShowsAt (b :: source) 0 ↔ isBlankByte b = false := by
  simp [ShowsAt]

theorem showsAt_cons_succ {b : UInt8} {i : Nat} :
    ShowsAt (b :: source) (i + 1) ↔ ShowsAt source i := by
  simp [ShowsAt]

theorem exists_showsAt_iff : (∃ i, ShowsAt source i) ↔ allBlank source = false := by
  rw [allBlank, List.all_eq_false]
  constructor
  · rintro ⟨i, b, hb, hshows⟩
    exact ⟨b, List.mem_of_getElem? hb, by simp [hshows]⟩
  · rintro ⟨b, hb, hshows⟩
    obtain ⟨i, hi⟩ := List.mem_iff_getElem?.mp hb
    exact ⟨i, b, hi, Bool.eq_false_iff.mpr hshows⟩

theorem contentStart_le {i : Nat} (hi : ShowsAt source i) : contentStart source ≤ i := by
  induction source generalizing i with
  | nil =>
    obtain ⟨b, hb, -⟩ := hi
    cases hb
  | cons b rest ih =>
    rw [contentStart, List.takeWhile_cons]
    split
    case isFalse => exact Nat.zero_le i
    case isTrue hblank =>
      cases i with
      | zero =>
        rw [showsAt_cons_zero, hblank] at hi
        cases hi
      | succ i =>
        have hrest : contentStart rest ≤ i := ih (showsAt_cons_succ.mp hi)
        exact Nat.succ_le_succ hrest

theorem showsAt_contentStart (hshows : allBlank source = false) :
    ShowsAt source (contentStart source) := by
  induction source with
  | nil => cases hshows
  | cons b rest ih =>
    rw [contentStart, List.takeWhile_cons]
    cases hblank : isBlankByte b with
    | false => exact showsAt_cons_zero.mpr hblank
    | true =>
      have hrest : allBlank rest = false := by simpa [allBlank, hblank] using hshows
      exact showsAt_cons_succ.mpr (ih hrest)

/-! ### The last offset that shows -/

/-- A last byte that shows is where the content stops; a blank one is passed over. -/
theorem contentStop_concat (source : List UInt8) (b : UInt8) :
    contentStop (source ++ [b]) =
      if isBlankByte b = true then contentStop source else source.length + 1 := by
  rw [contentStop, List.reverse_append, List.reverse_singleton, List.singleton_append,
    List.dropWhile_cons]
  split
  · rfl
  · simp

theorem showsAt_concat_iff {b : UInt8} {i : Nat} :
    ShowsAt (source ++ [b]) i ↔
      ShowsAt source i ∨ i = source.length ∧ isBlankByte b = false := by
  rcases Nat.lt_trichotomy i source.length with hlt | rfl | hlt
  · simp [ShowsAt, List.getElem?_append_left hlt, Nat.ne_of_lt hlt]
  · simp [ShowsAt]
  · have hbeyond : (source ++ [b])[i]? = none :=
      List.getElem?_eq_none (by simpa using Nat.succ_le_of_lt hlt)
    have hnone : source[i]? = none := List.getElem?_eq_none (Nat.le_of_lt hlt)
    simp [ShowsAt, hbeyond, hnone, Nat.ne_of_gt hlt]

theorem lt_length_of_showsAt {i : Nat} (hi : ShowsAt source i) : i < source.length := by
  obtain ⟨b, hb, -⟩ := hi
  exact (List.getElem?_eq_some_iff.mp hb).1

theorem lt_contentStop {i : Nat} (hi : ShowsAt source i) : i < contentStop source := by
  induction source using List.reverseRecOn with
  | nil =>
    obtain ⟨b, hb, -⟩ := hi
    cases hb
  | append_singleton source b ih =>
    rw [contentStop_concat]
    rcases showsAt_concat_iff.mp hi with hearlier | ⟨rfl, hshows⟩
    · split
      · exact ih hearlier
      · exact Nat.lt_succ_of_lt (lt_length_of_showsAt hearlier)
    · rw [if_neg (by simp [hshows])]
      exact Nat.lt_succ_self _

theorem exists_contentStop_eq (hshows : allBlank source = false) :
    ∃ last, ShowsAt source last ∧ contentStop source = last + 1 := by
  induction source using List.reverseRecOn with
  | nil => cases hshows
  | append_singleton source b ih =>
    rw [contentStop_concat]
    cases hblank : isBlankByte b with
    | false => exact ⟨source.length, showsAt_concat_iff.mpr (.inr ⟨rfl, hblank⟩), by simp⟩
    | true =>
      have hearlier : allBlank source = false := by simpa [allBlank, hblank] using hshows
      obtain ⟨last, hlast, hstop⟩ := ih hearlier
      exact ⟨last, showsAt_concat_iff.mpr (.inl hlast), by simpa using hstop⟩

/-! ### Trees that fail -/

namespace Node

/-- A node spans the content of a source that shows something exactly when it covers every byte
that shows. -/
theorem spansContent_iff {node : Node} (hshows : allBlank source = false) :
    node.spansContent source = true ↔
      ∀ i, ShowsAt source i → node.start ≤ i ∧ (i : Int) < node.stop := by
  rw [spansContent, Bool.and_eq_true, decide_eq_true_eq, decide_eq_true_eq]
  constructor
  · rintro ⟨hstart, hstop⟩ i hi
    have hfirst := contentStart_le hi
    have hlast := lt_contentStop hi
    omega
  · intro hcovers
    obtain ⟨last, hlast, hstop⟩ := exists_contentStop_eq hshows
    have hstart := (hcovers _ (showsAt_contentStart hshows)).1
    have hend := (hcovers last hlast).2
    omega

/-- Whether a source shows something of which its tree recognised nothing: the root is an error, or
its only child, whatever token or rule it stands for, is one over every byte that shows. -/
structure Unrecognised (root : Node) (source : List UInt8) : Prop where
  shows : ∃ i, ShowsAt source i
  error : root.kind = errorKind ∨ ∃ only, root.children = [only] ∧ only.kind = errorKind ∧
    ∀ i, ShowsAt source i → only.start ≤ i ∧ (i : Int) < only.stop

theorem isTotalFailure_iff {root : Node} (hshows : allBlank source = false) :
    root.isTotalFailure source = true ↔
      root.kind = errorKind ∨ ∃ only, root.children = [only] ∧ only.kind = errorKind ∧
        ∀ i, ShowsAt source i → only.start ≤ i ∧ (i : Int) < only.stop := by
  rw [isTotalFailure, Bool.or_eq_true, isError, beq_iff_eq]
  apply or_congr_right
  split
  case h_1 only hchildren =>
    rw [Bool.and_eq_true, isError, beq_iff_eq, spansContent_iff hshows, hchildren]
    simp
  case h_2 hmany =>
    constructor
    · intro hfalse
      cases hfalse
    · rintro ⟨only, hchildren, -⟩
      exact absurd hchildren (hmany only)

theorem parseFails_iff {root : Node} :
    root.parseFails source = true ↔ root.Unrecognised source := by
  rw [parseFails, Bool.and_eq_true, Bool.not_eq_true']
  constructor
  · rintro ⟨hshows, hfails⟩
    exact ⟨exists_showsAt_iff.mpr hshows, (isTotalFailure_iff hshows).mp hfails⟩
  · rintro ⟨hexists, herror⟩
    have hshows := exists_showsAt_iff.mp hexists
    exact ⟨hshows, (isTotalFailure_iff hshows).mpr herror⟩

end Node

theorem parse_of_tree {file : SourceFile} {profile : Profile} {root : Node}
    (hparsed : file.parsed = .tree root) :
    file.parse profile = if root.parseFails file.bytes then
      .error (.unreadable ⟨profile.name, "input is a single error node"⟩) else .ok root := by
  unfold SourceFile.parse
  rw [hparsed]

/-- **A tree is refused exactly when the source shows something and the tree recognised none of
it.**  A source of blanks is never refused, and neither is a tree for any other cause. -/
theorem parse_unreadable_iff (root : Node) (source : List UInt8) :
    (root.parseFails source = true ↔ root.Unrecognised source) ∧
      ((∀ b ∈ source, isBlankByte b = true) → root.parseFails source = false) ∧
      ∀ (file : SourceFile) (profile : Profile), file.parsed = .tree root → file.bytes = source →
        ((∃ unread, file.parse profile = .error (.unreadable unread)) ↔
            root.Unrecognised source) ∧
          (¬ root.Unrecognised source → file.parse profile = .ok root) := by
  refine ⟨Node.parseFails_iff, ?_, ?_⟩
  · intro hblank
    rw [Node.parseFails, show allBlank source = true from List.all_eq_true.mpr hblank]
    rfl
  · rintro file profile hparsed rfl
    rw [parse_of_tree hparsed, ← Node.parseFails_iff]
    cases root.parseFails file.bytes with
    | false => simp
    | true => simp

/-- Code whose tree is an error from offset 2 to this one, with blanks at both ends. -/
def errorFile (stop : Int) : SourceFile :=
  ⟨"a.py", "  ?? ?\t\n", none,
    .tree ⟨"module", true, [], 0, 8, [⟨"ERROR", true, [], 2, stop, []⟩]⟩⟩

def pythonProfile : Profile :=
  ⟨"python", [".py"], Grammar.unrestricted, [], true⟩

/-- The last byte that shows is at offset 5: an error that ends before it leaves something. -/
theorem parse_unreadable_iff_edges :
    (∃ unread, (errorFile 6).parse pythonProfile = .error (.unreadable unread)) ∧
      ∃ root, (errorFile 5).parsed = .tree root ∧ ¬ root.Unrecognised (errorFile 5).bytes ∧
        (errorFile 5).parse pythonProfile = .ok root := by
  obtain ⟨hrefused, -, hfile⟩ := parse_unreadable_iff
    ⟨"module", true, [], 0, 8, [⟨"ERROR", true, [], 2, 6, []⟩]⟩ (errorFile 6).bytes
  obtain ⟨hother, -, hread⟩ := parse_unreadable_iff
    ⟨"module", true, [], 0, 8, [⟨"ERROR", true, [], 2, 5, []⟩]⟩ (errorFile 5).bytes
  have hrecognised := mt hother.mpr (by decide)
  constructor
  · exact (hfile (errorFile 6) pythonProfile rfl rfl).1.mpr (hrefused.mp (by decide))
  · exact ⟨_, rfl, hrecognised, (hread (errorFile 5) pythonProfile rfl rfl).2 hrecognised⟩

end CodeOutline
