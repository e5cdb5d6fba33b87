/-
  CodeOutline/Proofs/Text/Blank.lean
  ==================================
  **Trimming, words and parts of a text.**

  A text whose ends are not blank is its own trimming (`trim_of_ends`), and trimming drops nothing
  from it where more text follows (`trim_append`), nor from any text before something that shows
  (`trimRight_append_of_isVisible`).  Words that blanks separate are read off one by one
  (`words_append_blank`), and parts that are joined by a mark are the parts between its occurrences
  (`splitAtChar_joinWith`).
-/
import CodeOutline.Text.Blank
import Mathlib.Data.List.DropRight
import Mathlib.Data.List.Infix

namespace CodeOutline.Text

/-! ### Blank characters -/

theorem isBlank_of_visible {c : Char} (hlow : 0x20 < c.toNat) (hhigh : c.toNat < 0x80) :
    isBlank c = false := by
  simp only [isBlank, isWhiteSpace, Bool.or_eq_false_iff, Bool.and_eq_false_iff,
    beq_eq_false_iff_ne, decide_eq_false_iff_not]
  omega

theorem isWhiteSpace_of_isBlank {c : Char} (hc : isBlank c = false) : isWhiteSpace c = false :=
  (Bool.or_eq_false_iff.mp hc).1

theorem eq_false_of_any {p : Char → Bool} {s : Chars} (hs : s.any p = false) :
    ∀ c ∈ s, p c = false := by
  intro c hc
  rw [Bool.eq_false_iff]
  exact List.any_eq_false.mp hs c hc

/-! ### Trimming -/

theorem drop_length_takeWhile (p : Char → Bool) (s : Chars) :
    s.drop (s.takeWhile p).length = s.dropWhile p := by
  induction s with
  | nil => rfl
  | cons c rest ih =>
    by_cases hc : p c = true
    · simp [hc, ih]
    · simp [hc]

theorem dropWhile_of_head {p : Char → Bool} {s : Chars} (hs : ∀ c ∈ s.head?, p c = false) :
    s.dropWhile p = s := by
  cases s with
  | nil => rfl
  | cons c rest => simp [hs c rfl]

theorem dropWhile_append_of_head {p : Char → Bool} {front rest : Chars}
    (hfront : ∀ c ∈ front, p c = true) (hrest : ∀ c ∈ rest.head?, p c = false) :
    (front ++ rest).dropWhile p = rest := by
  rw [List.dropWhile_append_of_pos hfront, dropWhile_of_head hrest]

theorem dropRightWhile_append {p : Char → Bool} {s : Chars} (back : Chars)
    (hlast : ∀ c ∈ s.getLast?, p c = false) :
    dropRightWhile p (s ++ back) = s ++ dropRightWhile p back := by
  have hreverse : s.reverse.dropWhile p = s.reverse := dropWhile_of_head (by simpa using hlast)
  simp only [dropRightWhile]
  rw [List.reverse_append, List.dropWhile_append, hreverse]
  split
  · rename_i hnone
    rw [List.isEmpty_iff.mp hnone]
    simp
  · simp

theorem dropRightWhile_append_of_forall {p : Char → Bool} {back : Chars} (s : Chars)
    (hback : ∀ c ∈ back, p c = true) : dropRightWhile p (s ++ back) = dropRightWhile p s := by
  have hreverse : ∀ c ∈ back.reverse, p c = true := fun c hc => hback c (List.mem_reverse.mp hc)
  rw [dropRightWhile, List.reverse_append, List.dropWhile_append_of_pos hreverse, dropRightWhile]

theorem dropRightWhile_append_of_exists {p : Char → Bool} {back : Chars} (s : Chars)
    (hback : ∃ c ∈ back, p c = false) :
    dropRightWhile p (s ++ back) = s ++ dropRightWhile p back := by
  have hleft : ¬ (back.reverse.dropWhile p).isEmpty = true := by
    rw [List.isEmpty_iff, List.dropWhile_eq_nil_iff]
    obtain ⟨c, hc, hp⟩ := hback
    intro hall
    have htrue := hall c (List.mem_reverse.mpr hc)
    rw [hp] at htrue
    cases htrue
  rw [dropRightWhile, List.reverse_append, List.dropWhile_append, if_neg hleft, List.reverse_append,
    List.reverse_reverse, dropRightWhile]

/-- Nothing is trimmed off a text whose ends are not of the class that is trimmed. -/
theorem dropRightWhile_dropWhile_of_ends {p : Char → Bool} {s : Chars}
    (hfirst : ∀ c ∈ s.head?, p c = false) (hlast : ∀ c ∈ s.getLast?, p c = false) :
    dropRightWhile p (s.dropWhile p) = s := by
  have happend : dropRightWhile p (s ++ []) = s ++ [] := dropRightWhile_append [] hlast
  rw [dropWhile_of_head hfirst]
  rwa [List.append_nil] at happend

theorem trim_append_of_blank {front : Chars} (rest : Chars)
    (hfront : ∀ c ∈ front, isBlank c = true) :
    trim (front ++ rest) = trim rest := by
  rw [trim, trimLeft, List.dropWhile_append_of_pos hfront, trim, trimLeft]

/-- Nothing is dropped before what is visible, and nothing after it but at the end. -/
theorem trim_append {s : Chars} (back : Chars) (hfirst : ∀ c ∈ s.head?, isBlank c = false)
    (hlast : ∀ c ∈ s.getLast?, isBlank c = false) (hs : s ≠ []) :
    trim (s ++ back) = s ++ trimRight back := by
  have hleft : trimLeft (s ++ back) = s ++ back := by
    apply dropWhile_of_head
    rwa [List.head?_append_of_ne_nil _ hs]
  rw [trim, hleft]
  exact dropRightWhile_append back hlast

theorem trim_of_ends {s : Chars} (hfirst : ∀ c ∈ s.head?, isBlank c = false)
    (hlast : ∀ c ∈ s.getLast?, isBlank c = false) : trim s = s :=
  dropRightWhile_dropWhile_of_ends hfirst hlast

theorem trim_of_forall {s : Chars} (hs : ∀ c ∈ s, isBlank c = false) : trim s = s :=
  trim_of_ends (fun c hc => hs c (List.mem_of_mem_head? hc))
    fun c hc => hs c (List.mem_of_mem_getLast? hc)

theorem trimWhiteSpace_of_forall {s : Chars} (hs : ∀ c ∈ s, isWhiteSpace c = false) :
    trimWhiteSpace s = s :=
  dropRightWhile_dropWhile_of_ends (fun c hc => hs c (List.mem_of_mem_head? hc))
    fun c hc => hs c (List.mem_of_mem_getLast? hc)

/-- What is trimmed still starts as the text without the blanks before it. -/
theorem trim_prefix_trimLeft (s : Chars) : trim s <+: trimLeft s :=
  List.rdropWhile_prefix isBlank (trimLeft s)

/-- Whether anything in a text shows. -/
def isVisible (s : Chars) : Bool :=
  s.any fun c => !isBlank c

/-- Whether the end of a text shows. -/
def endsVisible (s : Chars) : Bool :=
  s.getLast?.any fun c => !isBlank c

theorem isVisible_append (s t : Chars) : isVisible (s ++ t) = (isVisible s || isVisible t) :=
  List.any_append

theorem isVisible_of_mem {s : Chars} {c : Char} (hc : c ∈ s) (hshown : isBlank c = false) :
    isVisible s = true :=
  List.any_eq_true.mpr ⟨c, hc, by rw [hshown]; rfl⟩

theorem endsVisible_append {back : Chars} (s : Chars) (hback : back ≠ []) :
    endsVisible (s ++ back) = endsVisible back := by
  rw [endsVisible, List.getLast?_append_of_ne_nil _ hback, endsVisible]

theorem trimRight_append_of_isVisible {back : Chars} (s : Chars) (hback : isVisible back = true) :
    trimRight (s ++ back) = s ++ trimRight back := by
  obtain ⟨c, hc, hshown⟩ := List.any_eq_true.mp hback
  apply dropRightWhile_append_of_exists
  exact ⟨c, hc, by simpa using hshown⟩

theorem trimRight_append_of_blank {back : Chars} (s : Chars) (hback : isVisible back = false) :
    trimRight (s ++ back) = trimRight s := by
  apply dropRightWhile_append_of_forall
  intro c hc
  simpa using eq_false_of_any hback c hc

theorem endsVisible_iff {s : Chars} : endsVisible s = true ↔ s ≠ [] ∧ trimRight s = s := by
  induction s using List.reverseRecOn with
  | nil => simp [endsVisible]
  | append_singleton s c =>
    have htrim : trimRight (s ++ [c]) = if isBlank c = true then trimRight s else s ++ [c] :=
      List.rdropWhile_concat isBlank s c
    have hshorter : (trimRight s).length < (s ++ [c]).length := by
      have hle := (List.rdropWhile_prefix isBlank s).length_le
      rw [List.length_append, List.length_singleton]
      exact Nat.lt_succ_of_le hle
    cases hblank : isBlank c with
    | false => simp [endsVisible, htrim, hblank]
    | true =>
      have hne : trimRight s ≠ s ++ [c] := fun heq => absurd (heq ▸ hshorter) (Nat.lt_irrefl _)
      simp [endsVisible, htrim, hblank, hne]

theorem isBlank_of_getLast?_trim {s : Chars} {c : Char} (hc : c ∈ (trim s).getLast?) :
    isBlank c = false := by
  rw [trim, trimRight, dropRightWhile, List.getLast?_reverse] at hc
  have hhead := List.head?_dropWhile_not isBlank (trimLeft s).reverse
  rw [Option.mem_def.mp hc] at hhead
  exact hhead

/-! ### Words -/

theorem words_blank_cons {d : Char} (hd : isBlank d = true) (rest : Chars) :
    words (d :: rest) = words rest := by
  cases rest with
  | nil => simp [words, hd]
  | cons e rest => simp [words, hd]

theorem words_append_blank {s : Chars} {d : Char} (rest : Chars) (hne : s ≠ [])
    (hs : ∀ c ∈ s, isBlank c = false) (hd : isBlank d = true) :
    words (s ++ d :: rest) = s :: words rest := by
  induction s with
  | nil => exact absurd rfl hne
  | cons c s ih =>
    have hc := hs c List.mem_cons_self
    cases s with
    | nil =>
      show words (c :: d :: rest) = _
      rw [words, if_neg (by simp [hc]), if_pos hd, words_blank_cons hd]
    | cons e s =>
      have he := hs e (by simp)
      have hlater := ih (List.cons_ne_nil e s) fun c hc => hs c (List.mem_cons_of_mem _ hc)
      rw [List.cons_append] at hlater
      show words (c :: e :: (s ++ d :: rest)) = _
      rw [words, if_neg (by simp [hc]), if_neg (by simp [he]), hlater]

theorem words_of_forall {s : Chars} (hne : s ≠ []) (hs : ∀ c ∈ s, isBlank c = false) :
    words s = [s] := by
  induction s with
  | nil => exact absurd rfl hne
  | cons c s ih =>
    have hc := hs c List.mem_cons_self
    cases s with
    | nil => simp [words, hc]
    | cons e s =>
      have he := hs e (by simp)
      have hlater := ih (List.cons_ne_nil e s) fun c hc => hs c (List.mem_cons_of_mem _ hc)
      rw [words, if_neg (by simp [hc]), if_neg (by simp [he]), hlater]

/-! ### Parts -/

theorem contains_iff_infix {part s : Chars} : contains part s = true ↔ part <:+: s := by
  induction s with
  | nil => simp [contains]
  | cons c rest ih =>
    rw [contains, Bool.or_eq_true, List.isPrefixOf_iff_prefix, ih, List.infix_cons_iff]

theorem splitAtChar_eq_splitOn (mark : Char) (s : Chars) : splitAtChar mark s = s.splitOn mark := by
  induction s with
  | nil => rfl
  | cons c rest ih =>
    rw [splitAtChar, ih, List.splitOn_cons_eq_if_modifyHead]
    by_cases hc : c = mark
    · simp [hc]
    · rw [if_neg hc, if_neg (by simpa using hc)]
      cases hsplit : rest.splitOn mark with
      | nil => exact absurd hsplit (List.splitOn_ne_nil mark rest)
      | cons part later => rfl

theorem splitAtChar_ne_nil (mark : Char) (s : Chars) : splitAtChar mark s ≠ [] := by
  rw [splitAtChar_eq_splitOn]
  exact List.splitOn_ne_nil mark s

theorem joinWith_eq_intercalate (between : Chars) (parts : List Chars) :
    joinWith between parts = between.intercalate parts := by
  induction parts with
  | nil => rfl
  | cons part later ih =>
    cases later with
    | nil => simp [joinWith]
    | cons next later => rw [joinWith, ih, List.intercalate_cons_cons, List.append_assoc]

theorem splitAtChar_joinWith {mark : Char} {parts : List Chars} (hne : parts ≠ [])
    (hparts : ∀ part ∈ parts, mark ∉ part) :
    splitAtChar mark (joinWith [mark] parts) = parts := by
  rw [splitAtChar_eq_splitOn, joinWith_eq_intercalate, List.splitOn_intercalate mark hparts hne]

theorem joinWith_splitAtChar (mark : Char) (s : Chars) :
    joinWith [mark] (splitAtChar mark s) = s := by
  rw [splitAtChar_eq_splitOn, joinWith_eq_intercalate, List.intercalate_splitOn]

theorem mem_splitAtChar {mark : Char} {s part : Chars} {c : Char}
    (hpart : part ∈ splitAtChar mark s) (hc : c ∈ part) :
    c ∈ s ∧ c ≠ mark := by
  fun_induction splitAtChar mark s generalizing part with
  | case1 =>
    rw [List.mem_singleton.mp hpart] at hc
    cases hc
  | case2 rest ih =>
    rcases List.mem_cons.mp hpart with rfl | hlater
    · cases hc
    · obtain ⟨hmem, hne⟩ := ih hlater hc
      exact ⟨List.mem_cons_of_mem _ hmem, hne⟩
  | case3 d rest hd hnil ih =>
    obtain rfl := List.mem_singleton.mp (List.mem_singleton.mp hpart ▸ hc)
    exact ⟨List.mem_cons_self, hd⟩
  | case4 d rest hd first later hsplit ih =>
    rw [hsplit] at ih
    rcases List.mem_cons.mp hpart with rfl | hlater
    · rcases List.mem_cons.mp hc with rfl | hc
      · exact ⟨List.mem_cons_self, hd⟩
      · obtain ⟨hmem, hne⟩ := ih List.mem_cons_self hc
        exact ⟨List.mem_cons_of_mem _ hmem, hne⟩
    · obtain ⟨hmem, hne⟩ := ih (List.mem_cons_of_mem _ hlater) hc
      exact ⟨List.mem_cons_of_mem _ hmem, hne⟩

/-- The last part is not empty where the text does not end in the mark. -/
theorem ne_nil_of_getLast?_splitAtChar {mark : Char} {s part : Chars} (hne : s ≠ [])
    (hlast : s.getLast? ≠ some mark) (hpart : (splitAtChar mark s).getLast? = some part) :
    part ≠ [] := by
  fun_induction splitAtChar mark s with
  | case1 => exact absurd rfl hne
  | case2 rest ih =>
    cases rest with
    | nil => exact absurd rfl hlast
    | cons d rest =>
      rw [List.getLast?_cons_cons] at hlast
      rw [splitAtChar_eq_splitOn] at hpart ih
      obtain ⟨first, later, hsplit⟩ :=
        List.exists_cons_of_ne_nil (List.splitOn_ne_nil mark (d :: rest))
      rw [hsplit, List.getLast?_cons_cons, ← hsplit] at hpart
      exact ih (List.cons_ne_nil d rest) hlast hpart
  | case3 d rest hd hnil ih =>
    obtain rfl := Option.some.inj hpart
    exact List.cons_ne_nil _ _
  | case4 d rest hd first later hsplit ih =>
    cases later with
    | nil =>
      obtain rfl := Option.some.inj hpart
      exact List.cons_ne_nil _ _
    | cons second later =>
      cases rest with
      | nil => cases hsplit
      | cons e rest =>
        rw [hsplit] at ih
        exact ih (List.cons_ne_nil e rest) hlast hpart

theorem joinWith_cons_of_ne_nil {between part : Chars} {parts : List Chars} (hne : parts ≠ []) :
    joinWith between (part :: parts) = part ++ between ++ joinWith between parts := by
  cases parts with
  | nil => exact absurd rfl hne
  | cons next parts => rfl

theorem mem_joinWith {between : Chars} {parts : List Chars} {c : Char}
    (hc : c ∈ joinWith between parts) : c ∈ between ∨ ∃ part ∈ parts, c ∈ part := by
  induction parts with
  | nil => cases hc
  | cons part later ih =>
    by_cases hlater : later = []
    · subst hlater
      exact .inr ⟨part, List.mem_cons_self, hc⟩
    · rw [joinWith_cons_of_ne_nil hlater, List.mem_append, List.mem_append] at hc
      rcases hc with (hpart | hbetween) | hrest
      · exact .inr ⟨part, List.mem_cons_self, hpart⟩
      · exact .inl hbetween
      · rcases ih hrest with hbetween | ⟨other, hother, hmem⟩
        · exact .inl hbetween
        · exact .inr ⟨other, List.mem_cons_of_mem _ hother, hmem⟩

/-! ### What stands in a part -/

theorem prefix_append_cons_iff {mark : Char} {piece : Chars} (hpiece : mark ∉ piece)
    (front back : Chars) : piece <+: front ++ mark :: back ↔ piece <+: front := by
  induction front generalizing piece with
  | nil =>
    cases piece with
    | nil => simp
    | cons c piece =>
      rw [List.nil_append, List.cons_prefix_cons]
      constructor
      · rintro ⟨rfl, -⟩
        exact absurd List.mem_cons_self hpiece
      · intro hnil
        cases List.prefix_nil.mp hnil
  | cons d front ih =>
    cases piece with
    | nil => simp
    | cons c piece =>
      rw [List.cons_append, List.cons_prefix_cons, List.cons_prefix_cons,
        ih fun hmark => hpiece (List.mem_cons_of_mem _ hmark)]

/-- What does not hold the mark stands on one side of it. -/
theorem infix_append_cons_iff {mark : Char} {piece : Chars} (hpiece : mark ∉ piece)
    (front back : Chars) :
    piece <:+: front ++ mark :: back ↔ piece <:+: front ∨ piece <:+: back := by
  induction front with
  | nil =>
    have hfirst := prefix_append_cons_iff hpiece [] back
    rw [List.nil_append] at hfirst ⊢
    rw [List.infix_cons_iff, hfirst, List.prefix_nil, List.infix_nil]
  | cons d front ih =>
    have hfirst := prefix_append_cons_iff hpiece (d :: front) back
    rw [List.cons_append] at hfirst ⊢
    rw [List.infix_cons_iff, List.infix_cons_iff, hfirst, ih, or_assoc]

theorem infix_joinWith_iff {mark : Char} {piece : Chars} (hpiece : mark ∉ piece)
    {parts : List Chars} (hne : parts ≠ []) :
    piece <:+: joinWith [mark] parts ↔ ∃ part ∈ parts, piece <:+: part := by
  induction parts with
  | nil => exact absurd rfl hne
  | cons part later ih =>
    by_cases hlater : later = []
    · subst hlater
      simp [joinWith]
    · rw [joinWith_cons_of_ne_nil hlater, List.append_assoc, List.singleton_append,
        infix_append_cons_iff hpiece, ih hlater, List.exists_mem_cons_iff]

/-- What does not hold the mark stands in a text when it stands in one of its parts. -/
theorem infix_iff_exists_part {mark : Char} {piece : Chars} (hpiece : mark ∉ piece) (s : Chars) :
    piece <:+: s ↔ ∃ part ∈ splitAtChar mark s, piece <:+: part := by
  rw [← infix_joinWith_iff hpiece (splitAtChar_ne_nil mark s), joinWith_splitAtChar]

end CodeOutline.Text
