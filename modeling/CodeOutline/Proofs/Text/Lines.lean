/-
  CodeOutline/Proofs/Text/Lines.lean
  ==================================
  **Lines that are joined are read back.**

  Lines without a boundary in them, with line feeds between them, are the lines of their text,
  whether a line feed ends the last one or not (`lines_joinWith`).  Texts that meet where a line
  ends have their lines one after the other (`lines_append`), and it makes no difference to lines
  whether line feeds have carriage returns before them (`lines_withReturns`).
-/
import CodeOutline.Proofs.Text.Blank
import CodeOutline.Text.Blank

namespace CodeOutline.Text

theorem isBlank_of_isLineBoundary {c : Char} (hc : isLineBoundary c = true) : isBlank c = true := by
  simp only [isLineBoundary, isBlank, isWhiteSpace, Bool.or_eq_true, Bool.and_eq_true, beq_iff_eq,
    decide_eq_true_eq] at hc ⊢
  omega

theorem isLineBoundary_of_isBlank {c : Char} (hc : isBlank c = false) :
    isLineBoundary c = false := by
  rw [Bool.eq_false_iff]
  intro hboundary
  rw [isBlank_of_isLineBoundary hboundary] at hc
  cases hc

theorem lines_cons {c : Char} (rest : Chars) (hc : isLineBoundary c = false) :
    lines (c :: rest) = match lines rest with
      | [] => [[c]]
      | line :: later => (c :: line) :: later := by
  -- a carriage return is a boundary, so the equation for the pair of line ends does not apply
  have hreturn : ∀ later, c = '\r' → rest = '\n' :: later → False := by
    rintro _ rfl -
    cases hc
  rw [lines]
  · exact if_neg (by simp [hc])
  · exact hreturn

theorem lines_boundary_cons {c : Char} {rest : Chars} (hc : isLineBoundary c = true)
    (hpair : c = '\r' → rest.head? ≠ some '\n') : lines (c :: rest) = [] :: lines rest := by
  rw [lines]
  · exact if_pos hc
  · rintro later rfl rfl
    exact hpair rfl rfl

theorem lines_append_lineFeed {s : Chars} (rest : Chars)
    (hs : ∀ c ∈ s, isLineBoundary c = false) :
    lines (s ++ '\n' :: rest) = s :: lines rest := by
  induction s with
  | nil => rfl
  | cons c s ih =>
    rw [List.cons_append, lines_cons _ (hs c List.mem_cons_self),
      ih fun c hc => hs c (List.mem_cons_of_mem _ hc)]

theorem lines_of_forall {s : Chars} (hne : s ≠ []) (hs : ∀ c ∈ s, isLineBoundary c = false) :
    lines s = [s] := by
  induction s with
  | nil => exact absurd rfl hne
  | cons c s ih =>
    rw [lines_cons _ (hs c List.mem_cons_self)]
    by_cases hnil : s = []
    · rw [hnil]
      rfl
    · rw [ih hnil fun c hc => hs c (List.mem_cons_of_mem _ hc)]

theorem lines_joinWith {parts : List Chars} {ending : Chars}
    (hparts : ∀ part ∈ parts, ∀ c ∈ part, isLineBoundary c = false)
    (hlast : ∀ part ∈ parts.getLast?, part ≠ []) (hne : parts ≠ [])
    (hending : ending = [] ∨ ending = ['\n']) :
    lines (joinWith ['\n'] parts ++ ending) = parts := by
  induction parts with
  | nil => exact absurd rfl hne
  | cons part later ih =>
    have hpart := hparts part List.mem_cons_self
    cases later with
    | nil =>
      rcases hending with rfl | rfl
      · rw [joinWith, List.append_nil]
        exact lines_of_forall (hlast part rfl) hpart
      · exact lines_append_lineFeed [] hpart
    | cons next later =>
      rw [joinWith_cons_of_ne_nil (List.cons_ne_nil _ _), List.append_assoc, List.append_assoc]
      show lines (part ++ '\n' :: (joinWith ['\n'] (next :: later) ++ ending)) = _
      rw [lines_append_lineFeed _ hpart, ih]
      · intro part hpart
        exact hparts part (List.mem_cons_of_mem _ hpart)
      · simpa using hlast
      · exact List.cons_ne_nil _ _

theorem lines_ne_nil {s : Chars} (hne : s ≠ []) : lines s ≠ [] := by
  fun_cases lines s with
  | case1 => exact absurd rfl hne
  | case2 rest => exact List.cons_ne_nil _ _
  | case3 c rest hpair hc => exact List.cons_ne_nil _ _
  | case4 c rest hpair hc hrest => exact List.cons_ne_nil _ _
  | case5 c rest hpair hc line later hrest => exact List.cons_ne_nil _ _

/-! ### Texts that meet where a line ends -/

/-- Whether a line ends between two texts: the one that stands above ends its last line, if anything
stands below, and not with the first half of an end whose second half stands below. -/
structure MeetAtEnd (above below : Chars) : Prop where
  ended : below ≠ [] → ∀ c ∈ above.getLast?, isLineBoundary c = true
  apart : above.getLast? = some '\r' → below.head? ≠ some '\n'

theorem MeetAtEnd.of_getLast? {above below : Chars} {c : Char} (hlast : above.getLast? = some c)
    (hc : isLineBoundary c = true) (hother : c ≠ '\r') : MeetAtEnd above below := by
  constructor
  · intro _ d hd
    obtain rfl := Option.some.inj (hlast.symm.trans hd)
    exact hc
  · intro hreturn
    exact absurd (Option.some.inj (hlast.symm.trans hreturn)) hother

theorem MeetAtEnd.tail {c : Char} {rest below : Chars} (hmeet : MeetAtEnd (c :: rest) below)
    (hne : rest ≠ []) : MeetAtEnd rest below := by
  obtain ⟨d, rest, rfl⟩ := List.exists_cons_of_ne_nil hne
  obtain ⟨hended, hapart⟩ := hmeet
  rw [List.getLast?_cons_cons] at hended hapart
  exact ⟨hended, hapart⟩

theorem lines_append {above below : Chars} (hmeet : MeetAtEnd above below) :
    lines (above ++ below) = lines above ++ lines below := by
  by_cases hbelow : below = []
  · rw [hbelow, List.append_nil]
    exact (List.append_nil _).symm
  · fun_induction lines above with
    | case1 => rfl
    | case2 rest ih =>
      show [] :: lines (rest ++ below) = _
      by_cases hne : rest = []
      · rw [hne]
        rfl
      · rw [ih ((hmeet.tail (List.cons_ne_nil _ _)).tail hne), List.cons_append]
    | case3 c rest hpair hc ih =>
      by_cases hne : rest = []
      · subst hne
        have hapart : c = '\r' → below.head? ≠ some '\n' := by
          rintro rfl
          exact hmeet.apart rfl
        exact lines_boundary_cons hc hapart
      · have hhead : (rest ++ below).head? = rest.head? := List.head?_append_of_ne_nil _ hne
        rw [List.cons_append, lines_boundary_cons hc, ih (hmeet.tail hne), List.cons_append]
        rintro rfl hfeed
        rw [hhead, List.head?_eq_some_iff] at hfeed
        obtain ⟨later, rfl⟩ := hfeed
        exact hpair later rfl rfl
    | case4 c rest hpair hc hrest ih =>
      by_cases hne : rest = []
      · subst hne
        exact absurd (hmeet.ended hbelow c rfl) hc
      · exact absurd hrest (lines_ne_nil hne)
    | case5 c rest hpair hc line later hrest ih =>
      by_cases hne : rest = []
      · subst hne
        exact absurd (hmeet.ended hbelow c rfl) hc
      · rw [List.cons_append, lines_cons _ (Bool.eq_false_iff.mpr hc), ih (hmeet.tail hne), hrest]
        rfl

/-- A text is what ends in a line boundary and a last line that does not. -/
theorem exists_ended_append (s : Chars) :
    ∃ front last, s = front ++ last ∧ (∀ c ∈ front.getLast?, isLineBoundary c = true) ∧
      ∀ c ∈ last, isLineBoundary c = false := by
  refine ⟨s.rdropWhile fun c => !isLineBoundary c, s.rtakeWhile fun c => !isLineBoundary c,
    List.rdropWhile_append_rtakeWhile.symm, ?_, ?_⟩
  · intro c hc
    have hhead := List.head?_dropWhile_not (fun c => !isLineBoundary c) s.reverse
    rw [List.rdropWhile, List.getLast?_reverse] at hc
    rw [Option.mem_def.mp hc] at hhead
    simpa using hhead
  · intro c hc
    simpa using List.mem_rtakeWhile_imp hc

/-- A line feed after a last line that was not ended is no further line. -/
theorem lines_concat_lineFeed {s : Chars} (hne : s ≠ [])
    (hopen : ∀ c ∈ s.getLast?, isLineBoundary c = false) : lines (s ++ ['\n']) = lines s := by
  obtain ⟨front, last, rfl, hended, hlast⟩ := exists_ended_append s
  have hnonempty : last ≠ [] := by
    rintro rfl
    rw [List.append_nil] at hne hopen
    have hfront : front.getLast hne ∈ front.getLast? := List.getLast?_eq_some_getLast hne
    have hboundary := hended _ hfront
    rw [hopen _ hfront] at hboundary
    cases hboundary
  have hmeet : ∀ rest, MeetAtEnd front (last ++ rest) := by
    intro rest
    refine ⟨fun _ => hended, fun _ hfeed => ?_⟩
    rw [List.head?_append_of_ne_nil _ hnonempty] at hfeed
    have hinside := hlast '\n' (List.mem_of_mem_head? hfeed)
    cases hinside
  have hwhole := lines_append (hmeet [])
  rw [List.append_nil] at hwhole
  rw [List.append_assoc, lines_append (hmeet ['\n']), lines_append_lineFeed [] hlast, hwhole,
    lines_of_forall hnonempty hlast]
  rfl

/-- The text in which every line feed has a carriage return before it. -/
def withReturns (s : Chars) : Chars :=
  s.flatMap fun c => if c = '\n' then ['\r', '\n'] else [c]

theorem withReturns_cons (c : Char) (rest : Chars) :
    withReturns (c :: rest) = (if c = '\n' then ['\r', '\n'] else [c]) ++ withReturns rest :=
  List.flatMap_cons

theorem lines_withReturns {s : Chars} (hs : '\r' ∉ s) : lines (withReturns s) = lines s := by
  induction s with
  | nil => rfl
  | cons c rest ih =>
    obtain ⟨hc, hrest⟩ := not_or.mp (mt List.mem_cons.mpr hs)
    rw [withReturns_cons]
    split
    case isTrue hfeed =>
      subst hfeed
      show [] :: lines (withReturns rest) = [] :: lines rest
      rw [ih hrest]
    case isFalse hother =>
      cases hboundary : isLineBoundary c with
      | false =>
        rw [List.singleton_append, lines_cons _ hboundary, ih hrest, lines_cons _ hboundary]
      | true =>
        rw [List.singleton_append, lines_boundary_cons hboundary fun h => absurd h.symm hc,
          ih hrest, lines_boundary_cons hboundary fun h => absurd h.symm hc]

/-! ### Lines that are written -/

/-- The text of some lines, each with a line feed. -/
def unlines (lines : List Chars) : Chars :=
  lines.flatMap (· ++ ['\n'])

theorem unlines_append (lines later : List Chars) :
    unlines (lines ++ later) = unlines lines ++ unlines later :=
  List.flatMap_append

theorem unlines_concat (lines : List Chars) (line : Chars) :
    unlines (lines ++ [line]) = unlines lines ++ line ++ ['\n'] := by
  rw [unlines_append, List.append_assoc]
  simp [unlines]

theorem joinWith_append {parts later : List Chars} (hlater : later ≠ []) :
    joinWith ['\n'] (parts ++ later) = unlines parts ++ joinWith ['\n'] later := by
  induction parts with
  | nil => rfl
  | cons part parts ih =>
    have hne : parts ++ later ≠ [] := List.append_ne_nil_of_right_ne_nil _ hlater
    rw [List.cons_append, joinWith_cons_of_ne_nil hne, ih, ← List.append_assoc]
    rfl

theorem joinWith_concat_nil (lines : List Chars) :
    joinWith ['\n'] (lines ++ [[]]) = unlines lines := by
  rw [joinWith_append (List.cons_ne_nil _ _)]
  exact List.append_nil _

theorem unlines_eq_joinWith {lines : List Chars} (hne : lines ≠ []) :
    unlines lines = joinWith ['\n'] lines ++ ['\n'] := by
  obtain ⟨front, last, rfl⟩ := List.eq_nil_or_concat' lines |>.resolve_left hne
  rw [unlines_concat, joinWith_append (List.cons_ne_nil _ _)]
  rfl

end CodeOutline.Text
