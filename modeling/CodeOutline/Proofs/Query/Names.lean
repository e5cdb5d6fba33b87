/-
  CodeOutline/Proofs/Query/Names.lean
  ===================================
  **The capture names of a query.**

  The reader takes a text character by character.  Its captures can be read off the text without
  it: outside the comments, what stands after an at sign and goes on a name (`namesIn`).
  `captureNames_eq` compares the two, one line after the other, since a line feed ends whatever is
  being read.  So a name is written with its at sign somewhere in a query just when a capture's name
  begins with it or a comment has it (`sign_infix_iff`).
-/
import CodeOutline.Proofs.Query.Texts
import CodeOutline.Proofs.Text.Blank

namespace CodeOutline.Query

open Text (Chars)

/-! ### Names in a text -/

/-- What stands after each at sign and goes on a name. -/
def namesAfterSigns : Chars → List Chars
  | [] => []
  | c :: rest =>
    if c = '@' then rest.takeWhile continuesName :: namesAfterSigns rest else namesAfterSigns rest

/-- A line less its comment. -/
def codeOf (line : Chars) : Chars := line.takeWhile (· ≠ ';')

def commentOf (line : Chars) : Chars := line.dropWhile (· ≠ ';')

/-- The names after the at signs of a text, less its comments. -/
def namesIn (text : Chars) : List String :=
  ((Text.splitAtChar '\n' text).flatMap fun line => namesAfterSigns (codeOf line)).map String.ofList

theorem prefix_takeWhile_iff {name s : Chars} (hname : ∀ c ∈ name, continuesName c = true) :
    name <+: s.takeWhile continuesName ↔ name <+: s := by
  constructor
  · intro hbegins
    exact hbegins.trans (List.takeWhile_prefix continuesName)
  · rintro ⟨rest, rfl⟩
    rw [List.takeWhile_append_of_pos hname]
    exact List.prefix_append name _

/-- A name that an at sign is in front of is one that begins with it. -/
theorem sign_infix_code_iff {name s : Chars} (hname : ∀ c ∈ name, continuesName c = true) :
    '@' :: name <:+: s ↔ ∃ found ∈ namesAfterSigns s, name <+: found := by
  induction s with
  | nil => simp [namesAfterSigns]
  | cons c rest ih =>
    rw [List.infix_cons_iff, List.cons_prefix_cons, ih, namesAfterSigns]
    split
    · rename_i hsign
      rw [List.exists_mem_cons_iff, prefix_takeWhile_iff hname, hsign]
      simp
    · rename_i hother
      simp [Ne.symm hother]

theorem commentOf_cases (line : Chars) :
    commentOf line = [] ∨ ∃ rest, commentOf line = ';' :: rest := by
  induction line with
  | nil => exact .inl rfl
  | cons c rest ih =>
    by_cases hc : c = ';'
    · exact .inr ⟨rest, by simp [commentOf, hc]⟩
    · have hskip : commentOf (c :: rest) = commentOf rest := by simp [commentOf, hc]
      rwa [hskip]

theorem infix_line_iff {piece : Chars} (hpiece : ';' ∉ piece) (line : Chars) :
    piece <:+: line ↔ piece <:+: codeOf line ∨ piece <:+: commentOf line := by
  constructor
  · intro hinfix
    have hline : line = codeOf line ++ commentOf line := List.takeWhile_append_dropWhile.symm
    rcases commentOf_cases line with hnone | ⟨rest, hrest⟩
    · rw [hnone, List.append_nil] at hline
      exact .inl (hline ▸ hinfix)
    · rw [hrest] at hline
      rw [hline, Text.infix_append_cons_iff hpiece] at hinfix
      rcases hinfix with hcode | hcomment
      · exact .inl hcode
      · exact .inr (hrest ▸ List.infix_cons hcomment)
  · rintro (hcode | hcomment)
    · exact hcode.trans (List.takeWhile_prefix _).isInfix
    · exact hcomment.trans (List.dropWhile_suffix _).isInfix

/-- **A name is written with its at sign just where a capture's name begins with it, or in a
comment.** -/
theorem sign_infix_iff {name : Chars} (hname : ∀ c ∈ name, continuesName c = true) (text : Chars) :
    '@' :: name <:+: text ↔
      (∃ found ∈ namesIn text, name <+: found.toList) ∨
        ∃ line ∈ Text.splitAtChar '\n' text, '@' :: name <:+: commentOf line := by
  have hfree : ∀ mark : Char, mark ≠ '@' → continuesName mark = false → mark ∉ '@' :: name := by
    intro mark hsign hmark hmem
    rcases List.mem_cons.mp hmem with rfl | hmem
    · exact hsign rfl
    · rw [hname mark hmem] at hmark
      cases hmark
  have hlines : ∀ line, '@' :: name <:+: line ↔
      (∃ found ∈ namesAfterSigns (codeOf line), name <+: found) ∨
        '@' :: name <:+: commentOf line := by
    intro line
    rw [infix_line_iff (hfree ';' (by decide) (by decide)), sign_infix_code_iff hname]
  rw [Text.infix_iff_exists_part (hfree '\n' (by decide) (by decide)), namesIn]
  constructor
  · rintro ⟨line, hline, hinfix⟩
    rcases (hlines line).mp hinfix with ⟨found, hfound, hbegins⟩ | hcomment
    · refine .inl ⟨_, List.mem_map_of_mem (List.mem_flatMap.mpr ⟨line, hline, hfound⟩), ?_⟩
      rwa [String.toList_ofList]
    · exact .inr ⟨line, hline, hcomment⟩
  · rintro (⟨_, hmem, hbegins⟩ | ⟨line, hline, hcomment⟩)
    · obtain ⟨found, hfound, rfl⟩ := List.mem_map.mp hmem
      obtain ⟨line, hline, hfound⟩ := List.mem_flatMap.mp hfound
      rw [String.toList_ofList] at hbegins
      exact ⟨line, hline, (hlines line).mpr (.inl ⟨found, hfound, hbegins⟩)⟩
    · exact ⟨line, hline, (hlines line).mpr (.inr hcomment)⟩

/-! ### The captures that are read -/

def Token.captureName? : Token → Option String
  | .capture name => some name
  | _ => none

/-- The names of the captures among tokens. -/
def captureNames (ts : List Token) : List String := ts.filterMap Token.captureName?

theorem captureNames_append (ts us : List Token) :
    captureNames (ts ++ us) = captureNames ts ++ captureNames us :=
  List.filterMap_append

theorem mem_captureNames_iff {name : String} {ts : List Token} :
    name ∈ captureNames ts ↔ Token.capture name ∈ ts := by
  rw [captureNames, List.mem_filterMap]
  constructor
  · rintro ⟨token, htoken, hname⟩
    cases token with
    | capture other =>
      obtain rfl := Option.some.inj hname
      exact htoken
    | _ => cases hname
  · intro htoken
    exact ⟨_, htoken, rfl⟩

namespace Reading

/-- What of the text is still being read, an at sign included. -/
def pending : Reading → Chars
  | between => []
  | comment => []
  | word read => read.reverse
  | capture read => '@' :: read.reverse

/-- Whether what is being read so far goes on a name. -/
def Legal : Reading → Prop
  | between => True
  | comment => True
  | word read => ∀ c ∈ read, continuesName c = true
  | capture read => ∀ c ∈ read, continuesName c = true

end Reading

theorem namesAfterSigns_append_of_continues {read rest : Chars}
    (hread : ∀ c ∈ read, continuesName c = true) :
    namesAfterSigns (read ++ rest) = namesAfterSigns rest := by
  induction read with
  | nil => rfl
  | cons c read ih =>
    obtain ⟨hc, hread⟩ := List.forall_mem_cons.mp hread
    rw [List.cons_append, namesAfterSigns, if_neg, ih hread]
    rintro rfl
    exact absurd hc (by decide)

/-- Where what is being read ends, its token has the name that is pending. -/
theorem namesAfterSigns_pending {reading : Reading} {done : List Token} (rest : Chars)
    (hlegal : reading.Legal) (hdone : reading.finish = some done)
    (hrest : reading.pending ≠ [] → ∀ c ∈ rest.head?, continuesName c = false) :
    (namesAfterSigns (reading.pending ++ rest)).map String.ofList =
      captureNames done ++ (namesAfterSigns rest).map String.ofList := by
  cases reading with
  | between =>
    obtain rfl := Option.some.inj hdone
    rfl
  | comment =>
    obtain rfl := Option.some.inj hdone
    rfl
  | word read =>
    obtain rfl := Option.some.inj hdone
    have hread : ∀ c ∈ read.reverse, continuesName c = true := by
      simpa [Reading.Legal] using hlegal
    rw [Reading.pending, namesAfterSigns_append_of_continues hread]
    rfl
  | capture read =>
    cases read with
    | nil => cases hdone
    | cons c read =>
      obtain rfl := Option.some.inj hdone
      have hread : ∀ d ∈ (c :: read).reverse, continuesName d = true := by
        simpa [Reading.Legal, or_comm, or_imp, forall_and] using hlegal
      have hrest := hrest (List.cons_ne_nil _ _)
      have hstop : rest.takeWhile continuesName = [] := by
        cases rest with
        | nil => rfl
        | cons d rest => simp [hrest d rfl]
      rw [Reading.pending, List.cons_append, namesAfterSigns, if_pos rfl,
        List.takeWhile_append_of_pos hread, hstop, List.append_nil,
        namesAfterSigns_append_of_continues hread]
      rfl

theorem namesAfterSigns_cons_of_ne {c : Char} (hc : c ≠ '@') (rest : Chars) :
    namesAfterSigns (c :: rest) = namesAfterSigns rest := by
  rw [namesAfterSigns, if_neg hc]

/-- What a character outside all names does: a semicolon starts a comment, and an at sign a
capture. -/
theorem punctuation_eq_some {c : Char} {opened : List Token} {next : Reading}
    (hpunctuation : punctuation c = some (opened, next)) :
    captureNames opened = [] ∧ next.Legal ∧
      ((c = ';' ∧ next = .comment) ∨ (c ≠ ';' ∧ next ≠ .comment ∧
        ∀ rest, namesAfterSigns (c :: rest) = namesAfterSigns (next.pending ++ rest))) := by
  by_cases hsign : c = '@'
  · have hcapture : punctuation '@' = some ([], .capture []) := by decide
    subst hsign
    cases hcapture.symm.trans hpunctuation
    refine ⟨rfl, by simp [Reading.Legal], .inr ⟨by decide, by simp, ?_⟩⟩
    intro rest
    rfl
  · by_cases hsemicolon : c = ';'
    · have hcomment : punctuation ';' = some ([], .comment) := by decide
      subst hsemicolon
      cases hcomment.symm.trans hpunctuation
      exact ⟨rfl, True.intro, .inl ⟨rfl, rfl⟩⟩
    · -- any other character is a token, a space or refused
      have hbetween : captureNames opened = [] ∧ next = .between := by
        rw [punctuation] at hpunctuation
        split_ifs at hpunctuation
        all_goals
          cases hpunctuation
          exact ⟨rfl, rfl⟩
      obtain ⟨hopened, rfl⟩ := hbetween
      exact ⟨hopened, True.intro, .inr ⟨hsemicolon, by simp, namesAfterSigns_cons_of_ne hsign⟩⟩

theorem continuesName_of_startsName {c : Char} (hc : startsName c = true) :
    continuesName c = true := by
  rw [continuesName, hc, Bool.true_or]

/-- A character goes on what is being read, or ends it and stands for itself. -/
theorem step_eq_some {reading next : Reading} {c : Char} {done : List Token}
    (hlegal : reading.Legal) (hcomment : reading ≠ .comment)
    (hstep : reading.step c = some (done, next)) :
    (done = [] ∧ continuesName c = true ∧ next.pending = reading.pending ++ [c] ∧ next.Legal ∧
      next ≠ .comment) ∨
    ∃ finished opened, reading.finish = some finished ∧ punctuation c = some (opened, next) ∧
      done = finished ++ opened ∧ (reading.pending ≠ [] → continuesName c = false) := by
  cases reading with
  | comment => exact absurd rfl hcomment
  | between =>
    rw [Reading.step] at hstep
    split at hstep
    case isTrue hc =>
      cases hstep
      have hcontinues := continuesName_of_startsName hc
      exact .inl ⟨rfl, hcontinues, rfl, by simpa [Reading.Legal] using hcontinues, by simp⟩
    case isFalse => exact .inr ⟨[], done, rfl, hstep, rfl, by simp [Reading.pending]⟩
  | word read =>
    rw [Reading.step] at hstep
    split at hstep
    case isTrue hc =>
      cases hstep
      refine .inl ⟨rfl, hc, by simp [Reading.pending], ?_, by simp⟩
      exact List.forall_mem_cons.mpr ⟨hc, hlegal⟩
    case isFalse hc =>
      obtain ⟨finished, hfinished, hstep⟩ := Option.bind_eq_some_iff.mp hstep
      obtain ⟨opened, hopened, hstep⟩ := Option.bind_eq_some_iff.mp hstep
      cases hstep
      exact .inr ⟨finished, opened.1, hfinished, hopened, rfl, fun _ => by simpa using hc⟩
  | capture read =>
    rw [Reading.step] at hstep
    by_cases hc : (if read = [] then startsName c else continuesName c) = true
    · rw [if_pos hc] at hstep
      cases hstep
      have hcontinues : continuesName c = true := by
        split at hc
        · exact continuesName_of_startsName hc
        · exact hc
      refine .inl ⟨rfl, hcontinues, by simp [Reading.pending], ?_, by simp⟩
      exact List.forall_mem_cons.mpr ⟨hcontinues, hlegal⟩
    · rw [if_neg hc] at hstep
      obtain ⟨finished, hfinished, hstep⟩ := Option.bind_eq_some_iff.mp hstep
      obtain ⟨opened, hopened, hstep⟩ := Option.bind_eq_some_iff.mp hstep
      cases hstep
      refine .inr ⟨finished, opened.1, hfinished, hopened, rfl, fun _ => ?_⟩
      cases read with
      | nil => cases hfinished
      | cons d read => simpa using hc

/-- A comment gives no tokens. -/
theorem tokensFrom_comment {line : Chars} {ts : List Token} (hline : '\n' ∉ line)
    (htokens : tokensFrom .comment line = some ts) : ts = [] := by
  induction line generalizing ts with
  | nil =>
    obtain rfl := Option.some.inj htokens
    rfl
  | cons c rest ih =>
    rw [List.mem_cons, not_or] at hline
    obtain ⟨hc, hrest⟩ := hline
    obtain ⟨done, next, later, hstep, hlater, rfl⟩ := tokensFrom_cons_eq_some htokens
    rw [Reading.step, if_neg (Ne.symm hc)] at hstep
    split at hstep
    · cases hstep
    · cases hstep
      exact ih hrest hlater

/-- Of one line, the captures read have the names after its at signs. -/
theorem captureNames_tokensFrom {reading : Reading} {line : Chars} {ts : List Token}
    (hlegal : reading.Legal) (hcomment : reading ≠ .comment) (hline : '\n' ∉ line)
    (htokens : tokensFrom reading line = some ts) :
    captureNames ts = (namesAfterSigns (reading.pending ++ codeOf line)).map String.ofList := by
  induction line generalizing reading ts with
  | nil =>
    have hnames := namesAfterSigns_pending [] hlegal htokens (by simp)
    rw [codeOf, List.takeWhile_nil, hnames]
    simp [namesAfterSigns]
  | cons c rest ih =>
    have hrest : '\n' ∉ rest := fun hmem => hline (List.mem_cons_of_mem c hmem)
    obtain ⟨done, next, later, hstep, hlater, rfl⟩ := tokensFrom_cons_eq_some htokens
    rw [captureNames_append]
    rcases step_eq_some hlegal hcomment hstep with
      ⟨rfl, hc, hpending, hnext, hnextComment⟩ | ⟨finished, opened, hfinished, hopened, rfl, hends⟩
    · have hcode : codeOf (c :: rest) = c :: codeOf rest := by
        have hsemicolon : c ≠ ';' := by
          rintro rfl
          exact absurd hc (by decide)
        simp [codeOf, hsemicolon]
      rw [ih hnext hnextComment hrest hlater, hpending, hcode, List.append_assoc]
      rfl
    · obtain ⟨hnone, hnext, ⟨rfl, rfl⟩ | ⟨hsemicolon, hnextComment, hnames⟩⟩ :=
        punctuation_eq_some hopened
      · -- the rest of the line is a comment
        have hcode : codeOf (';' :: rest) = [] := rfl
        rw [tokensFrom_comment hrest hlater, hcode, captureNames_append, hnone,
          namesAfterSigns_pending [] hlegal hfinished (by simp)]
        simp [namesAfterSigns, captureNames]
      · have hcode : codeOf (c :: rest) = c :: codeOf rest := by simp [codeOf, hsemicolon]
        rw [captureNames_append, hnone, List.append_nil, hcode,
          namesAfterSigns_pending _ hlegal hfinished (by simpa using hends),
          ih hnext hnextComment hrest hlater, hnames]

theorem captureNames_line {line : Chars} {ts : List Token} (hline : '\n' ∉ line)
    (htokens : tokens line = some ts) :
    captureNames ts = (namesAfterSigns (codeOf line)).map String.ofList := by
  have hbetween : Reading.between.Legal := True.intro
  exact captureNames_tokensFrom hbetween (by simp) hline htokens

/-- **The captures that are read have the names after the at signs of the text.** -/
theorem captureNames_eq {text : Chars} {ts : List Token} (htokens : tokens text = some ts) :
    captureNames ts = namesIn text := by
  have hlines : ∀ lines : List Chars, (∀ line ∈ lines, '\n' ∉ line) → lines ≠ [] → ∀ ts,
      tokens (Text.joinWith ['\n'] lines) = some ts →
        captureNames ts =
          (lines.flatMap fun line => namesAfterSigns (codeOf line)).map String.ofList := by
    intro lines hfree hne
    induction lines with
    | nil => exact absurd rfl hne
    | cons line later ih =>
      intro ts htokens
      obtain ⟨hline, hlater⟩ := List.forall_mem_cons.mp hfree
      by_cases hlast : later = []
      · subst hlast
        simpa using captureNames_line hline htokens
      · rw [Text.joinWith_cons_of_ne_nil hlast, List.append_assoc, List.singleton_append] at htokens
        obtain ⟨first, second, hfirst, hsecond, rfl⟩ := exists_tokens_of_below htokens
        rw [captureNames_append, captureNames_line hline hfirst, ih hlater hlast second hsecond,
          List.flatMap_cons, List.map_append]
  rw [← Text.joinWith_splitAtChar '\n' text] at htokens
  refine hlines _ ?_ (Text.splitAtChar_ne_nil '\n' text) ts htokens
  intro line hline hmem
  exact (Text.mem_splitAtChar hline hmem).2 rfl

end CodeOutline.Query
