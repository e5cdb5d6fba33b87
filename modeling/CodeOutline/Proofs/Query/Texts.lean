/-
  CodeOutline/Proofs/Query/Texts.lean
  ===================================
  **Queries that stand one below the other.**

  A line feed ends every token and every comment, so the tokens of two texts follow each other
  (`tokens_below`, `exists_tokens_of_below`).  The reader only adds to the items that it has closed,
  and captures belong to the latest one, so items from before a query make no difference to it
  (`step_onTop`, `run_onTop`).  Two queries below each other are read as the patterns of both
  (`read_below`), and so are any number of lines (`read_lines`).
-/
import CodeOutline.Query.Reader

namespace CodeOutline.Query

open Text (Chars)

/-! ### Tokens -/

/-- A line feed ends what is being read, with the tokens that the end of the text would give. -/
theorem step_lineFeed {reading : Reading} {done : List Token} (hdone : reading.finish = some done) :
    reading.step '\n' = some (done, .between) := by
  have hpunctuation : punctuation '\n' = some ([], .between) := by decide
  have hname : continuesName '\n' = false := by decide
  have hstart : startsName '\n' = false := by decide
  cases reading with
  | between =>
    obtain rfl : [] = done := Option.some.inj hdone
    simp [Reading.step, hstart, hpunctuation]
  | comment =>
    obtain rfl : [] = done := Option.some.inj hdone
    decide
  | word read => simp [Reading.step, hname, hpunctuation, hdone]
  | capture read =>
    cases read with
    | nil => cases hdone
    | cons c earlier => simp [Reading.step, hname, hpunctuation, hdone]

theorem tokensFrom_cons_eq_some {reading : Reading} {c : Char} {rest : Chars} {ts : List Token}
    (htokens : tokensFrom reading (c :: rest) = some ts) :
    ∃ done next later, reading.step c = some (done, next) ∧ tokensFrom next rest = some later ∧
      ts = done ++ later := by
  rw [tokensFrom] at htokens
  obtain ⟨result, hstep, htokens⟩ := Option.bind_eq_some_iff.mp htokens
  obtain ⟨later, hlater, htokens⟩ := Option.bind_eq_some_iff.mp htokens
  exact ⟨result.1, result.2, later, hstep, hlater, (Option.some.inj htokens).symm⟩

theorem tokensFrom_below {reading : Reading} {above below : Chars} {first second : List Token}
    (hfirst : tokensFrom reading above = some first) (hsecond : tokens below = some second) :
    tokensFrom reading (above ++ '\n' :: below) = some (first ++ second) := by
  induction above generalizing reading first with
  | nil =>
    rw [tokens] at hsecond
    rw [List.nil_append, tokensFrom, step_lineFeed hfirst]
    simp [hsecond]
  | cons c rest ih =>
    obtain ⟨done, next, later, hstep, hlater, rfl⟩ := tokensFrom_cons_eq_some hfirst
    rw [List.cons_append, tokensFrom, hstep]
    simp [ih hlater]

theorem tokens_below {above below : Chars} {first second : List Token}
    (hfirst : tokens above = some first) (hsecond : tokens below = some second) :
    tokens (above ++ '\n' :: below) = some (first ++ second) :=
  tokensFrom_below hfirst hsecond

/-- A line feed ends whatever is being read, so two texts are read one after the other. -/
theorem exists_tokens_of_below {reading : Reading} {above below : Chars} {ts : List Token}
    (htokens : tokensFrom reading (above ++ '\n' :: below) = some ts) :
    ∃ first second, tokensFrom reading above = some first ∧ tokens below = some second ∧
      ts = first ++ second := by
  induction above generalizing reading ts with
  | nil =>
    obtain ⟨done, next, later, hstep, hlater, rfl⟩ := tokensFrom_cons_eq_some htokens
    cases hfinish : reading.finish with
    | some finished =>
      rw [step_lineFeed hfinish] at hstep
      cases hstep
      exact ⟨done, later, hfinish, hlater, rfl⟩
    | none =>
      -- only an at sign without a name cannot end
      cases reading with
      | capture read =>
        cases read with
        | nil =>
          have hnone : (Reading.capture []).step '\n' = none := by decide
          rw [hnone] at hstep
          cases hstep
        | cons c read => cases hfinish
      | _ => cases hfinish
  | cons c rest ih =>
    obtain ⟨done, next, later, hstep, hlater, rfl⟩ := tokensFrom_cons_eq_some htokens
    obtain ⟨first, second, hfirst, hsecond, rfl⟩ := ih hlater
    refine ⟨done ++ first, second, ?_, hsecond, by rw [List.append_assoc]⟩
    rw [tokensFrom, hstep]
    simp [hfirst]

/-! ### Items from before -/

/-- The state in which items were closed before. -/
def State.onTop (s : State) (earlier : List Item) : State :=
  { s with done := s.done ++ earlier }

section

variable {s t : State} (earlier : List Item)

theorem add_onTop (item : Item) : (s.onTop earlier).add item = (s.add item).onTop earlier := by
  obtain ⟨frames, done, awaits⟩ := s
  cases frames with
  | nil => rfl
  | cons frame outer => rfl

theorem close_onTop : (s.onTop earlier).close = s.close.map fun t => t.onTop earlier := by
  obtain ⟨frames, done, awaits⟩ := s
  cases frames with
  | nil => rfl
  | cons frame outer =>
    simp only [State.close, State.onTop, Option.map_map]
    refine congrArg (frame.close.map ·) (funext fun item => ?_)
    exact add_onTop (s := ⟨outer, done, awaits⟩) earlier item

theorem captureLatest_append {name : String} {done captured : List Item}
    (hcaptured : captureLatest name done = some captured) :
    captureLatest name (done ++ earlier) = some (captured ++ earlier) := by
  cases done with
  | nil => cases hcaptured
  | cons item before =>
    obtain rfl := Option.some.inj hcaptured
    rfl

theorem capture_onTop {name : String} (hcapture : s.capture name = some t) :
    (s.onTop earlier).capture name = some (t.onTop earlier) := by
  obtain ⟨frames, done, awaits⟩ := s
  cases frames with
  | nil =>
    obtain ⟨captured, hcaptured, rfl⟩ := Option.map_eq_some_iff.mp hcapture
    simp [State.onTop, State.capture, captureLatest_append earlier hcaptured]
  | cons frame outer =>
    obtain ⟨captured, hcaptured, rfl⟩ := Option.map_eq_some_iff.mp hcapture
    simp [State.onTop, State.capture, hcaptured]

theorem readWord_onTop (field : Option String) (word : Chars) :
    (s.onTop earlier).readWord field word =
      (s.readWord field word).map fun t => t.onTop earlier := by
  fun_induction State.readWord s field word with
  | case1 s field => rfl
  | case2 s field rest ih =>
    rw [State.readWord, add_onTop, ih]
  | case3 s field rest => rfl
  | case4 s name hnil hany hdot =>
    rw [State.readWord, if_pos rfl]
    · rfl
    · exact hnil
    · exact hany
    · exact hdot
  | case5 s field name hnil hany hdot hfield =>
    rw [State.readWord, if_neg hfield]
    · rfl
    · exact hnil
    · exact hany
    · exact hdot

/-- Whatever the reader does, it does the same with items from before. -/
theorem step_onTop {token : Token} (hstep : s.step token = some t) :
    (s.onTop earlier).step token = some (t.onTop earlier) := by
  obtain ⟨frames, done, awaits⟩ := s
  cases awaits with
  | item =>
    cases token with
    | opening =>
      obtain rfl := Option.some.inj hstep
      rfl
    | closing =>
      have hclose : State.close ⟨frames, done, .item⟩ = some t := hstep
      show (State.onTop ⟨frames, done, .item⟩ earlier).close = _
      rw [close_onTop, hclose, Option.map_some]
    | colon => cases hstep
    | word text =>
      have hword : State.readWord ⟨frames, done, .item⟩ none text.toList = some t := hstep
      show (State.onTop ⟨frames, done, .item⟩ earlier).readWord none text.toList = _
      rw [readWord_onTop, hword, Option.map_some]
    | capture name => exact capture_onTop earlier hstep
  | colon field =>
    cases token with
    | colon =>
      obtain rfl := Option.some.inj hstep
      rfl
    | _ => cases hstep
  | opening field =>
    cases token with
    | opening =>
      obtain rfl := Option.some.inj hstep
      rfl
    | word text =>
      have hword :
          State.readWord ⟨frames, done, .opening field⟩ (some field) text.toList = some t := hstep
      show (State.onTop ⟨frames, done, .opening field⟩ earlier).readWord (some field)
        text.toList = _
      rw [readWord_onTop, hword, Option.map_some]
    | _ => cases hstep
  | kind field =>
    cases token with
    | opening =>
      obtain rfl := Option.some.inj hstep
      rfl
    | word text =>
      simp only [State.step, State.onTop] at hstep ⊢
      split at hstep
      case isTrue hany =>
        obtain rfl := Option.some.inj hstep
        rw [if_pos hany]
        rfl
      case isFalse hany =>
        rw [if_neg hany]
        split at hstep
        case isTrue hmissing =>
          obtain rfl := Option.some.inj hstep
          rw [if_pos hmissing]
        case isFalse hmissing =>
          obtain rfl := Option.some.inj hstep
          rw [if_neg hmissing]
          rfl
    | _ => cases hstep
  | missing field =>
    cases token with
    | closing =>
      obtain rfl := Option.some.inj hstep
      exact congrArg some (add_onTop earlier _)
    | word text =>
      obtain rfl := Option.some.inj hstep
      rfl
    | _ => cases hstep

end

theorem run_onTop {s t : State} (earlier : List Item) {tokens : List Token}
    (hrun : tokens.foldlM State.step s = some t) :
    tokens.foldlM State.step (s.onTop earlier) = some (t.onTop earlier) := by
  induction tokens generalizing s with
  | nil =>
    obtain rfl := Option.some.inj hrun
    rfl
  | cons token later ih =>
    rw [List.foldlM_cons] at hrun ⊢
    obtain ⟨next, hstep, hlater⟩ := Option.bind_eq_some_iff.mp hrun
    rw [step_onTop earlier hstep]
    exact ih hlater

/-! ### Texts -/

theorem finish_eq_some_iff {s : State} {query : Query} :
    s.finish = some query ↔
      s = start.onTop s.done ∧ s.done.reverse.map Item.pattern = query := by
  obtain ⟨frames, done, awaits⟩ := s
  cases awaits with
  | item =>
    cases frames with
    | nil => simp [State.finish, State.onTop, start]
    | cons frame outer => simp [State.finish, State.onTop, start]
  | _ => simp [State.finish, State.onTop, start]

theorem read_eq_some_iff {text : Chars} {query : Query} :
    read text = some query ↔
      ∃ ts done, tokens text = some ts ∧ ts.foldlM State.step start = some (start.onTop done) ∧
        done.reverse.map Item.pattern = query := by
  simp only [read, Option.bind_eq_bind, Option.bind_eq_some_iff, finish_eq_some_iff]
  constructor
  · rintro ⟨ts, htokens, s, hrun, hs, hquery⟩
    exact ⟨ts, s.done, htokens, hs ▸ hrun, hquery⟩
  · rintro ⟨ts, done, htokens, hrun, hquery⟩
    exact ⟨ts, htokens, _, hrun, rfl, hquery⟩

theorem read_of_compile {grammar : Grammar} {text : String} {query : Query}
    (hcompile : compile grammar text = some query) : read text.toList = some query := by
  rw [compile, Option.bind_eq_bind, Option.bind_eq_some_iff] at hcompile
  obtain ⟨other, hread, hknown⟩ := hcompile
  split at hknown
  · rw [hread, hknown]
  · cases hknown

/-- **Two queries one below the other are read as the patterns of both.** -/
theorem read_below {above below : Chars} {first second : Query} (hfirst : read above = some first)
    (hsecond : read below = some second) :
    read (above ++ '\n' :: below) = some (first ++ second) := by
  obtain ⟨ts, done, htokens, hrun, rfl⟩ := read_eq_some_iff.mp hfirst
  obtain ⟨us, later, hothers, hlater, rfl⟩ := read_eq_some_iff.mp hsecond
  refine read_eq_some_iff.mpr ⟨ts ++ us, later ++ done, tokens_below htokens hothers, ?_, ?_⟩
  · rw [List.foldlM_append, hrun]
    exact run_onTop done hlater
  · rw [List.reverse_append, List.map_append]

/-- The lines of a query are read one by one. -/
theorem read_lines {texts : List String} {query : Query}
    (htexts : texts.map (fun text => read text.toList) = query.map fun p => some [p]) :
    read (Text.joinWith ['\n'] (texts.map String.toList)) = some query := by
  induction texts generalizing query with
  | nil =>
    obtain rfl : query = [] := List.map_eq_nil_iff.mp htexts.symm
    rfl
  | cons text later ih =>
    cases query with
    | nil => cases htexts
    | cons p others =>
      obtain ⟨hfirst, hlater⟩ := List.cons.inj htexts
      cases later with
      | nil =>
        obtain rfl : others = [] := List.map_eq_nil_iff.mp hlater.symm
        exact hfirst
      | cons next rest =>
        have hbelow := read_below hfirst (ih hlater)
        simpa [Text.joinWith] using hbelow

end CodeOutline.Query
