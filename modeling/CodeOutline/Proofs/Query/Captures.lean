/-
  CodeOutline/Proofs/Query/Captures.lean
  ======================================
  **Where the captures of a query come from.**

  Nothing that the reader does makes up a capture.  A step takes in no name but that of the capture
  it is given (`State.CapturesOnly.step`), and what is closed, grouped or cut off keeps the names it
  had or fewer.  So the patterns of a query capture under names that its text gives
  (`capturesOnly_of_read`).
-/
import CodeOutline.Proofs.Query.Embeds
import CodeOutline.Proofs.Query.Names

namespace CodeOutline.Query

open Text (Chars)

/-! ### Patterns -/

/-- Whether all captures in a pattern have names of this kind. -/
def CapturesOnly (allowed : String → Prop) (p : Pattern) : Prop :=
  ∀ part ∈ p.parts, ∀ name ∈ part.captures, allowed name

section

variable {allowed : String → Prop}

theorem mem_partsAll_iff {part : Pattern} {ps : List Pattern} :
    part ∈ Pattern.partsAll ps ↔ ∃ p ∈ ps, part ∈ p.parts := by
  induction ps with
  | nil => simp [Pattern.partsAll]
  | cons p ps ih => rw [Pattern.partsAll, List.mem_append, ih, List.exists_mem_cons_iff]

/-- The captures in a pattern are its own and those of its children. -/
theorem capturesOnly_iff {p : Pattern} :
    CapturesOnly allowed p ↔
      (∀ name ∈ p.captures, allowed name) ∧ ∀ child ∈ p.children, CapturesOnly allowed child := by
  obtain ⟨field, test, captures, children⟩ := p
  unfold CapturesOnly
  rw [Pattern.parts, List.forall_mem_cons]
  refine and_congr_right fun _ => ?_
  constructor
  · intro hall child hchild part hpart
    exact hall part (mem_partsAll_iff.mpr ⟨child, hchild, hpart⟩)
  · intro hall part hpart
    obtain ⟨child, hchild, hpart⟩ := mem_partsAll_iff.mp hpart
    exact hall child hchild part hpart

def Item.CapturesOnly (allowed : String → Prop) (item : Item) : Prop :=
  ∀ p ∈ item.first :: item.others, Query.CapturesOnly allowed p

/-- Whether all captures that the reader has taken in have names of this kind. -/
structure State.CapturesOnly (allowed : String → Prop) (s : State) : Prop where
  done : ∀ item ∈ s.done, item.CapturesOnly allowed
  frames : ∀ frame ∈ s.frames, ∀ item ∈ frame.done, item.CapturesOnly allowed

theorem capturesOnly_patternsOf {items : List Item}
    (hitems : ∀ item ∈ items, item.CapturesOnly allowed) :
    ∀ p ∈ patternsOf items, CapturesOnly allowed p := by
  intro p hp
  obtain ⟨item, hitem, hp⟩ := List.mem_flatMap.mp hp
  exact hitems item (List.mem_reverse.mp hitem) p hp

theorem capturesOnly_frameClose {frame : Frame} {item : Item}
    (hframe : ∀ item ∈ frame.done, item.CapturesOnly allowed) (hclose : frame.close = some item) :
    item.CapturesOnly allowed := by
  have hpatterns := capturesOnly_patternsOf hframe
  rw [Frame.close] at hclose
  split at hclose
  · cases hclose
    intro p hp
    rw [List.mem_singleton.mp hp, capturesOnly_iff]
    exact ⟨by simp, hpatterns⟩
  · rename_i first others _ hsplit
    cases hclose
    rw [hsplit] at hpatterns
    obtain ⟨hfirst, hothers⟩ := List.forall_mem_cons.mp hpatterns
    refine List.forall_mem_cons.mpr ⟨?_, hothers⟩
    rw [capturesOnly_iff] at hfirst ⊢
    exact hfirst
  · cases hclose

theorem capturesOnly_captureLatest {name : String} {items captured : List Item}
    (hname : allowed name) (hitems : ∀ item ∈ items, item.CapturesOnly allowed)
    (hcapture : captureLatest name items = some captured) :
    ∀ item ∈ captured, item.CapturesOnly allowed := by
  cases items with
  | nil => cases hcapture
  | cons item earlier =>
    obtain rfl := Option.some.inj hcapture
    obtain ⟨hitem, hearlier⟩ := List.forall_mem_cons.mp hitems
    obtain ⟨hfirst, hothers⟩ := List.forall_mem_cons.mp hitem
    refine List.forall_mem_cons.mpr ⟨List.forall_mem_cons.mpr ⟨?_, hothers⟩, hearlier⟩
    rw [capturesOnly_iff] at hfirst ⊢
    refine ⟨?_, hfirst.2⟩
    intro other hother
    rcases List.mem_append.mp (List.mem_of_mem_take hother) with hother | hother
    · exact hfirst.1 other hother
    · rwa [List.mem_singleton.mp hother]

namespace State.CapturesOnly

variable {s t : State}

theorem add (hs : s.CapturesOnly allowed) {item : Item} (hitem : item.CapturesOnly allowed) :
    (s.add item).CapturesOnly allowed := by
  obtain ⟨frames, done, awaits⟩ := s
  cases frames with
  | nil => exact ⟨List.forall_mem_cons.mpr ⟨hitem, hs.done⟩, by simp [State.add]⟩
  | cons frame outer =>
    obtain ⟨hframe, houter⟩ := List.forall_mem_cons.mp hs.frames
    exact ⟨hs.done, List.forall_mem_cons.mpr ⟨List.forall_mem_cons.mpr ⟨hitem, hframe⟩, houter⟩⟩

theorem enter (hs : s.CapturesOnly allowed) (field : Option String) (test : Option KindTest)
    (awaits : Awaits) : (s.enter ⟨field, test, []⟩ awaits).CapturesOnly allowed :=
  ⟨hs.done, List.forall_mem_cons.mpr ⟨by simp, hs.frames⟩⟩

theorem close (hs : s.CapturesOnly allowed) (hclose : s.close = some t) :
    t.CapturesOnly allowed := by
  obtain ⟨frames, done, awaits⟩ := s
  cases frames with
  | nil => cases hclose
  | cons frame outer =>
    obtain ⟨hframe, houter⟩ := List.forall_mem_cons.mp hs.frames
    obtain ⟨item, hitem, rfl⟩ := Option.map_eq_some_iff.mp hclose
    exact add (s := ⟨outer, done, awaits⟩) ⟨hs.done, houter⟩ (capturesOnly_frameClose hframe hitem)

theorem capture (hs : s.CapturesOnly allowed) {name : String} (hname : allowed name)
    (hcapture : s.capture name = some t) : t.CapturesOnly allowed := by
  obtain ⟨frames, done, awaits⟩ := s
  cases frames with
  | nil =>
    obtain ⟨captured, hcaptured, rfl⟩ := Option.map_eq_some_iff.mp hcapture
    exact ⟨capturesOnly_captureLatest hname hs.done hcaptured, hs.frames⟩
  | cons frame outer =>
    obtain ⟨hframe, houter⟩ := List.forall_mem_cons.mp hs.frames
    obtain ⟨captured, hcaptured, rfl⟩ := Option.map_eq_some_iff.mp hcapture
    have hcaptured := capturesOnly_captureLatest hname hframe hcaptured
    exact ⟨hs.done, List.forall_mem_cons.mpr ⟨hcaptured, houter⟩⟩

theorem bare (field : Option String) (test : KindTest) :
    Item.CapturesOnly allowed ⟨⟨field, test, [], []⟩, []⟩ := by
  intro p hp
  rw [List.mem_singleton.mp hp, capturesOnly_iff]
  simp

theorem readWord (hs : s.CapturesOnly allowed) {field : Option String} {word : Chars}
    (hword : s.readWord field word = some t) : t.CapturesOnly allowed := by
  fun_induction State.readWord s field word with
  | case1 s field =>
    obtain rfl := Option.some.inj hword
    exact hs
  | case2 s field rest ih => exact ih (hs.add (bare field .anyNode)) hword
  | case3 s field rest => cases hword
  | case4 s name =>
    obtain rfl := Option.some.inj hword
    exact ⟨hs.done, hs.frames⟩
  | case5 s field name => cases hword

/-- A step takes in no capture but the one it is given. -/
theorem step (hs : s.CapturesOnly allowed) {token : Token}
    (htoken : ∀ name, token = .capture name → allowed name) (hstep : s.step token = some t) :
    t.CapturesOnly allowed := by
  rw [State.step.eq_def] at hstep
  split at hstep
  case h_1 =>
    cases hstep
    exact ⟨hs.done, hs.frames⟩
  case h_2 => exact hs.readWord hstep
  case h_3 => exact hs.close hstep
  case h_4 => exact hs.capture (htoken _ rfl) hstep
  case h_5 =>
    cases hstep
    exact ⟨hs.done, hs.frames⟩
  case h_6 =>
    cases hstep
    exact ⟨hs.done, hs.frames⟩
  case h_7 => exact hs.readWord hstep
  case h_8 =>
    cases hstep
    exact hs.enter _ _ _
  case h_9 =>
    split at hstep
    · cases hstep
      exact hs.enter _ _ _
    · split at hstep
      · cases hstep
        exact ⟨hs.done, hs.frames⟩
      · cases hstep
        exact hs.enter _ _ _
  case h_10 =>
    cases hstep
    exact hs.enter _ _ _
  case h_11 =>
    cases hstep
    exact hs.add (bare _ _)
  case h_12 => cases hstep

theorem run (hs : s.CapturesOnly allowed) {ts : List Token}
    (htokens : ∀ name, Token.capture name ∈ ts → allowed name)
    (hrun : ts.foldlM State.step s = some t) : t.CapturesOnly allowed := by
  induction ts generalizing s with
  | nil =>
    obtain rfl := Option.some.inj hrun
    exact hs
  | cons token later ih =>
    rw [List.foldlM_cons] at hrun
    obtain ⟨next, hstep, hlater⟩ := Option.bind_eq_some_iff.mp hrun
    have hnext := hs.step (fun name htoken => htokens name (htoken ▸ List.mem_cons_self)) hstep
    exact ih hnext (fun name hname => htokens name (List.mem_cons_of_mem _ hname)) hlater

end State.CapturesOnly

theorem capturesOnly_outermost {p : Pattern} (hp : CapturesOnly allowed p) :
    CapturesOnly allowed (outermost p) := by
  rw [outermost]
  split
  · rw [capturesOnly_iff] at hp ⊢
    exact ⟨fun name hname => hp.1 name (List.mem_of_mem_take hname), hp.2⟩
  · exact hp

theorem capturesOnly_pattern {item : Item} (hitem : item.CapturesOnly allowed) :
    CapturesOnly allowed item.pattern := by
  obtain ⟨hfirst, hothers⟩ := List.forall_mem_cons.mp hitem
  rw [Item.pattern]
  split
  · exact capturesOnly_outermost hfirst
  · rw [capturesOnly_iff]
    exact ⟨by simp, List.forall_mem_cons.mpr ⟨capturesOnly_outermost hfirst, hothers⟩⟩

end

/-- The captures in the patterns of a query have names that its text gives. -/
theorem capturesOnly_of_read {text : Chars} {query : Query} (hread : read text = some query) :
    ∀ p ∈ query, CapturesOnly (· ∈ namesIn text) p := by
  obtain ⟨ts, done, htokens, hrun, rfl⟩ := read_eq_some_iff.mp hread
  have hstart : start.CapturesOnly (· ∈ namesIn text) := ⟨by simp [start], by simp [start]⟩
  have hnames : ∀ name, Token.capture name ∈ ts → name ∈ namesIn text := by
    intro name hname
    rw [← captureNames_eq htokens]
    exact mem_captureNames_iff.mpr hname
  have hdone := (hstart.run hnames hrun).done
  intro p hp
  obtain ⟨item, hitem, rfl⟩ := List.mem_map.mp hp
  refine capturesOnly_pattern (hdone item ?_)
  simpa [State.onTop, start] using hitem

end CodeOutline.Query
