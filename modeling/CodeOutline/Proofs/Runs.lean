/-
  CodeOutline/Proofs/Runs.lean
  ============================
  **Runs of neighbours, and prefixes of ordered lists.**

  Lines, ranges and elided stretches are all runs of neighbours that agree in something.  What the
  library computes from the right, one element at a time, is compared with `List.splitBy`, which
  cuts a list into its longest runs; `splitBy_cons_cons` is the step of that comparison.

  In a list along which a property can only be lost, the prefix that has it is everything that has
  it (`takeWhile_eq_filter`, `dropWhile_eq_filter`).
-/
import Mathlib.Data.List.SplitBy

namespace CodeOutline

variable {α : Type}

/-! ### Runs -/

theorem exists_splitBy_cons (r : α → α → Bool) (a : α) (l : List α) :
    ∃ run runs, (a :: l).splitBy r = (a :: run) :: runs := by
  have hne : a :: l ≠ [] := List.cons_ne_nil a l
  have hhead := List.head_head_splitBy r hne
  cases hsplit : (a :: l).splitBy r with
  | nil => exact absurd (List.splitBy_eq_nil.mp hsplit) hne
  | cons first runs =>
    cases first with
    | nil => exact absurd (hsplit ▸ List.mem_cons_self) (List.nil_notMem_splitBy r (a :: l))
    | cons b run =>
      simp only [hsplit, List.head_cons] at hhead
      exact ⟨run, runs, by rw [hhead]⟩

/-- A new first element joins the first run when it agrees with the element after it, and else is
a run of its own. -/
theorem splitBy_cons_cons (r : α → α → Bool) {a b : α} {l run : List α} {runs : List (List α)}
    (hsplit : (b :: l).splitBy r = (b :: run) :: runs) :
    (a :: b :: l).splitBy r =
      if r a b then (a :: b :: run) :: runs else [a] :: (b :: run) :: runs := by
  cases hab : r a b with
  | false =>
    have happend := List.splitBy_append_cons (l := [a]) (a := b) l (by simpa using hab)
    rw [List.singleton_append] at happend
    rw [happend, hsplit]
    rfl
  | true =>
    obtain ⟨hflat, hnil, hruns, hcuts⟩ := List.splitBy_eq_iff.mp hsplit
    rw [if_pos rfl, List.splitBy_eq_iff]
    refine ⟨by simp [hflat], by simpa using hnil, ?_, ?_⟩
    · intro m hm
      rcases List.mem_cons.mp hm with rfl | hm
      · exact List.isChain_cons_cons.mpr ⟨hab, hruns _ List.mem_cons_self⟩
      · exact hruns m (List.mem_cons_of_mem _ hm)
    · -- only the first run changes, and its last element stays the same
      cases runs with
      | nil => simp
      | cons next runs =>
        obtain ⟨⟨_, hb, hcut⟩, hrest⟩ := List.isChain_cons_cons.mp hcuts
        exact List.isChain_cons_cons.mpr ⟨⟨List.cons_ne_nil _ _, hb, by simpa using hcut⟩, hrest⟩

theorem splitBy_map {β : Type} (r : β → β → Bool) (f : α → β) (l : List α) :
    (l.map f).splitBy r = (l.splitBy fun a b => r (f a) (f b)).map (List.map f) := by
  induction l with
  | nil => rfl
  | cons a l ih =>
    cases l with
    | nil => rfl
    | cons b l =>
      obtain ⟨run, runs, hsplit⟩ := exists_splitBy_cons (fun a b => r (f a) (f b)) b l
      have himage : (f b :: l.map f).splitBy r = (f b :: run.map f) :: runs.map (List.map f) := by
        rw [← List.map_cons, ih, hsplit]
        rfl
      rw [List.map_cons, List.map_cons, splitBy_cons_cons r himage, splitBy_cons_cons _ hsplit]
      split <;> rfl

/-- Where only the first of two neighbours counts, every element but the last is asked. -/
theorem isChain_left_iff {p : α → Prop} {l : List α} :
    (l.IsChain fun a _ => p a) ↔ ∀ a ∈ l.dropLast, p a := by
  induction l with
  | nil => simp
  | cons a l ih =>
    cases l with
    | nil => simp
    | cons b l => rw [List.isChain_cons_cons, ih, List.dropLast_cons_cons, List.forall_mem_cons]

/-! ### Prefixes -/

theorem eq_false_of_lost {p : α → Bool} {a : α} {l : List α} (hp : p a = false)
    (hlost : ∀ b ∈ l, p b = true → p a = true) : ∀ b ∈ l, p b = false := by
  intro b hb
  cases hpb : p b with
  | false => rfl
  | true => rw [hlost b hb hpb] at hp; exact absurd hp (by decide)

theorem takeWhile_eq_filter {p : α → Bool} {l : List α}
    (hlost : l.Pairwise fun a b => p b = true → p a = true) : l.takeWhile p = l.filter p := by
  induction l with
  | nil => rfl
  | cons a l ih =>
    obtain ⟨ha, hl⟩ := List.pairwise_cons.mp hlost
    cases hp : p a with
    | true => simp only [List.takeWhile_cons, List.filter_cons, hp, if_true, ih hl]
    | false =>
      have hrest := eq_false_of_lost hp ha
      have hnone : l.filter p = [] := List.filter_eq_nil_iff.mpr fun b hb => by simp [hrest b hb]
      simp [hp, hnone]

theorem dropWhile_eq_filter {p : α → Bool} {l : List α}
    (hlost : l.Pairwise fun a b => p b = true → p a = true) :
    l.dropWhile p = l.filter fun a => !p a := by
  induction l with
  | nil => rfl
  | cons a l ih =>
    obtain ⟨ha, hl⟩ := List.pairwise_cons.mp hlost
    cases hp : p a with
    | true => simp [hp, ih hl]
    | false =>
      have hrest := eq_false_of_lost hp ha
      have hall : (l.filter fun b => !p b) = l :=
        List.filter_eq_self.mpr fun b hb => by simp [hrest b hb]
      simp [hp, hall]

end CodeOutline
