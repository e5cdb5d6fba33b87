/-
  CodeOutline/Proofs/Query/Tally.lean
  ===================================
  **Tallies and the lists that they stand for.**

  `Tally.occurrences` writes a tally out, each value as often as it counts.  Up to the order of the
  values, every operation on tallies is the plain one on the lists: merging puts them side by side,
  pairing takes every value with every other, and expanding replaces each value by its results.

  No value is ever counted zero times (`Positive`), so a value that is named in a tally does occur.
-/
import CodeOutline.Query.Embedding
import Mathlib.Data.List.Perm.Basic

namespace CodeOutline.Tally

variable {α β γ : Type}

/-- The values one by one, each as often as it counts. -/
def occurrences (a : Tally α) : List α :=
  a.flatMap fun x => List.replicate x.ways x.value

@[simp] theorem occurrences_nil : occurrences ([] : Tally α) = [] :=
  rfl

@[simp] theorem occurrences_cons (x : Counted α) (a : Tally α) :
    occurrences (x :: a) = List.replicate x.ways x.value ++ occurrences a :=
  List.flatMap_cons

@[simp] theorem occurrences_append (a b : Tally α) :
    occurrences (a ++ b) = occurrences a ++ occurrences b :=
  List.flatMap_append

theorem occurrences_flatMap {ι : Type} (l : List ι) (f : ι → Tally α) :
    occurrences (l.flatMap f) = l.flatMap fun i => occurrences (f i) :=
  List.flatMap_assoc

/-- What comes of the occurrences, entry by entry. -/
theorem flatMap_occurrences (a : Tally α) (results : α → List β) :
    (occurrences a).flatMap results =
      a.flatMap fun x => (List.replicate x.ways (results x.value)).flatten := by
  rw [occurrences, List.flatMap_assoc]
  simp only [List.flatMap_replicate]

theorem occurrences_map_value (a : Tally α) (f : α → β) :
    occurrences (a.map fun x => ⟨f x.value, x.ways⟩) = (occurrences a).map f := by
  induction a with
  | nil => rfl
  | cons x a ih => simp [ih]

/-! ### The operations -/

/-- To repeat every element is to repeat the list, up to the order. -/
theorem flatMap_replicate_perm (n : Nat) (l : List α) :
    (l.flatMap (List.replicate n)).Perm (List.replicate n l).flatten := by
  induction n with
  | zero => simp
  | succ n ih =>
    have hstep : (l.flatMap fun a => [a] ++ List.replicate n a).Perm
        (l.flatMap (fun a => [a]) ++ l.flatMap (List.replicate n)) :=
      (List.flatMap_append_perm l _ _).symm
    simp only [List.singleton_append, ← List.replicate_succ, List.flatMap_singleton'] at hstep
    rw [List.replicate_succ, List.flatten_cons]
    exact hstep.trans (ih.append_left l)

theorem occurrences_merge_perm [DecidableEq α] (a b : Tally α) :
    (occurrences (merge a b)).Perm (occurrences a ++ occurrences b) := by
  fun_induction merge a b with
  | case1 b => simp
  | case2 a hnonempty => simp
  | case3 x a y b hsame ih =>
    rw [occurrences_cons, occurrences_cons, occurrences_cons, ← hsame, List.replicate_add,
      List.append_assoc, List.append_assoc]
    refine List.Perm.append_left _ ?_
    -- the first entry of the second tally moves past the rest of the first tally
    exact (ih.append_left _).trans (List.perm_append_comm_assoc _ _ _)
  | case4 x a y b hother ih =>
    rw [occurrences_cons, occurrences_cons, List.append_assoc]
    exact ih.append_left _

theorem occurrences_pair_perm (combine : α → β → γ) (a : Tally α) (b : Tally β) :
    (occurrences (pair combine a b)).Perm
      ((occurrences a).flatMap fun x => (occurrences b).map (combine x)) := by
  rw [pair, occurrences_flatMap, flatMap_occurrences]
  refine List.Perm.flatMap_left a fun x _ => ?_
  have hscaled : occurrences (b.map fun y => ⟨combine x.value y.value, x.ways * y.ways⟩) =
      ((occurrences b).map (combine x.value)).flatMap (List.replicate x.ways) := by
    rw [occurrences, List.flatMap_map, occurrences, List.map_flatMap, List.flatMap_assoc]
    simp [List.flatMap_replicate, Nat.mul_comm]
  rw [hscaled]
  exact flatMap_replicate_perm _ _

theorem occurrences_expand_perm (results : α → List β) (a : Tally α) :
    (occurrences (expand results a)).Perm ((occurrences a).flatMap results) := by
  rw [expand, occurrences_flatMap, flatMap_occurrences]
  refine List.Perm.flatMap_left a fun x _ => ?_
  have hsame : occurrences ((results x.value).map fun b => ⟨b, x.ways⟩) =
      (results x.value).flatMap (List.replicate x.ways) := by
    rw [occurrences, List.flatMap_map]
  rw [hsame]
  exact flatMap_replicate_perm _ _

/-! ### Every entry counts -/

/-- No entry counts zero times. -/
def Positive (a : Tally α) : Prop :=
  ∀ x ∈ a, 0 < x.ways

theorem mem_occurrences_iff {a : Tally α} (hpositive : Positive a) {v : α} :
    v ∈ occurrences a ↔ ∃ x ∈ a, x.value = v := by
  rw [occurrences, List.mem_flatMap]
  refine exists_congr fun x => and_congr_right fun hx => ?_
  have := hpositive x hx
  rw [List.mem_replicate]
  constructor
  · rintro ⟨-, rfl⟩
    rfl
  · rintro rfl
    exact ⟨by omega, rfl⟩

theorem positive_append {a b : Tally α} (ha : Positive a) (hb : Positive b) :
    Positive (a ++ b) := by
  intro x hx
  rcases List.mem_append.mp hx with hx | hx
  · exact ha x hx
  · exact hb x hx

theorem positive_merge [DecidableEq α] {a b : Tally α} (ha : Positive a) (hb : Positive b) :
    Positive (merge a b) := by
  fun_induction merge a b with
  | case1 b => exact hb
  | case2 a hnonempty => exact ha
  | case3 x a y b hsame ih =>
    obtain ⟨hx, ha⟩ := List.forall_mem_cons.mp ha
    obtain ⟨-, hb⟩ := List.forall_mem_cons.mp hb
    refine List.forall_mem_cons.mpr ⟨?_, ih ha hb⟩
    show 0 < x.ways + y.ways
    omega
  | case4 x a y b hother ih =>
    obtain ⟨hx, ha⟩ := List.forall_mem_cons.mp ha
    exact List.forall_mem_cons.mpr ⟨hx, ih ha hb⟩

theorem positive_pair (combine : α → β → γ) {a : Tally α} {b : Tally β} (ha : Positive a)
    (hb : Positive b) : Positive (pair combine a b) := by
  intro z hz
  obtain ⟨x, hx, hz⟩ := List.mem_flatMap.mp hz
  obtain ⟨y, hy, rfl⟩ := List.mem_map.mp hz
  exact Nat.mul_pos (ha x hx) (hb y hy)

theorem positive_expand (results : α → List β) {a : Tally α} (ha : Positive a) :
    Positive (expand results a) := by
  intro z hz
  obtain ⟨x, hx, hz⟩ := List.mem_flatMap.mp hz
  obtain ⟨b, -, rfl⟩ := List.mem_map.mp hz
  exact ha x hx

end CodeOutline.Tally
