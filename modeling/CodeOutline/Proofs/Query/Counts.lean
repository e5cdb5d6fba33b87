/-
  CodeOutline/Proofs/Query/Counts.lean
  ====================================
  **Embeddings are counted right.**

  The matcher never lists embeddings.  It keeps a tally of what they capture under the wanted names,
  and it places child patterns from the last to the first, with one tally for each child from which
  the later patterns may go on (`headD_embeddingsFrom_cons`).  Written out, its tally is what the
  embeddings capture, one by one and up to their order: at a node
  (`occurrences_embeddings_perm`) and in a tree (`occurrences_run_perm`).
-/
import CodeOutline.Proofs.Query.Embeds
import CodeOutline.Proofs.Query.Tally

namespace CodeOutline

namespace Pattern

/-! ### Captures under wanted names -/

/-- The captures under one of the names. -/
def wantedOf (wanted : List String) (captures : List Capture) : List Capture :=
  captures.filter fun capture => wanted.contains capture.name

theorem wantedOf_append (wanted : List String) (as bs : List Capture) :
    wantedOf wanted (as ++ bs) = wantedOf wanted as ++ wantedOf wanted bs :=
  List.filter_append as bs

theorem wantedOf_map (wanted : List String) (place : Place) (names : List String) :
    wantedOf wanted (names.map (Capture.mk place)) =
      (names.filter wanted.contains).map (Capture.mk place) := by
  rw [wantedOf, List.filter_map]
  rfl

theorem capturesAt_cons (p : Pattern) (place : Place) (below : List Place) :
    p.capturesAt (place :: below) =
      p.captures.map (Capture.mk place) ++ capturesOf (partsAll p.children) below := by
  cases p with
  | mk field test captures children =>
    rw [capturesAt, parts, capturesOf, List.zip_cons_cons, List.flatMap_cons]
    rfl

theorem capturesOf_append {ps qs : List Pattern} {here : List Place} (there : List Place)
    (hlength : here.length = ps.length) :
    capturesOf (ps ++ qs) (here ++ there) = capturesOf ps here ++ capturesOf qs there := by
  rw [capturesOf, List.zip_append hlength.symm, List.flatMap_append]
  rfl

/-! ### The table of the matcher -/

variable {wanted : List String}

/-- The tallies from the second child on are those of the children without the first one. -/
theorem exists_embeddingsFrom_cons (ps : List Pattern) (spot : Spot) (spots : List Spot) :
    ∃ first, embeddingsFrom wanted ps (spot :: spots) =
      first :: embeddingsFrom wanted ps spots := by
  induction ps generalizing spot spots with
  | nil => exact ⟨[⟨[], 1⟩], by simp [embeddingsFrom]⟩
  | cons p ps ih =>
    obtain ⟨first, hfirst⟩ := ih spot spots
    exact ⟨_, by rw [embeddingsFrom, hfirst, placeFirst, embeddingsFrom]⟩

theorem headD_embeddingsFrom_none (spots : List Spot) :
    (embeddingsFrom wanted [] spots).headD [] = [⟨[], 1⟩] := by
  rw [embeddingsFrom]
  rfl

theorem headD_embeddingsFrom_nil (p : Pattern) (ps : List Pattern) :
    (embeddingsFrom wanted (p :: ps) []).headD [] = [] := by
  rw [embeddingsFrom, placeFirst.eq_def]
  rfl

/-- The first child is used for the first pattern or it is not. -/
theorem headD_embeddingsFrom_cons (p : Pattern) (ps : List Pattern) (spot : Spot)
    (spots : List Spot) :
    (embeddingsFrom wanted (p :: ps) (spot :: spots)).headD [] =
      joinEmbeddings (embeddings wanted p spot) ((embeddingsFrom wanted ps spots).headD [])
        ((embeddingsFrom wanted (p :: ps) spots).headD []) := by
  obtain ⟨first, hfirst⟩ : ∃ first, embeddingsFrom wanted ps (spot :: spots) =
      first :: embeddingsFrom wanted ps spots := exists_embeddingsFrom_cons ps spot spots
  rw [embeddingsFrom, hfirst, placeFirst, ← embeddingsFrom]
  rfl

theorem occurrences_joinEmbeddings_perm (found after later : Tally (List Capture)) :
    (Tally.occurrences (joinEmbeddings found after later)).Perm
      (((Tally.occurrences found).flatMap fun here => (Tally.occurrences after).map (here ++ ·)) ++
        Tally.occurrences later) := by
  have hpair := Tally.occurrences_pair_perm (· ++ ·) found after
  unfold joinEmbeddings
  split
  · exact (Tally.occurrences_merge_perm _ _).trans (hpair.append_right _)
  · rw [Tally.occurrences_append]
    exact hpair.append_right _

/-! ### The tallies written out -/

mutual

theorem occurrences_embeddings_perm (p : Pattern) (spot : Spot) :
    (Tally.occurrences (p.embeddings wanted spot)).Perm
      ((p.embeddingsAt spot).map fun places => wantedOf wanted (p.capturesAt places)) := by
  cases p with
  | mk field test captures children =>
    rw [embeddings, embeddingsAt]
    split
    · have hbelow := occurrences_embeddingsFrom_perm children spot.children
      rw [List.map_map]
      have hown : ∀ below, wantedOf wanted
          ((Pattern.mk field test captures children).capturesAt (spot.place :: below)) =
            (captures.filter wanted.contains).map (Capture.mk spot.place) ++
              wantedOf wanted (capturesOf (partsAll children) below) := by
        intro below
        rw [capturesAt_cons, wantedOf_append, wantedOf_map]
      simp only [Function.comp_def, hown]
      rw [Tally.occurrences_map_value _ fun below =>
        (captures.filter wanted.contains).map (Capture.mk spot.place) ++ below]
      have hmapped := hbelow.map fun below =>
        (captures.filter wanted.contains).map (Capture.mk spot.place) ++ below
      rwa [List.map_map] at hmapped
    · exact List.Perm.nil

theorem occurrences_embeddingsFrom_perm (ps : List Pattern) (spots : List Spot) :
    (Tally.occurrences ((embeddingsFrom wanted ps spots).headD [])).Perm
      ((embeddingsAmong ps spots).map fun places =>
        wantedOf wanted (capturesOf (partsAll ps) places)) := by
  cases ps with
  | nil =>
    rw [headD_embeddingsFrom_none, embeddingsAmong]
    exact List.Perm.refl _
  | cons p ps =>
    induction spots with
    | nil =>
      rw [headD_embeddingsFrom_nil]
      exact List.Perm.nil
    | cons spot spots ih =>
      rw [headD_embeddingsFrom_cons]
      refine (occurrences_joinEmbeddings_perm _ _ _).trans ?_
      rw [embeddingsAmong, putFirst, ← embeddingsAmong, List.map_append]
      refine List.Perm.append ?_ ih
      -- the captures of the child that is used, and behind it those of the later children
      have hhere := occurrences_embeddings_perm p spot
      have hthere := occurrences_embeddingsFrom_perm ps spots
      refine (hhere.flatMap fun here _ => hthere.map (here ++ ·)).trans ?_
      rw [List.flatMap_map, List.map_flatMap]
      refine List.Perm.flatMap_left _ fun here hmem => List.Perm.of_eq ?_
      have hlength := length_of_embeds p ((mem_embeddingsAt p).mp hmem)
      rw [List.map_map, List.map_map]
      refine List.map_congr_left fun there _ => ?_
      show wantedOf wanted (p.capturesAt here) ++
          wantedOf wanted (capturesOf (partsAll ps) there) =
        wantedOf wanted (capturesOf (partsAll (p :: ps)) (here ++ there))
      rw [partsAll, capturesOf_append there hlength, wantedOf_append]
      rfl

end

/-! ### Every entry counts -/

theorem positive_joinEmbeddings {found after later : Tally (List Capture)}
    (hfound : Tally.Positive found) (hafter : Tally.Positive after)
    (hlater : Tally.Positive later) : Tally.Positive (joinEmbeddings found after later) := by
  have hpair := Tally.positive_pair (· ++ ·) hfound hafter
  unfold joinEmbeddings
  split
  · exact Tally.positive_merge hpair hlater
  · exact Tally.positive_append hpair hlater

mutual

theorem positive_embeddings (p : Pattern) (spot : Spot) :
    Tally.Positive (p.embeddings wanted spot) := by
  cases p with
  | mk field test captures children =>
    rw [embeddings]
    split
    · intro x hx
      obtain ⟨below, hbelow, rfl⟩ := List.mem_map.mp hx
      exact positive_embeddingsFrom children spot.children below hbelow
    · intro x hx
      simp at hx

theorem positive_embeddingsFrom (ps : List Pattern) (spots : List Spot) :
    Tally.Positive ((embeddingsFrom wanted ps spots).headD []) := by
  cases ps with
  | nil =>
    rw [headD_embeddingsFrom_none]
    intro x hx
    simp only [List.mem_singleton] at hx
    subst hx
    exact Nat.one_pos
  | cons p ps =>
    induction spots with
    | nil =>
      rw [headD_embeddingsFrom_nil]
      intro x hx
      simp at hx
    | cons spot spots ih =>
      rw [headD_embeddingsFrom_cons]
      exact positive_joinEmbeddings (positive_embeddings p spot)
        (positive_embeddingsFrom ps spots) ih

end

end Pattern

/-! ### The whole tree -/

theorem flatMap_comm_perm {α β γ : Type} (as : List α) (bs : List β) (f : α → β → List γ) :
    (as.flatMap fun a => bs.flatMap fun b => f a b).Perm
      (bs.flatMap fun b => as.flatMap fun a => f a b) := by
  induction as with
  | nil => simp
  | cons a as ih =>
    simp only [List.flatMap_cons]
    exact (ih.append_left _).trans (List.flatMap_append_perm bs _ _)

/-- Run over a tree, a query tells what the embeddings of its patterns capture. -/
theorem occurrences_run_perm (wanted : List String) (query : Query) (root : Node) :
    (Tally.occurrences (query.run wanted root)).Perm
      (query.flatMap fun p => (p.embeddingsIn root).map fun places =>
        Pattern.wantedOf wanted (p.capturesAt places)) := by
  have hspots : Tally.occurrences (query.run wanted root) =
      root.spots.flatMap fun spot => query.flatMap fun p =>
        Tally.occurrences (p.embeddings wanted spot) := by
    rw [Query.run, Tally.occurrences_flatMap]
    simp only [Tally.occurrences_flatMap]
  rw [hspots]
  refine (flatMap_comm_perm _ _ _).trans ?_
  refine List.Perm.flatMap_left query fun p _ => ?_
  rw [Pattern.embeddingsIn, List.map_flatMap]
  exact List.Perm.flatMap_left root.spots fun spot _ => Pattern.occurrences_embeddings_perm p spot

theorem positive_run (wanted : List String) (query : Query) (root : Node) :
    Tally.Positive (query.run wanted root) := by
  intro x hx
  obtain ⟨spot, -, hx⟩ := List.mem_flatMap.mp hx
  obtain ⟨p, -, hx⟩ := List.mem_flatMap.mp hx
  exact Pattern.positive_embeddings p spot x hx

end CodeOutline
