/-
  CodeOutline/Proofs/Query/Embeds.lean
  ====================================
  **What an embedding is.**

  An embedding puts a pattern at a node that meets its demands, and its child patterns, in order,
  at different children of that node.  It is told by the places it uses, one for each part of the
  pattern, parents before children (`Pattern.Embeds`).  Its captures are read off from these
  (`Pattern.capturesAt`).

  The places of an embedding come in the preorder of the tree (`pairwise_of_embeds`), so what is
  captured first is what stands first.  `Pattern.embeddingsAt` lists all embeddings at a node
  (`mem_embeddingsAt`), each once (`nodup_embeddingsAt`): two lists of places for one pattern are
  as long as each other, and what uses a child is told from what leaves it out by its first place.
-/
import CodeOutline.Proofs.Tree.Places
import CodeOutline.Query.Embedding
import Mathlib.Data.List.Nodup

namespace CodeOutline

namespace Pattern

mutual

/-- The pattern and all patterns in it, parents before children. -/
def parts : Pattern → List Pattern
  | ⟨field, test, captures, children⟩ => ⟨field, test, captures, children⟩ :: partsAll children

def partsAll : List Pattern → List Pattern
  | [] => []
  | p :: later => parts p ++ partsAll later

end

mutual

/-- The pattern can be put at the node and its parts at the places. -/
inductive Embeds : Pattern → Spot → List Place → Prop
  | put {p : Pattern} {spot : Spot} {below : List Place}
      (hkind : p.test.admits spot.node = true)
      (hfield : ∀ field, p.field = some field → field ∈ spot.node.fields)
      (hbelow : EmbedsAmong p.children spot.children below) :
      Embeds p spot (spot.place :: below)

/-- The patterns can be put, in order, at some of the nodes and their parts at the places. -/
inductive EmbedsAmong : List Pattern → List Spot → List Place → Prop
  | done (spots : List Spot) : EmbedsAmong [] spots []
  | use {p : Pattern} {ps : List Pattern} {spot : Spot} {spots : List Spot}
      {here there : List Place} (hhere : Embeds p spot here) (hthere : EmbedsAmong ps spots there) :
      EmbedsAmong (p :: ps) (spot :: spots) (here ++ there)
  | pass {p : Pattern} {ps : List Pattern} {spot : Spot} {spots : List Spot}
      {places : List Place} (hlater : EmbedsAmong (p :: ps) spots places) :
      EmbedsAmong (p :: ps) (spot :: spots) places

end

/-- The captures of patterns that are put at places. -/
def capturesOf (ps : List Pattern) (places : List Place) : List Capture :=
  (ps.zip places).flatMap fun part => part.1.captures.map (Capture.mk part.2)

/-- The captures of a pattern whose parts are put at the places. -/
def capturesAt (p : Pattern) (places : List Place) : List Capture :=
  capturesOf p.parts places

/-! ### Listing embeddings -/

/-- The ways to put a pattern at one of the nodes and the others behind it. -/
def putFirst (found : Spot → List (List Place)) (others : List Spot → List (List Place)) :
    List Spot → List (List Place)
  | [] => []
  | spot :: spots =>
    ((found spot).flatMap fun here => (others spots).map (here ++ ·)) ++ putFirst found others spots

mutual

/-- All embeddings that put the pattern at the node. -/
def embeddingsAt : Pattern → Spot → List (List Place)
  | ⟨field, test, captures, children⟩, spot =>
    if (Pattern.mk field test captures children).admits spot.node then
      (embeddingsAmong children spot.children).map (spot.place :: ·)
    else []

/-- All ways to put the patterns, in order, at some of the nodes. -/
def embeddingsAmong : List Pattern → List Spot → List (List Place)
  | [], _ => [[]]
  | p :: ps, spots => putFirst (embeddingsAt p) (embeddingsAmong ps) spots

end

/-- All embeddings of the pattern anywhere in the tree. -/
def embeddingsIn (p : Pattern) (root : Node) : List (List Place) :=
  root.spots.flatMap p.embeddingsAt

/-! ### The listed embeddings are the embeddings -/

theorem admits_iff {p : Pattern} {node : Node} :
    p.admits node = true ↔
      p.test.admits node = true ∧ ∀ field, p.field = some field → field ∈ node.fields := by
  rw [admits, Bool.and_eq_true]
  refine and_congr_right fun _ => ?_
  cases p.field with
  | none => simp
  | some field => simp

theorem embeds_iff {p : Pattern} {spot : Spot} {places : List Place} :
    p.Embeds spot places ↔ p.admits spot.node = true ∧
      ∃ below, EmbedsAmong p.children spot.children below ∧ places = spot.place :: below := by
  rw [admits_iff]
  constructor
  · rintro ⟨hkind, hfield, hbelow⟩
    exact ⟨⟨hkind, hfield⟩, _, hbelow, rfl⟩
  · rintro ⟨⟨hkind, hfield⟩, below, hbelow, rfl⟩
    exact .put hkind hfield hbelow

theorem embedsAmong_cons_iff {p : Pattern} {ps : List Pattern} {spot : Spot} {spots : List Spot}
    {places : List Place} :
    EmbedsAmong (p :: ps) (spot :: spots) places ↔
      (∃ here there, p.Embeds spot here ∧ EmbedsAmong ps spots there ∧ places = here ++ there) ∨
        EmbedsAmong (p :: ps) spots places := by
  constructor
  · rintro (_ | ⟨hhere, hthere⟩ | hlater)
    · exact .inl ⟨_, _, hhere, hthere, rfl⟩
    · exact .inr hlater
  · rintro (⟨here, there, hhere, hthere, rfl⟩ | hlater)
    · exact .use hhere hthere
    · exact .pass hlater

mutual

theorem mem_embeddingsAt (p : Pattern) {spot : Spot} {places : List Place} :
    places ∈ p.embeddingsAt spot ↔ p.Embeds spot places := by
  cases p with
  | mk field test captures children =>
    rw [embeddingsAt, embeds_iff]
    split
    · rename_i hadmits
      simp [mem_embeddingsAmong children, hadmits, eq_comm]
    · rename_i hadmits
      simp [hadmits]

theorem mem_embeddingsAmong (ps : List Pattern) {spots : List Spot} {places : List Place} :
    places ∈ embeddingsAmong ps spots ↔ EmbedsAmong ps spots places := by
  cases ps with
  | nil =>
    rw [embeddingsAmong, List.mem_singleton]
    constructor
    · rintro rfl
      exact .done spots
    · rintro ⟨⟩
      rfl
  | cons p ps =>
    rw [embeddingsAmong]
    induction spots with
    | nil =>
      simp only [putFirst, List.not_mem_nil, false_iff]
      rintro ⟨⟩
    | cons spot spots ih =>
      rw [putFirst, List.mem_append, ih, embedsAmong_cons_iff]
      refine or_congr_left ?_
      simp [mem_embeddingsAt p, mem_embeddingsAmong ps, eq_comm]

end

theorem mem_embeddingsIn {p : Pattern} {root : Node} {places : List Place} :
    places ∈ p.embeddingsIn root ↔ ∃ spot ∈ root.spots, p.Embeds spot places := by
  simp [embeddingsIn, mem_embeddingsAt]

/-! ### One place for each part -/

mutual

theorem length_of_embeds (p : Pattern) {spot : Spot} {places : List Place}
    (hembeds : p.Embeds spot places) : places.length = p.parts.length := by
  cases p with
  | mk field test captures children =>
    obtain ⟨-, below, hbelow, rfl⟩ := embeds_iff.mp hembeds
    rw [parts, List.length_cons, List.length_cons, length_of_embedsAmong children hbelow]

theorem length_of_embedsAmong (ps : List Pattern) {spots : List Spot} {places : List Place}
    (hembeds : EmbedsAmong ps spots places) : places.length = (partsAll ps).length := by
  cases ps with
  | nil =>
    cases hembeds
    rfl
  | cons p ps =>
    induction spots with
    | nil => cases hembeds
    | cons spot spots ih =>
      rcases embedsAmong_cons_iff.mp hembeds with ⟨here, there, hhere, hthere, rfl⟩ | hlater
      · rw [partsAll, List.length_append, List.length_append, length_of_embeds p hhere,
          length_of_embedsAmong ps hthere]
      · exact ih hlater

end

/-! ### Places in their order -/

/-- Nodes of which everything below one comes before everything below the next. -/
def InOrder (spots : List Spot) : Prop :=
  spots.Pairwise fun a b => ∀ below beyond, a.place ++ below < b.place ++ beyond

end Pattern

theorem mem_childrenFrom {place : Place} {i : Nat} {nodes : List Node} {spot : Spot} :
    spot ∈ Spot.childrenFrom place i nodes ↔
      ∃ k, spot.place = place ++ [i + k] ∧ nodes[k]? = some spot.node := by
  induction nodes generalizing i with
  | nil => simp [Spot.childrenFrom]
  | cons child later ih =>
    rw [Spot.childrenFrom, List.mem_cons, ih]
    constructor
    · rintro (rfl | ⟨k, hplace, hnode⟩)
      · exact ⟨0, rfl, rfl⟩
      · exact ⟨k + 1, by rw [hplace, Nat.add_assoc, Nat.add_comm 1 k], hnode⟩
    · rintro ⟨k, hplace, hnode⟩
      cases k with
      | zero =>
        obtain ⟨splace, snode⟩ := spot
        simp only [Nat.add_zero] at hplace
        simp only [List.getElem?_cons_zero, Option.some.injEq] at hnode
        exact .inl (by rw [hplace, hnode])
      | succ k => exact .inr ⟨k, by rw [hplace, Nat.add_assoc, Nat.add_comm 1 k], hnode⟩

theorem mem_children {spot child : Spot} :
    child ∈ spot.children ↔
      ∃ k, child.place = spot.place ++ [k] ∧ spot.node.children[k]? = some child.node := by
  simp [Spot.children, mem_childrenFrom]

theorem mem_spots_of_mem_children {root : Node} {spot child : Spot} (hspot : spot ∈ root.spots)
    (hchild : child ∈ spot.children) : child ∈ root.spots := by
  obtain ⟨k, hplace, hnode⟩ := mem_children.mp hchild
  rw [mem_spots_iff] at hspot ⊢
  rw [hplace, at?_append, hspot]
  simp [at?_cons, hnode]

namespace Pattern

theorem inOrder_childrenFrom (place : Place) (i : Nat) (nodes : List Node) :
    InOrder (Spot.childrenFrom place i nodes) := by
  induction nodes generalizing i with
  | nil => exact List.Pairwise.nil
  | cons child later ih =>
    refine List.pairwise_cons.mpr ⟨?_, ih (i + 1)⟩
    intro spot hspot below beyond
    obtain ⟨k, hplace, -⟩ := mem_childrenFrom.mp hspot
    rw [hplace, List.append_assoc, List.append_assoc, List.singleton_append, List.singleton_append]
    exact append_cons_lt (by omega) below beyond

theorem inOrder_children (spot : Spot) : InOrder spot.children :=
  inOrder_childrenFrom spot.place 0 spot.node.children

mutual

/-- An embedding uses the node and nodes below it, in their order. -/
theorem pairwise_of_embeds (p : Pattern) {spot : Spot} {places : List Place}
    (hembeds : p.Embeds spot places) :
    (∀ place ∈ places, spot.place <+: place) ∧ places.Pairwise (· < ·) := by
  cases p with
  | mk field test captures children =>
    obtain ⟨-, below, hbelow, rfl⟩ := embeds_iff.mp hembeds
    obtain ⟨hunder, hpairwise⟩ :=
      pairwise_of_embedsAmong children (inOrder_children spot) hbelow
    -- what is used below the node lies below one of its children
    have hdeeper : ∀ place ∈ below, ∃ k rest, place = spot.place ++ k :: rest := by
      intro place hplace
      obtain ⟨child, hchild, rest, rfl⟩ := hunder place hplace
      obtain ⟨k, hk, -⟩ := mem_children.mp hchild
      exact ⟨k, rest, by rw [hk, List.append_assoc, List.singleton_append]⟩
    constructor
    · intro place hplace
      rcases List.mem_cons.mp hplace with rfl | hplace
      · exact List.prefix_rfl
      · obtain ⟨k, rest, rfl⟩ := hdeeper place hplace
        exact List.prefix_append _ _
    · refine List.pairwise_cons.mpr ⟨?_, hpairwise⟩
      intro place hplace
      obtain ⟨k, rest, rfl⟩ := hdeeper place hplace
      exact lt_append_cons spot.place k rest

theorem pairwise_of_embedsAmong (ps : List Pattern) {spots : List Spot} {places : List Place}
    (horder : InOrder spots) (hembeds : EmbedsAmong ps spots places) :
    (∀ place ∈ places, ∃ spot ∈ spots, spot.place <+: place) ∧ places.Pairwise (· < ·) := by
  cases ps with
  | nil =>
    cases hembeds
    simp
  | cons p ps =>
    induction spots with
    | nil => cases hembeds
    | cons spot spots ih =>
      obtain ⟨hfirst, hrest⟩ := List.pairwise_cons.mp horder
      rcases embedsAmong_cons_iff.mp hembeds with ⟨here, there, hhere, hthere, rfl⟩ | hlater
      · obtain ⟨hhereUnder, hherePairwise⟩ := pairwise_of_embeds p hhere
        obtain ⟨hthereUnder, htherePairwise⟩ := pairwise_of_embedsAmong ps hrest hthere
        constructor
        · intro place hplace
          rcases List.mem_append.mp hplace with hplace | hplace
          · exact ⟨spot, List.mem_cons_self, hhereUnder place hplace⟩
          · obtain ⟨other, hother, hunder⟩ := hthereUnder place hplace
            exact ⟨other, List.mem_cons_of_mem _ hother, hunder⟩
        · refine List.pairwise_append.mpr ⟨hherePairwise, htherePairwise, ?_⟩
          intro a ha b hb
          obtain ⟨below, rfl⟩ := hhereUnder a ha
          obtain ⟨other, hother, beyond, rfl⟩ := hthereUnder b hb
          exact hfirst other hother below beyond
      · obtain ⟨hunder, hpairwise⟩ := ih hrest hlater
        refine ⟨?_, hpairwise⟩
        intro place hplace
        obtain ⟨other, hother, hother'⟩ := hunder place hplace
        exact ⟨other, List.mem_cons_of_mem _ hother, hother'⟩

end

/-! ### Every embedding is listed once -/

theorem head?_of_embeds {p : Pattern} {spot : Spot} {places : List Place}
    (hembeds : p.Embeds spot places) : places.head? = some spot.place := by
  obtain ⟨-, below, -, rfl⟩ := embeds_iff.mp hembeds
  rfl

/-- What uses the first node is told from what leaves it out. -/
theorem ne_of_pass {p : Pattern} {ps : List Pattern} {spot : Spot} {spots : List Spot}
    (horder : InOrder (spot :: spots)) {here there places : List Place}
    (hhere : p.Embeds spot here) (hlater : EmbedsAmong (p :: ps) spots places) :
    here ++ there ≠ places := by
  rintro rfl
  obtain ⟨hfirst, hrest⟩ := List.pairwise_cons.mp horder
  obtain ⟨-, below, -, rfl⟩ := embeds_iff.mp hhere
  obtain ⟨other, hother, rest, hplace⟩ :=
    (pairwise_of_embedsAmong _ hrest hlater).1 spot.place (by simp)
  have hlt := hfirst other hother [] rest
  rw [List.append_nil, hplace] at hlt
  exact List.lt_irrefl _ hlt

mutual

theorem nodup_embeddingsAt (p : Pattern) (spot : Spot) : (p.embeddingsAt spot).Nodup := by
  cases p with
  | mk field test captures children =>
    rw [embeddingsAt]
    split
    · exact (nodup_embeddingsAmong children (inOrder_children spot)).map fun a b hab => by
        simpa using hab
    · exact List.nodup_nil

theorem nodup_embeddingsAmong (ps : List Pattern) {spots : List Spot} (horder : InOrder spots) :
    (embeddingsAmong ps spots).Nodup := by
  cases ps with
  | nil => exact List.nodup_singleton []
  | cons p ps =>
    rw [embeddingsAmong]
    induction spots with
    | nil => exact List.nodup_nil
    | cons spot spots ih =>
      obtain ⟨-, hrest⟩ := List.pairwise_cons.mp horder
      rw [putFirst, List.nodup_append']
      refine ⟨?_, ih hrest, ?_⟩
      · rw [List.nodup_flatMap]
        constructor
        · intro here _
          exact (nodup_embeddingsAmong ps hrest).map fun a b hab => List.append_cancel_left hab
        · refine (nodup_embeddingsAt p spot).pairwise_of_forall_ne ?_
          intro a ha b hb hne places hpa hpb
          obtain ⟨there, -, rfl⟩ := List.mem_map.mp hpa
          obtain ⟨beyond, -, hsame⟩ := List.mem_map.mp hpb
          have hlength : b.length = a.length := by
            rw [length_of_embeds p ((mem_embeddingsAt p).mp ha),
              length_of_embeds p ((mem_embeddingsAt p).mp hb)]
          exact hne (List.append_inj_left hsame hlength).symm
      · intro places huse hpass
        obtain ⟨here, hhere, huse⟩ := List.mem_flatMap.mp huse
        obtain ⟨there, -, rfl⟩ := List.mem_map.mp huse
        have hlater : EmbedsAmong (p :: ps) spots (here ++ there) :=
          (mem_embeddingsAmong (p :: ps)).mp (by rwa [embeddingsAmong])
        exact ne_of_pass horder ((mem_embeddingsAt p).mp hhere) hlater rfl

end

theorem nodup_embeddingsIn (p : Pattern) (root : Node) : (p.embeddingsIn root).Nodup := by
  rw [embeddingsIn, List.nodup_flatMap]
  refine ⟨fun spot _ => nodup_embeddingsAt p spot, ?_⟩
  refine (pairwise_spots root).imp ?_
  intro a b hlt places ha hb
  have hheadA := head?_of_embeds ((mem_embeddingsAt p).mp ha)
  have hheadB := head?_of_embeds ((mem_embeddingsAt p).mp hb)
  rw [hheadA, Option.some.injEq] at hheadB
  rw [hheadB] at hlt
  exact List.lt_irrefl _ hlt

end Pattern

end CodeOutline
