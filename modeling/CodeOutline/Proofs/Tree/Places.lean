/-
  CodeOutline/Proofs/Tree/Places.lean
  ===================================
  **Nodes and their places.**

  A tree is walked in preorder in two ways: `Node.preorder` lists the nodes, and `Node.spots` lists
  them with their places.  A place leads to a node exactly when the walk meets the node there
  (`mem_spots_iff`), and the walk meets the places in their lexicographic order
  (`pairwise_spots`).  So to come before another node in preorder is to have the smaller place, and
  no node is met twice.
-/
import CodeOutline.Tree.Node
import Mathlib.Data.List.Lex

namespace CodeOutline

/-! ### The two walks -/

mutual

theorem map_node_spotsFrom (place : Place) (node : Node) :
    (node.spotsFrom place).map Spot.node = node.preorder := by
  cases node with
  | mk kind named fields start stop children =>
    rw [Node.spotsFrom, Node.preorder, List.map_cons, map_node_spotsBelow place 0 children]

theorem map_node_spotsBelow (place : Place) (i : Nat) (nodes : List Node) :
    (Node.spotsBelow place i nodes).map Spot.node = Node.preorderAll nodes := by
  cases nodes with
  | nil => rfl
  | cons child later =>
    rw [Node.spotsBelow, Node.preorderAll, List.map_append, map_node_spotsFrom _ child,
      map_node_spotsBelow place (i + 1) later]

end

theorem map_node_spots (root : Node) : root.spots.map Spot.node = root.preorder :=
  map_node_spotsFrom [] root

/-! ### Where a place leads -/

@[simp] theorem at?_nil (root : Node) : root.at? [] = some root :=
  rfl

theorem at?_cons (root : Node) (i : Nat) (below : Place) :
    root.at? (i :: below) = (root.children[i]?).bind fun child => child.at? below :=
  rfl

theorem at?_append (root : Node) (place below : Place) :
    root.at? (place ++ below) = (root.at? place).bind fun node => node.at? below := by
  induction place generalizing root with
  | nil => rfl
  | cons i place ih =>
    rw [List.cons_append, at?_cons, at?_cons, Option.bind_assoc]
    simp only [ih]

mutual

theorem mem_spotsFrom {place : Place} (node : Node) {spot : Spot} :
    spot ∈ node.spotsFrom place ↔
      ∃ below, spot.place = place ++ below ∧ node.at? below = some spot.node := by
  cases node with
  | mk kind named fields start stop children =>
    rw [Node.spotsFrom, List.mem_cons, mem_spotsBelow children]
    constructor
    · rintro (rfl | ⟨i, child, below, hplace, hchild, hbelow⟩)
      · exact ⟨[], by simp, rfl⟩
      · rw [Nat.zero_add] at hplace
        exact ⟨i :: below, hplace, by simp [at?_cons, hchild, hbelow]⟩
    · rintro ⟨below, hplace, hbelow⟩
      cases below with
      | nil =>
        obtain ⟨splace, snode⟩ := spot
        simp only [List.append_nil] at hplace
        simp only [at?_nil, Option.some.injEq] at hbelow
        exact .inl (by rw [hplace, ← hbelow])
      | cons i below =>
        rw [at?_cons, Option.bind_eq_some_iff] at hbelow
        obtain ⟨child, hchild, hbelow⟩ := hbelow
        exact .inr ⟨i, child, below, by simpa using hplace, hchild, hbelow⟩

theorem mem_spotsBelow {place : Place} {i : Nat} (nodes : List Node) {spot : Spot} :
    spot ∈ Node.spotsBelow place i nodes ↔
      ∃ k child below, spot.place = place ++ (i + k) :: below ∧ nodes[k]? = some child ∧
        child.at? below = some spot.node := by
  cases nodes with
  | nil => simp [Node.spotsBelow]
  | cons first later =>
    rw [Node.spotsBelow, List.mem_append, mem_spotsFrom first, mem_spotsBelow later]
    constructor
    · rintro (⟨below, hplace, hbelow⟩ | ⟨k, child, below, hplace, hchild, hbelow⟩)
      · exact ⟨0, first, below, by simpa using hplace, rfl, hbelow⟩
      · refine ⟨k + 1, child, below, ?_, hchild, hbelow⟩
        rw [hplace, Nat.add_assoc, Nat.add_comm 1 k]
    · rintro ⟨k, child, below, hplace, hchild, hbelow⟩
      cases k with
      | zero =>
        obtain rfl : first = child := by simpa using hchild
        exact .inl ⟨below, by simpa using hplace, hbelow⟩
      | succ k =>
        refine .inr ⟨k, child, below, ?_, by simpa using hchild, hbelow⟩
        rw [hplace, Nat.add_assoc, Nat.add_comm 1 k]

end

/-- The walk meets a node at a place exactly when the place leads to the node. -/
theorem mem_spots_iff {root : Node} {spot : Spot} :
    spot ∈ root.spots ↔ root.at? spot.place = some spot.node := by
  rw [Node.spots, mem_spotsFrom root]
  simp

theorem mem_preorder_of_at? {root node : Node} {place : Place}
    (hplace : root.at? place = some node) : node ∈ root.preorder := by
  have hspot : ⟨place, node⟩ ∈ root.spots := mem_spots_iff.mpr hplace
  rw [← map_node_spots]
  exact List.mem_map_of_mem (f := Spot.node) hspot

/-! ### The order of places -/

/-- A node comes before everything below it. -/
theorem lt_append_cons (place : Place) (i : Nat) (below : Place) : place < place ++ i :: below := by
  have hlt : place ++ [] < place ++ i :: below := List.append_left_lt (List.nil_lt_cons i below)
  rwa [List.append_nil] at hlt

/-- What lies below an earlier child comes before what lies below a later one. -/
theorem append_cons_lt {place : Place} {i j : Nat} (hij : i < j) (below beyond : Place) :
    place ++ i :: below < place ++ j :: beyond :=
  List.append_left_lt (List.cons_lt_cons_iff.mpr (.inl hij))

mutual

theorem pairwise_spotsFrom (place : Place) (node : Node) :
    (node.spotsFrom place).Pairwise fun a b => a.place < b.place := by
  cases node with
  | mk kind named fields start stop children =>
    rw [Node.spotsFrom, List.pairwise_cons]
    refine ⟨?_, pairwise_spotsBelow place 0 children⟩
    intro spot hspot
    obtain ⟨k, child, below, hplace, -, -⟩ := (mem_spotsBelow children).mp hspot
    rw [hplace]
    exact lt_append_cons place _ below

theorem pairwise_spotsBelow (place : Place) (i : Nat) (nodes : List Node) :
    (Node.spotsBelow place i nodes).Pairwise fun a b => a.place < b.place := by
  cases nodes with
  | nil => exact List.Pairwise.nil
  | cons first later =>
    rw [Node.spotsBelow, List.pairwise_append]
    refine ⟨pairwise_spotsFrom _ first, pairwise_spotsBelow place (i + 1) later, ?_⟩
    intro a ha b hb
    obtain ⟨below, haPlace, -⟩ := (mem_spotsFrom first).mp ha
    obtain ⟨k, child, beyond, hbPlace, -, -⟩ := (mem_spotsBelow later).mp hb
    rw [haPlace, hbPlace, List.append_assoc, List.singleton_append]
    exact append_cons_lt (by omega) below beyond

end

/-- The walk meets the places in their order. -/
theorem pairwise_spots (root : Node) : root.spots.Pairwise fun a b => a.place < b.place :=
  pairwise_spotsFrom [] root

end CodeOutline
