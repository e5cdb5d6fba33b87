/-
  CodeOutline/Query/Embedding.lean
  ================================
  **Embeddings of a pattern into a tree.**

  An embedding assigns to each child pattern a child of its own, in order, and goes on below it.
  Every assignment counts, so one node may match a pattern in many ways.  Of an embedding only the
  captures under wanted names are told, in the order of the pattern, which is also the preorder of
  the tree.  Embeddings with the same captures are counted and not listed one by one: child
  patterns are placed from the last to the first, and from each child on it is known what the
  later patterns come to among the later children.

  The counts are kept in tallies.  A tally stands for a long list in which the same values come
  again and again: it names a value once, or a few times, and counts its occurrences.
-/
import CodeOutline.Query.Pattern

namespace CodeOutline

/-! ### Tallies -/

structure Counted (α : Type) where
  value : α
  ways : Nat
deriving DecidableEq, Repr

/-- The occurrences of a value are those of all its entries together. -/
abbrev Tally (α : Type) := List (Counted α)

namespace Tally

variable {α β γ : Type}

/-- Both tallies, side by side.  Entries of one value are joined where the values of the second
tally come in the order of the first; elsewhere they may stay apart. -/
def merge [DecidableEq α] : Tally α → Tally α → Tally α
  | [], b => b
  | a, [] => a
  | x :: a, y :: b =>
    if x.value = y.value then ⟨x.value, x.ways + y.ways⟩ :: merge a b else x :: merge a (y :: b)

/-- Every value of the one with every value of the other. -/
def pair (combine : α → β → γ) (a : Tally α) (b : Tally β) : Tally γ :=
  a.flatMap fun x => b.map fun y => ⟨combine x.value y.value, x.ways * y.ways⟩

/-- What comes of the values, each result as often as its value. -/
def expand (results : α → List β) (a : Tally α) : Tally β :=
  a.flatMap fun x => (results x.value).map fun b => ⟨b, x.ways⟩

end Tally

/-! ### Embeddings -/

/-- The place of a captured node and the name it is captured under. -/
structure Capture where
  place : Place
  name : String
deriving DecidableEq, Repr

namespace Pattern

/-- The captures of a child pattern and of those after it, which come to `after` behind the child
at hand, together with those, `later`, that do not use this child.  If the child's own embeddings
capture nothing, then the captures in `later` are among those found here, in the same order. -/
def joinEmbeddings (found after later : Tally (List Capture)) : Tally (List Capture) :=
  let here := Tally.pair (· ++ ·) found after
  if found.all (·.value = []) then Tally.merge here later else here ++ later

/-- Places one more pattern in front: `found` are its embeddings at a child, and `after` what the
patterns behind it come to from each child on, and from the end on.  The result is again one tally
for each child, and one for the end. -/
def placeFirst (found : Spot → Tally (List Capture)) :
    List Spot → List (Tally (List Capture)) → List (Tally (List Capture))
  | spot :: spots, _ :: after =>
    let later := placeFirst found spots after
    joinEmbeddings (found spot) (after.headD []) (later.headD []) :: later
  | _, _ => [[]]

mutual

/-- The wanted captures of all embeddings that put the pattern at the node. -/
def embeddings (wanted : List String) : Pattern → Spot → Tally (List Capture)
  | ⟨field, test, captures, children⟩, spot =>
    if (Pattern.mk field test captures children).admits spot.node then
      let own := (captures.filter wanted.contains).map fun name => Capture.mk spot.place name
      ((embeddingsFrom wanted children spot.children).headD []).map fun below =>
        ⟨own ++ below.value, below.ways⟩
    else []

/-- The wanted captures of all ways to put the patterns, in order, at some of the nodes: one tally
for the nodes from each one on, and one for no nodes. -/
def embeddingsFrom (wanted : List String) : List Pattern → List Spot → List (Tally (List Capture))
  | [], spots => [⟨[], 1⟩] :: spots.map fun _ => [⟨[], 1⟩]
  | p :: ps, spots => placeFirst (embeddings wanted p) spots (embeddingsFrom wanted ps spots)

end

end Pattern

/-- The wanted captures of all embeddings of the patterns anywhere in the tree. -/
def Query.run (wanted : List String) (query : Query) (root : Node) : Tally (List Capture) :=
  root.spots.flatMap fun spot => query.flatMap fun p => p.embeddings wanted spot

/-- The places of the nodes captured under a name, in preorder. -/
def placesOf (name : String) (captures : List Capture) : List Place :=
  (captures.filter (·.name == name)).map Capture.place

end CodeOutline
