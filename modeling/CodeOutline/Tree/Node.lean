/-
  CodeOutline/Tree/Node.lean
  ==========================
  **Syntax trees, what parsers make of a source, and listings of trees.**

  A node has a kind, a span of the source and children.  Named nodes stand for rules of the
  grammar and the others for single tokens.  A parent may know a child under field names.

  An error inside a tree is local and does no harm.  A tree fails as a whole when its root is an
  error, or when an error is the only child of the root and spans all the source shows.  A source
  that shows nothing never fails.  A parser may also end without any tree.

  A listing names the nodes of a tree in preorder, each with its depth below the root.  As a text
  it has one node a line, in six fields between tabs: the depth, 1 for a named node or 0, the two
  ends of the span, the field name and the kind.  In the kind a backslash, a line feed and a tab
  are written with a backslash before them.
-/
import CodeOutline.Text.Integer

namespace CodeOutline

open Text (Chars)

structure Node where
  kind : String
  named : Bool
  fields : List String      -- the names under which the parent knows the node
  start : Int
  stop : Int
  children : List Node
deriving Repr, Inhabited

/-- Where a node stands in its tree: from the root on, the number of the child to go to. -/
abbrev Place := List Nat

/-- The kind of a node over text that the grammar could not read. -/
def errorKind : String := "ERROR"

namespace Node

def isError (node : Node) : Bool :=
  node.kind == errorKind

mutual

/-- The node and everything below it, parents before children, from left to right. -/
def preorder : Node → List Node
  | ⟨kind, named, fields, start, stop, children⟩ =>
    ⟨kind, named, fields, start, stop, children⟩ :: preorderAll children

def preorderAll : List Node → List Node
  | [] => []
  | node :: later => preorder node ++ preorderAll later

end

/-- The node to which a place leads from here. -/
def at? (root : Node) : Place → Option Node
  | [] => some root
  | i :: later => (root.children[i]?).bind fun child => child.at? later

/-- The first child known under a field name. -/
def child? (node : Node) (field : String) : Option Node :=
  node.children.find? (·.fields.contains field)

end Node

/-! ### Nodes with their places -/

/-- A node and where it stands. -/
structure Spot where
  place : Place
  node : Node
deriving Repr

namespace Spot

/-- The children from a number on. -/
def childrenFrom (place : Place) (i : Nat) : List Node → List Spot
  | [] => []
  | child :: later => ⟨place ++ [i], child⟩ :: childrenFrom place (i + 1) later

def children (spot : Spot) : List Spot :=
  childrenFrom spot.place 0 spot.node.children

end Spot

namespace Node

mutual

def spotsFrom (place : Place) : Node → List Spot
  | ⟨kind, named, fields, start, stop, children⟩ =>
    ⟨place, ⟨kind, named, fields, start, stop, children⟩⟩ :: spotsBelow place 0 children

def spotsBelow (place : Place) (i : Nat) : List Node → List Spot
  | [] => []
  | child :: later => spotsFrom (place ++ [i]) child ++ spotsBelow place (i + 1) later

end

/-- All nodes with their places, in preorder. -/
def spots (root : Node) : List Spot :=
  spotsFrom [] root

end Node

/-! ### Sources that the grammar could not read at all -/

/-- What the parser of a language makes of a text. -/
inductive Parsed where
  | noParser                      -- no parser of the language is at hand
  | refused (detail : String)     -- the parser gave up, and said why
  | noTree                        -- the parser came to its end without a tree
  | tree (root : Node)
deriving Repr

/-- A tree that is listed is what the parser made of the text; where none is listed, no parser is
at hand. -/
def Parsed.ofListed : Option Node → Parsed
  | none => .noParser
  | some root => .tree root

instance : Coe (Option Node) Parsed := ⟨Parsed.ofListed⟩

/-- The offset of the first byte that is not blank, or the length of a blank source. -/
def contentStart (source : List UInt8) : Nat :=
  (source.takeWhile isBlankByte).length

/-- The offset after the last byte that is not blank, or zero for a blank source. -/
def contentStop (source : List UInt8) : Nat :=
  (source.reverse.dropWhile isBlankByte).length

namespace Node

def spansContent (node : Node) (source : List UInt8) : Bool :=
  node.start ≤ contentStart source && contentStop source ≤ node.stop

/-- Whether nothing of the source was recognised. -/
def isTotalFailure (root : Node) (source : List UInt8) : Bool :=
  root.isError || match root.children with
    | [only] => only.isError && only.spansContent source
    | _ => false

/-- Whether a source with this tree counts as not parsed. -/
def parseFails (root : Node) (source : List UInt8) : Bool :=
  !allBlank source && root.isTotalFailure source

end Node

/-! ### Listings -/

/-- A node in a listing: its depth, and what it is without its children. -/
structure ListedNode where
  depth : Nat
  named : Bool
  kind : String
  field : String            -- empty when the parent knows it under no name
  start : Int
  stop : Int
deriving DecidableEq, Repr

/-- Puts a node in front of the trees that follow it in a listing.  The trees are paired with
their depths, and those just after it that are deeper become its children. -/
def ListedNode.graft (row : ListedNode) (forest : List (Nat × Node)) : List (Nat × Node) :=
  let below := forest.takeWhile (row.depth < ·.1)
  let node : Node :=
    ⟨row.kind, row.named, if row.field = "" then [] else [row.field], row.start, row.stop,
      below.map Prod.snd⟩
  (row.depth, node) :: forest.drop below.length

/-- The tree of a listing, or none for an empty one. -/
def Node.ofListing (rows : List ListedNode) : Option Node :=
  (rows.foldr ListedNode.graft []).head?.map Prod.snd

/-! ### Listings as texts -/

/-- Reads a kind: a backslash stands before what it changes. -/
def readKind : Chars → Chars
  | '\\' :: 'n' :: rest => '\n' :: readKind rest
  | '\\' :: 't' :: rest => '\t' :: readKind rest
  | '\\' :: c :: rest => c :: readKind rest
  | c :: rest => c :: readKind rest
  | [] => []

def ListedNode.ofLine (line : Chars) : Option ListedNode :=
  match Text.splitAtChar '\t' line with
  | [depth, named, start, stop, field, kind] => do
    let depth ← Text.readInteger depth
    let start ← Text.readInteger start
    let stop ← Text.readInteger stop
    some ⟨depth.toNat, named == ['1'], String.ofList (readKind kind), String.ofList field, start,
      stop⟩
  | _ => none

/-- The tree that a text lists, empty lines aside, or none when one of its lines is no node. -/
def Node.ofText (text : Chars) : Option Node :=
  (((Text.splitAtChar '\n' text).filter (· ≠ [])).mapM ListedNode.ofLine).bind Node.ofListing

end CodeOutline
