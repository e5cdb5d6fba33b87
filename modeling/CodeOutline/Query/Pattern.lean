/-
  CodeOutline/Query/Pattern.lean
  ==============================
  **Patterns over syntax trees.**

  A pattern asks for a kind of node and for children that match further patterns, in order but not
  side by side.  A node that takes part in a match may be captured under names.
-/
import CodeOutline.Tree.Node

namespace CodeOutline

/-- What a pattern asks of a node's kind. -/
inductive KindTest where
  | anyNode                          -- any node that is no error
  | anyNamed                         -- any named node that is no error
  | missing (kind : Option String)   -- a node that the parser made up, of this kind or of any
  | exactly (kind : String)          -- a named node of this kind
deriving DecidableEq, Repr

structure Pattern where
  field : Option String       -- the name under which the parent must know the node
  test : KindTest
  captures : List String
  children : List Pattern
deriving Repr

/-- A query is a list of patterns; each matches on its own. -/
abbrev Query := List Pattern

/-- The names that a grammar gives to its nodes and fields. -/
structure Grammar where
  hasKind : String → Bool
  hasField : String → Bool

/-- A grammar known by the lists of its names. -/
def Grammar.ofNames (kinds fields : List String) : Grammar :=
  ⟨kinds.contains, fields.contains⟩

/-- Admits every name.  It stands for the grammar of a rule file that is known to fit it. -/
def Grammar.unrestricted : Grammar :=
  ⟨fun _ => true, fun _ => true⟩

namespace KindTest

/-- Whether the kind of the node is the one asked for.  What the parser made up has no text and no
children. -/
def admits (node : Node) : KindTest → Bool
  | .anyNode => !node.isError
  | .anyNamed => node.named && !node.isError
  | .missing kind =>
    node.start == node.stop && node.children.isEmpty
      && kind.all fun kind => node.named && node.kind == kind
  | .exactly kind => node.named && node.kind == kind

def kind? : KindTest → Option String
  | .anyNode => none
  | .anyNamed => none
  | .missing kind => kind
  | .exactly kind => some kind

/-- Whether the grammar has the kind that is asked for; errors are known to all grammars. -/
def knownTo (grammar : Grammar) (test : KindTest) : Bool :=
  test.kind?.all fun kind => kind == errorKind || grammar.hasKind kind

end KindTest

namespace Pattern

/-- Whether the pattern's own demands hold for a node, those on its children aside. -/
def admits (p : Pattern) (node : Node) : Bool :=
  p.test.admits node && match p.field with
    | none => true
    | some field => node.fields.contains field

mutual

/-- Whether the grammar has every kind and field that the pattern names. -/
def knownTo (grammar : Grammar) : Pattern → Bool
  | ⟨field, test, _, children⟩ =>
    test.knownTo grammar && field.all grammar.hasField && allKnownTo grammar children

def allKnownTo (grammar : Grammar) : List Pattern → Bool
  | [] => true
  | p :: later => knownTo grammar p && allKnownTo grammar later

end

end Pattern

end CodeOutline
