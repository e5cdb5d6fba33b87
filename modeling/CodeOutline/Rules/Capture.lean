/-
  CodeOutline/Rules/Capture.lean
  ==============================
  **Capture rules, and the matches of what they capture.**

  A capture rule says what a query's definitions are captured for, how strongly, and how the body
  of a definition is found when the query does not capture it.  A profile is all that is known of
  one language.

  A definition that is captured for its signature is split where its body begins, blanks before
  the body going to the body.  One without a body, and one captured for any other role, is claimed
  as a whole.
-/
import CodeOutline.Query.Embedding
import CodeOutline.Query.Reader
import CodeOutline.Source.Render

namespace CodeOutline

/-! ### Rules and profiles -/

def defaultPriority : Int := 10
def defaultHints : List String := ["body"]

structure Rule where
  role : Role
  priority : Int
  hints : List String       -- the fields and kinds by which a body is found
  query : String
deriving DecidableEq, Repr

structure Profile where
  name : String
  extensions : List String
  grammar : Grammar
  rules : List Rule
  retainUnclaimed : Bool

/-- A rule whose query does not fit the grammar of its language. -/
structure MalformedRule where
  language : String
  index : Nat
deriving DecidableEq, Repr

/-- A rule with the query that its text spells. -/
structure CompiledRule where
  rule : Rule
  query : Query

/-- Compiles the rules in order, the first of which has the given index. -/
def compileRules (language : String) (grammar : Grammar) (index : Nat) :
    List Rule → Except MalformedRule (List CompiledRule)
  | [] => .ok []
  | rule :: later =>
    match Query.compile grammar rule.query with
    | none => .error ⟨language, index⟩
    | some query => (compileRules language grammar (index + 1) later).map (⟨rule, query⟩ :: ·)

/-- The rules of a profile with their queries, or the first malformed one. -/
def Profile.compile (profile : Profile) : Except MalformedRule (List CompiledRule) :=
  compileRules profile.name profile.grammar 0 profile.rules

/-! ### The matches of a definition -/

inductive CaptureFault where
  | outsideSource (offset : Int)        -- the signature would end beyond the source
  | invalidSpan (span : InvalidSpan)
deriving DecidableEq, Repr

/-- The body of a definition: the child of the first hint that is a field name, or else the first
child whose kind is a hint. -/
def Node.findBody (node : Node) (hints : List String) : Option Node :=
  (hints.findSome? node.child?).or (node.children.find? fun child => hints.contains child.kind)

/-- Moves the end of a signature that starts at `start` back over `count` bytes at most, as long as
the byte before it is blank. -/
def trimSignature (source : List UInt8) (stop : Int) : Nat → Except CaptureFault Int
  | 0 => .ok stop
  | count + 1 =>
    match byteAt? source (stop - 1) with
    | none => .error (.outsideSource (stop - 1))
    | some b => if isBlankByte b then trimSignature source (stop - 1) count else .ok stop

/-- Where the signature of a definition ends when its body begins at `bodyStart`. -/
def signatureEnd (source : List UInt8) (start bodyStart : Int) : Except CaptureFault Int :=
  trimSignature source bodyStart (bodyStart - start).toNat

def claim (start stop : Int) (role : Role) (priority : Int) (kind : String) :
    Except CaptureFault Match :=
  (Match.ofSpan start stop role priority kind).mapError .invalidSpan

/-- The matches of a definition whose body begins at or after its start and not after its end. -/
def splitAtBody (rule : Rule) (node body : Node) (source : List UInt8) :
    Except CaptureFault (List Match) := do
  let stop ← signatureEnd source node.start body.start
  let signature ←
    if node.start < stop then do
      .ok [← claim node.start stop .signatureOnly rule.priority node.kind]
    else .ok []
  let rest ←
    if stop < node.stop then do
      .ok [← claim stop node.stop .body rule.priority body.kind]
    else .ok []
  .ok (signature ++ rest)

/-- The matches of a captured definition.  The body is the one captured with it, if any, and is
looked for otherwise. -/
def matchesFor (rule : Rule) (node : Node) (source : List UInt8) (captured : Option Node) :
    Except CaptureFault (List Match) :=
  let whole (role : Role) : Except CaptureFault (List Match) := do
    .ok [← claim node.start node.stop role rule.priority node.kind]
  if rule.role = .signatureOnly then
    match captured.or (node.findBody rule.hints) with
    | none => whole .fullDefinition
    | some body =>
      if node.start ≤ body.start ∧ body.start ≤ node.stop then splitAtBody rule node body source
      else whole .fullDefinition
  else whole rule.role

/-! ### All matches of a tree -/

/-- The name under which queries capture definitions. -/
def definitionName : String := "definition"

/-- The name under which queries capture bodies. -/
def bodyName : String := "body"

/-- A definition that a rule's query captures, with the first body captured beside it. -/
structure Definition where
  rule : Rule
  node : Node
  body : Option Node

def definitionsOf (rule : Rule) (root : Node) (captures : List Capture) : List Definition :=
  let body := ((placesOf bodyName captures).head?).bind root.at?
  ((placesOf definitionName captures).filterMap root.at?).map fun node => ⟨rule, node, body⟩

/-- The definitions of every embedding of the rule's query. -/
def CompiledRule.definitions (compiled : CompiledRule) (root : Node) : Tally Definition :=
  (Query.run [definitionName, bodyName] compiled.query root).expand
    (definitionsOf compiled.rule root)

def Definition.claims (d : Definition) (source : List UInt8) : Except CaptureFault (List Match) :=
  matchesFor d.rule d.node source d.body

/-- The matches of definitions, one definition after the other. -/
def claimsOf (source : List UInt8) : Tally Definition → Except CaptureFault (Tally Match)
  | [] => .ok []
  | d :: later => do
    let claims ← d.value.claims source
    let rest ← claimsOf source later
    .ok (claims.map (⟨·, d.ways⟩) ++ rest)

/-- The matches of all definitions that the rules capture in the tree. -/
def captureMatches (rules : List CompiledRule) (source : List UInt8) (root : Node) :
    Except CaptureFault (Tally Match) :=
  claimsOf source (rules.flatMap fun (compiled : CompiledRule) => compiled.definitions root)

end CodeOutline
