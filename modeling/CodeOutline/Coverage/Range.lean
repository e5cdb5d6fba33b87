/-
  CodeOutline/Coverage/Range.lean
  ===============================
  **Matches and ranges: spans of a source.**

  A match is a span that a capture rule claims.  It says how strongly the span is claimed, and for
  which role; every role but the body asks for the span to be kept.  Matches are ordered for the
  sweep by their start, then from high to low priority, then from narrow to wide.

  A range is a span with one decision.  A list of ranges is a partition of a source when each range
  continues where the one before it ended, none is empty, the last one ends with the source, and
  neighbours differ in their decision.  `coalesce` makes such a list from spans that follow each
  other, and `checkPartition` says whether a list is one.
-/

namespace CodeOutline

/-! ### Matches -/

inductive Role where
  | fullDefinition
  | signatureOnly
  | nameAnchor
  | body
deriving DecidableEq, Repr

namespace Role

def keeps : Role → Bool
  | .body => false
  | _ => true

theorem keeps_iff (role : Role) : role.keeps = true ↔ role ≠ .body := by
  cases role <;> simp [keeps]

def name : Role → String
  | .fullDefinition => "full-definition"
  | .signatureOnly => "signature-only"
  | .nameAnchor => "name-anchor"
  | .body => "body"

def ofName? : String → Option Role
  | "full-definition" => some .fullDefinition
  | "signature-only" => some .signatureOnly
  | "name-anchor" => some .nameAnchor
  | "body" => some .body
  | _ => none

end Role

/-- The bytes from `start` up to `stop`, claimed for a role.  The kind is that of the tree node
behind the claim. -/
structure Match where
  start : Int
  stop : Int
  role : Role
  priority : Int
  kind : String
  start_nonneg : 0 ≤ start
  start_le_stop : start ≤ stop
deriving DecidableEq, Repr

/-- Two offsets that bound no span: the first is negative or lies after the second. -/
structure InvalidSpan where
  start : Int
  stop : Int
deriving DecidableEq, Repr

def InvalidSpan.message (span : InvalidSpan) : String :=
  "Invalid span [" ++ toString span.start ++ ", " ++ toString span.stop ++ ")"

namespace Match

def ofSpan (start stop : Int) (role : Role) (priority : Int) (kind : String) :
    Except InvalidSpan Match :=
  if h : 0 ≤ start ∧ start ≤ stop then .ok ⟨start, stop, role, priority, kind, h.1, h.2⟩
  else .error ⟨start, stop⟩

def width (m : Match) : Int :=
  m.stop - m.start

/-- Whether the match claims the byte at offset `i`. -/
def covers (m : Match) (i : Int) : Bool :=
  m.start ≤ i && i < m.stop

theorem covers_iff (m : Match) (i : Int) : m.covers i = true ↔ m.start ≤ i ∧ i < m.stop := by
  simp [covers]

/-- Whether `a` may stand before `b` in the sweep. -/
def precedes (a b : Match) : Bool :=
  a.start < b.start
    || (a.start == b.start
      && (b.priority < a.priority || (a.priority == b.priority && a.width ≤ b.width)))

/-- The matches in the order of the sweep; matches of equal rank stay in the order given. -/
def sort (claims : List Match) : List Match :=
  claims.mergeSort precedes

end Match

/-! ### Ranges -/

/-- The bytes from `start` up to `stop` are kept or elided together. -/
structure Range where
  start : Int
  stop : Int
  keep : Bool
deriving DecidableEq, Repr

namespace Range

/-- The text of a range in messages. -/
def describe (r : Range) : String :=
  "start_byte=" ++ toString r.start ++ " end_byte=" ++ toString r.stop
    ++ " keep=" ++ (if r.keep then "True" else "False")

/-- Drops empty ranges and joins neighbours of one decision. -/
def coalesce : List Range → List Range
  | [] => []
  | r :: rest =>
    if r.stop ≤ r.start then coalesce rest
    else match coalesce rest with
      | [] => [r]
      | next :: later =>
        if r.keep = next.keep ∧ r.stop = next.start then ⟨r.start, next.stop, r.keep⟩ :: later
        else r :: next :: later

end Range

/-! ### Partitions -/

inductive PartitionFault where
  | gap (range : Range) (position : Int)       -- the range does not start there, or is empty
  | sameDecision (position : Int)              -- neighbours that meet there decide alike
  | wrongEnd (position length : Int)           -- the last range does not end with the source
deriving DecidableEq, Repr

def PartitionFault.message : PartitionFault → String
  | .gap range position =>
    "Range " ++ range.describe ++ " does not continue from byte " ++ toString position
  | .sameDecision position => "Adjacent ranges share a decision at byte " ++ toString position
  | .wrongEnd position length =>
    "Ranges end at byte " ++ toString position ++ ", file has " ++ toString length ++ " bytes"

/-- Checks the ranges that have to cover a source from `position` on, after a range with the
decision `before`. -/
def checkFrom (length position : Int) (before : Option Bool) :
    List Range → Except PartitionFault Unit
  | [] => if position = length then .ok () else .error (.wrongEnd position length)
  | r :: later =>
    if r.start ≠ position ∨ r.stop ≤ r.start then .error (.gap r position)
    else if before = some r.keep then .error (.sameDecision position)
    else checkFrom length r.stop (some r.keep) later

/-- Accepts exactly the partitions of a source of the given length. -/
def checkPartition (ranges : List Range) (length : Int) : Except PartitionFault Unit :=
  checkFrom length 0 none ranges

end CodeOutline
