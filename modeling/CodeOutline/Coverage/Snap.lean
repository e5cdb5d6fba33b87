/-
  CodeOutline/Coverage/Snap.lean
  ==============================
  **The byte coverage of a source, and its line partition.**

  The matches are swept from left to right.  Between two neighbouring boundaries of matches the
  same matches cover every byte; among them the highest priority decides, and at equal priority a
  match that keeps wins over a body.  Bytes that no match covers follow the given default.

  From the bytes the lines follow: a line is kept when a byte of it that shows something is kept,
  and a blank line when any byte of it is.  So no line is ever kept or elided in part.
-/
import CodeOutline.Coverage.Range
import CodeOutline.Source.Render

namespace CodeOutline

/-! ### Bytes -/

/-- Cuts a match off at the end of a source; one that covers no byte of it is dropped. -/
def Match.clip (length : Int) (m : Match) : Option Match :=
  if h : m.start < length ∧ m.start < m.stop then
    some { m with stop := min m.stop length, start_le_stop := by omega }
  else none

/-- The decision of a byte that exactly the given matches cover. -/
def decideCovered (retain : Bool) (covering : List Match) : Bool :=
  match (covering.map Match.priority).max? with
  | none => retain
  | some top => covering.any fun m => m.priority == top && m.role.keeps

/-- Adds an offset to a list of increasing offsets. -/
def insertOffset (i : Int) : List Int → List Int
  | [] => [i]
  | j :: rest =>
    if i < j then i :: j :: rest else if i = j then j :: rest else j :: insertOffset i rest

/-- The ends of the source and of the matches, in increasing order. -/
def boundaries (length : Int) (claims : List Match) : List Int :=
  (0 :: length :: claims.flatMap fun m => [m.start, m.stop]).foldr insertOffset []

/-- One range for each pair of neighbouring offsets.  `waiting` holds the matches that the sweep
has not reached, in their order, and `active` those that it has entered. -/
def sweep (retain : Bool) : List Int → (waiting active : List Match) → List Range
  | start :: stop :: later, waiting, active =>
    let entered := waiting.takeWhile (·.start ≤ start)
    let active := (active ++ entered).filter (start < ·.stop)
    ⟨start, stop, decideCovered retain active⟩
      :: sweep retain (stop :: later) (waiting.dropWhile (·.start ≤ start)) active
  | _, _, _ => []

/-- The partition of a source of the given length by the decisions of its bytes. -/
def coverage (length : Int) (claims : List Match) (retain : Bool) : List Range :=
  let ordered := Match.sort (claims.filterMap (Match.clip length))
  Range.coalesce (sweep retain (boundaries length ordered) ordered [])

/-! ### Lines -/

/-- Whether the line is kept under the coverage, given from the range on that holds its first
byte. -/
def Line.isKept (line : Line) (covered : List Range) : Bool :=
  (covered.takeWhile (·.start < line.stop)).any fun r =>
    let part := line.part r.start r.stop
    r.keep && !part.isEmpty && (line.isBlank || !allBlank part)

/-- One range for each line, under a coverage whose ranges before the first line are passed. -/
def snap : List Line → List Range → List Range
  | [], _ => []
  | line :: later, covered =>
    let covered := covered.dropWhile (·.stop ≤ line.start)
    ⟨line.start, line.stop, line.isKept covered⟩ :: snap later covered

/-- The partition of a source into runs of lines that are kept or elided. -/
def resolve (source : List UInt8) (claims : List Match) (retain : Bool) : List Range :=
  Range.coalesce (snap (linesOf source) (coverage source.length claims retain))

end CodeOutline
