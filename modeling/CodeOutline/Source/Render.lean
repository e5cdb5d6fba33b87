/-
  CodeOutline/Source/Render.lean
  ==============================
  **Sources, their lines, and the text that a partition leaves.**

  Offsets into a source are integers.  One below zero counts from the end, and one that lies
  outside the source is moved to its nearer end when a slice is taken; a single byte is only read
  inside the source.

  Every line but perhaps the last ends in a line feed, which belongs to it.  No line is empty, and
  the lines together are the source.

  Under a partition kept ranges stand as they are.  An elided range becomes the placeholder and the
  line ending of its last line, so a text keeps the style of its line endings.
-/
import CodeOutline.Coverage.Range
import CodeOutline.Text.Utf8

namespace CodeOutline

open Text (Chars)

/-! ### Offsets -/

/-- The position that an offset names in a list of the given length. -/
def clampOffset (length : Nat) (i : Int) : Nat :=
  if i < 0 then (length + i).toNat else min i.toNat length

/-- The bytes from `start` up to `stop`; none when `stop` does not come after `start`. -/
def slice (bytes : List UInt8) (start stop : Int) : List UInt8 :=
  let lo := clampOffset bytes.length start
  let hi := clampOffset bytes.length stop
  (bytes.drop lo).take (hi - lo)

/-- The byte at an offset, if there is one. -/
def byteAt? (bytes : List UInt8) (i : Int) : Option UInt8 :=
  if 0 ≤ i then bytes[i.toNat]?
  else if -i ≤ bytes.length then bytes[(bytes.length + i).toNat]?
  else none

/-! ### Offsets from the start -/

theorem byteAt?_of_nonneg {bytes : List UInt8} {i : Int} (hi : 0 ≤ i) :
    byteAt? bytes i = bytes[i.toNat]? :=
  if_pos hi

theorem getElem?_slice {bytes : List UInt8} {start stop : Int} (hstart : 0 ≤ start)
    (hstop : 0 ≤ stop) (k : Nat) :
    (slice bytes start stop)[k]? =
      if start + k < stop then byteAt? bytes (start + k) else none := by
  rw [byteAt?_of_nonneg (by omega), slice, clampOffset, clampOffset, if_neg (by omega),
    if_neg (by omega), List.getElem?_take, List.getElem?_drop]
  by_cases hinside : start.toNat + k < bytes.length
  · -- then the slice begins at `start` itself
    have hoffset : min start.toNat bytes.length + k = (start + k).toNat := by omega
    have hends : k < min stop.toNat bytes.length - min start.toNat bytes.length ↔
        start + k < stop := by omega
    simp only [hoffset, hends]
  · have hbeyond : bytes[(start + k).toNat]? = none := List.getElem?_eq_none (by omega)
    rw [if_neg (by omega), hbeyond, ite_self]

theorem mem_slice_iff {bytes : List UInt8} {start stop : Int} (hstart : 0 ≤ start)
    (hstop : 0 ≤ stop) {b : UInt8} :
    b ∈ slice bytes start stop ↔ ∃ i, start ≤ i ∧ i < stop ∧ byteAt? bytes i = some b := by
  rw [List.mem_iff_getElem?]
  simp only [getElem?_slice hstart hstop]
  constructor
  · intro hb
    obtain ⟨k, hk⟩ := hb
    split at hk
    · rename_i hlt
      exact ⟨start + k, by omega, hlt, hk⟩
    · cases hk
  · intro hb
    obtain ⟨i, hle, hlt, hbyte⟩ := hb
    have hoffset : start + (i - start).toNat = i := by omega
    exact ⟨(i - start).toNat, by rw [hoffset, if_pos hlt, hbyte]⟩

/-! ### Lines -/

def lineFeed : UInt8 := 10
def carriageReturn : UInt8 := 13

/-- A line and the offset of its first byte. -/
structure Line where
  start : Int
  bytes : List UInt8
deriving DecidableEq, Repr

namespace Line

/-- The offset after the line. -/
def stop (line : Line) : Int :=
  line.start + line.bytes.length

def isBlank (line : Line) : Bool :=
  allBlank line.bytes

/-- The bytes of the line that lie in the span from `start` up to `stop`. -/
def part (line : Line) (start stop : Int) : List UInt8 :=
  let lo := max start line.start
  let hi := min stop line.stop
  (line.bytes.drop (lo - line.start).toNat).take (hi - lo).toNat

end Line

/-- Cuts after every line feed. -/
def splitLines : List UInt8 → List (List UInt8)
  | [] => []
  | b :: rest =>
    if b = lineFeed then [b] :: splitLines rest
    else match splitLines rest with
      | [] => [[b]]
      | line :: later => (b :: line) :: later

/-- The lines as they follow each other from `start` on. -/
def placeLines (start : Int) : List (List UInt8) → List Line
  | [] => []
  | bytes :: later => ⟨start, bytes⟩ :: placeLines (start + bytes.length) later

def linesOf (source : List UInt8) : List Line :=
  placeLines 0 (splitLines source)

/-! ### The text of a partition -/

/-- The line that stands for an elided range unless another one is asked for. -/
def defaultPlaceholder : String := "⋮----"

/-- How the bytes end: in a carriage return and a line feed, in a line feed, or in neither. -/
def lineEnding (bytes : List UInt8) : Chars :=
  match bytes.reverse with
  | b :: rest =>
    if b = lineFeed then if rest.head? = some carriageReturn then ['\r', '\n'] else ['\n'] else []
  | [] => []

/-- The text of one range. -/
def renderRange (source : List UInt8) (placeholder : Chars) (r : Range) :
    Except Utf8.Fault Chars :=
  let bytes := slice source r.start r.stop
  if r.keep then Utf8.decode bytes else .ok (placeholder ++ lineEnding bytes)

def renderChars (source : List UInt8) (placeholder : Chars) : List Range → Except Utf8.Fault Chars
  | [] => .ok []
  | r :: later => do
    let text ← renderRange source placeholder r
    let rest ← renderChars source placeholder later
    .ok (text ++ rest)

/-- The texts of the ranges, one after the other; the first kept range that is no text is a
fault. -/
def render (source : List UInt8) (ranges : List Range) (placeholder : String) :
    Except Utf8.Fault String :=
  (renderChars source placeholder.toList ranges).map String.ofList

end CodeOutline
