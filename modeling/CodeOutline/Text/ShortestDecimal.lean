/-
  CodeOutline/Text/ShortestDecimal.lean
  =====================================
  **The shortest decimal of a binary number.**

  A binary number of 53 bits stands for all reals that round to it.  Its decimal is the shortest
  one among them, and of two equally short ones the nearer.  All is done with natural numbers: a
  multiple of ten to a power is compared with a multiple of two to a power by multiplying out.
-/
import CodeOutline.Text.Blank

namespace CodeOutline

open Text (Chars)

/-- The number `mantissa` times two to the `exponent`, with a sign that zero has too. -/
structure Binary where
  negative : Bool
  mantissa : Nat
  exponent : Int
deriving DecidableEq, Repr

namespace Binary

/-- The integer that the number is, if it is one. -/
def toInt? (x : Binary) : Option Int :=
  let sign : Int := if x.negative then -1 else 1
  if 0 ≤ x.exponent then some (sign * (x.mantissa * Nat.pow 2 x.exponent.toNat : Nat))
  else
    let unit := Nat.pow 2 (-x.exponent).toNat
    if x.mantissa % unit = 0 then some (sign * (x.mantissa / unit : Nat)) else none

/-- The least exponent of a 53-bit number. -/
def leastExponent : Int := -1074

/-- The least mantissa of 53 bits.  Below it the numbers lie twice as close. -/
def leastMantissa : Nat := Nat.pow 2 52

/-- Numerator and denominator of `base` to an integer power. -/
def powerOf (base : Nat) (k : Int) : Nat × Nat :=
  if 0 ≤ k then (Nat.pow base k.toNat, 1) else (1, Nat.pow base (-k).toNat)

/-- A positive number and the ends of the interval that rounds to it, in quarters of its last
place. -/
structure Interval where
  low : Nat
  value : Nat
  high : Nat
  closed : Bool            -- whether the ends belong to the interval
  quarter : Nat × Nat      -- a quarter of the last place, as a fraction
deriving DecidableEq, Repr

def interval (x : Binary) : Interval :=
  let m := x.mantissa
  let low := if m = leastMantissa ∧ leastExponent < x.exponent then 4 * m - 1 else 4 * m - 2
  ⟨low, 4 * m, 4 * m + 2, m % 2 == 0, powerOf 2 (x.exponent - 2)⟩

/-- The multiple of ten to the `k` in the interval that is nearest to the value, if any. -/
def Interval.nearest? (i : Interval) (k : Int) : Option Nat :=
  let ten := powerOf 10 k
  let a := ten.1 * i.quarter.2
  let b := i.quarter.1 * ten.2
  let inside (d : Nat) : Bool :=
    (i.low * b < d * a && d * a < i.high * b)
      || (i.closed && (d * a == i.low * b || d * a == i.high * b))
  let below := i.value * b / a
  let above := below + 1
  match inside below, inside above with
  | true, true =>
    let down := i.value * b - below * a
    let up := above * a - i.value * b
    some (if down < up || (down == up && below % 2 == 0) then below else above)
  | true, false => some below
  | false, true => some above
  | false, false => none

/-- The exponent of the first decimal digit of a positive number. -/
def firstDigitExponent (x : Binary) : Int :=
  let two := powerOf 2 x.exponent
  let whole := x.mantissa * two.1 / two.2
  if 0 < whole then ((Nat.toDigits 10 whole).length : Int) - 1
  else
    -(((List.range 400).takeWhile fun j =>
      x.mantissa * two.1 * Nat.pow 10 j < two.2).length : Int)

/-- Digits and the exponent of the last one, for the least number of digits that will do. -/
def shortest (x : Binary) : Nat × Int :=
  let i := x.interval
  let e := x.firstDigitExponent
  ((List.range 17).findSome? fun (n : Nat) =>
    (i.nearest? (e - n)).map fun d => (d, e - (n : Int))).getD (0, 0)

/-- Takes the zeros off the end of a digit string. -/
def dropZeros (digits : Chars) : Chars :=
  Text.dropRightWhile (· == '0') digits

/-- The exponent with its sign and at least two digits. -/
def exponentText (e : Int) : Chars :=
  let digits := Nat.toDigits 10 e.natAbs
  (if e < 0 then '-' else '+') :: (List.replicate (2 - digits.length) '0' ++ digits)

/-- Digits whose point stands after `point` of them: written out from 10^-4 up to 10^16, with at
least one digit on each side of the point, and with an exponent outside. -/
def layout (digits : Chars) (point : Int) : Chars :=
  if -4 < point ∧ point ≤ 16 then
    if point ≤ 0 then '0' :: '.' :: List.replicate (-point).toNat '0' ++ digits
    else
      let whole := digits.take point.toNat ++ List.replicate (point.toNat - digits.length) '0'
      let rest := digits.drop point.toNat
      whole ++ '.' :: (if rest = [] then ['0'] else rest)
  else
    let fraction := digits.drop 1
    digits.take 1 ++ (if fraction = [] then [] else '.' :: fraction)
      ++ 'e' :: exponentText (point - 1)

/-- The decimal that messages show. -/
def toChars (x : Binary) : Chars :=
  let sign := if x.negative then ['-'] else []
  if x.mantissa = 0 then sign ++ ['0', '.', '0']
  else
    let (n, k) := x.shortest
    let digits := Nat.toDigits 10 n
    sign ++ layout (dropZeros digits) (digits.length + k)

end Binary

end CodeOutline
