/-
  CodeOutline/Text/Integer.lean
  =============================
  **Integers in texts.**

  A written integer has an optional sign and digits, where one underscore may stand between two
  digits.  There are two readers: one for rule files and command lines, which takes the digits of
  every script, and one for settings, which takes ASCII digits only.  The latter passes over
  leading zeros and the underscores among them, even before a minus sign, and over a fraction of
  zeros.  Both pass over white space around the number, and neither takes more than `digitLimit`
  digits.
-/
import CodeOutline.Text.Blank

namespace CodeOutline.Text

/-! ### Digits -/

/-- The code points of the digits zero, in increasing order.  The digits of every script have ten
consecutive code points, from zero to nine. -/
def zeroDigits : List Nat :=
  [
    0x30, 0x660, 0x6f0, 0x7c0, 0x966, 0x9e6, 0xa66, 0xae6, 0xb66, 0xbe6,
    0xc66, 0xce6, 0xd66, 0xde6, 0xe50, 0xed0, 0xf20, 0x1040, 0x1090, 0x17e0,
    0x1810, 0x1946, 0x19d0, 0x1a80, 0x1a90, 0x1b50, 0x1bb0, 0x1c40, 0x1c50, 0xa620,
    0xa8d0, 0xa900, 0xa9d0, 0xa9f0, 0xaa50, 0xabf0, 0xff10, 0x104a0, 0x10d30, 0x11066,
    0x110f0, 0x11136, 0x111d0, 0x112f0, 0x11450, 0x114d0, 0x11650, 0x116c0, 0x11730, 0x118e0,
    0x11950, 0x11c50, 0x11d50, 0x11da0, 0x16a60, 0x16ac0, 0x16b50, 0x1d7ce, 0x1d7d8, 0x1d7e2,
    0x1d7ec, 0x1d7f6, 0x1e140, 0x1e2f0, 0x1e950, 0x1fbf0]

/-- The value of a decimal digit of any script. -/
def decimalDigit? (c : Char) : Option Nat :=
  (zeroDigits.find? fun first => first ≤ c.toNat && c.toNat < first + 10).map (c.toNat - ·)

/-- The value of an ASCII digit. -/
def asciiDigit? (c : Char) : Option Nat :=
  if 0x30 ≤ c.toNat && c.toNat ≤ 0x39 then some (c.toNat - 0x30) else none

/-! ### Signs and digits -/

/-- The greatest number of digits that is read. -/
def digitLimit : Nat := 4300

/-- The values of the digits, where an underscore may stand between two of them. -/
def readDigits (digit? : Char → Option Nat) : Chars → Option (List Nat)
  | [] => none
  | [c] => (digit? c).map ([·])
  | c :: d :: rest =>
    match digit? c with
    | none => none
    | some n =>
      (if d = '_' then readDigits digit? rest else readDigits digit? (d :: rest)).map (n :: ·)

/-- The number that the digits spell in base ten. -/
def digitsValue (digits : List Nat) : Nat :=
  digits.foldl (fun value d => value * 10 + d) 0

/-- A sign, and what follows it. -/
def readSign : Chars → Bool × Chars
  | '-' :: rest => (true, rest)
  | '+' :: rest => (false, rest)
  | rest => (false, rest)

def signed (negative : Bool) (n : Nat) : Int :=
  if negative then -(n : Int) else n

/-- The integer that a text spells in digits of any script, white space around it aside. -/
def readInteger (s : Chars) : Option Int :=
  let (negative, body) := readSign (trimWhiteSpace s)
  match readDigits decimalDigit? body with
  | some digits =>
    if digits.length ≤ digitLimit then some (signed negative (digitsValue digits)) else none
  | none => none

/-! ### Integers in settings -/

inductive IntegerFault where
  | malformed    -- the text spells no integer
  | tooLong      -- it does, with more digits than are read
deriving DecidableEq, Repr

/-- What is left of a number behind zeros and underscores, the last of which is `last`: all from
its first other digit or its sign on.  Before a point, or at the end, the last of them stays. -/
def dropZeros (last : Char) : Chars → Option Chars
  | [] => some [last]
  | c :: rest =>
    if c = '0' ∨ c = '_' then dropZeros c rest
    else if c = '.' then some (last :: c :: rest)
    else if c = '-' ∨ (asciiDigit? c).isSome then some (c :: rest)
    else none

/-- A number that starts with a digit or a minus sign, without the zeros that lead it. -/
def dropLeadingZeros : Chars → Option Chars
  | [] => none
  | c :: rest =>
    if c = '0' then dropZeros c rest
    else if c = '-' ∨ (asciiDigit? c).isSome then some (c :: rest)
    else none

/-- Takes off a fraction of one or more zeros. -/
def dropZeroFraction (s : Chars) : Chars :=
  match s.dropWhile (· != '.') with
  | _ :: zeros => if !zeros.isEmpty && zeros.all (· == '0') then s.takeWhile (· != '.') else s
  | [] => s

/-- Takes out single underscores that stand between other characters. -/
def dropUnderscores (s : Chars) : Option Chars :=
  if s.head? = some '_' ∨ s.getLast? = some '_' ∨ contains ['_', '_'] s then none
  else some (s.filter (· ≠ '_'))

/-- A number without white space around it, a plus sign, leading zeros, a fraction of zeros and
underscores. -/
def bareInteger (s : Chars) : Option Chars :=
  match trimWhiteSpace s with
  | '+' :: '-' :: _ => none
  | '+' :: body => (dropLeadingZeros body).bind fun n => dropUnderscores (dropZeroFraction n)
  | body => (dropLeadingZeros body).bind fun n => dropUnderscores (dropZeroFraction n)

/-- The integer that a text spells in ASCII digits.  Its sign counts towards its length. -/
def readSettingInteger (s : Chars) : Except IntegerFault Int :=
  match bareInteger s with
  | none => .error .malformed
  | some bare =>
    let (negative, body) := readSign bare
    match readDigits asciiDigit? body with
    | none => .error .malformed
    | some digits =>
      if bare.length ≤ digitLimit then .ok (signed negative (digitsValue digits))
      else .error .tooLong

end CodeOutline.Text
