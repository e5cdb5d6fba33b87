/-
  CodeOutline/Text/Utf8.lean
  ==========================
  **UTF-8, written and read.**

  Reading is a machine that takes one byte at a time.  Between characters a byte either is a
  character or opens one; inside a character the next byte must lie between two bounds, and the
  bounds for the second byte are what keeps out overlong forms, surrogates and code points past
  the last one.  A fault says where the broken character starts, how many bytes of it are broken
  off, and why.
-/
import CodeOutline.Text.Blank

namespace CodeOutline.Utf8

open Text (Chars)

/-- The bytes of a text. -/
def encode (s : Chars) : List UInt8 :=
  s.flatMap String.utf8EncodeChar

/-! ### Faults -/

inductive Cause where
  | badStart           -- no character starts with this byte
  | badContinuation    -- the byte after the fault cannot continue the character
  | truncated          -- the bytes end inside the character
deriving DecidableEq, Repr

structure Fault where
  position : Nat       -- where the broken character starts
  width : Nat          -- how many bytes belong to the fault
  first : UInt8        -- the byte at `position`
  cause : Cause
deriving DecidableEq, Repr

def Cause.message : Cause → String
  | .badStart => "invalid start byte"
  | .badContinuation => "invalid continuation byte"
  | .truncated => "unexpected end of data"

/-- A byte as two lower-case hexadecimal digits. -/
def hexByte (b : UInt8) : String :=
  String.ofList [Nat.digitChar (b.toNat / 16), Nat.digitChar (b.toNat % 16)]

/-- Names the byte if it is one, and otherwise the first and the last position. -/
def Fault.message (f : Fault) : String :=
  let place :=
    if f.width ≤ 1 then "byte 0x" ++ hexByte f.first ++ " in position " ++ toString f.position
    else "bytes in position " ++ toString f.position ++ "-" ++ toString (f.position + f.width - 1)
  "'utf-8' codec can't decode " ++ place ++ ": " ++ f.cause.message

/-! ### Reading -/

/-- A character whose first bytes are read. -/
structure Opened where
  first : UInt8
  width : Nat          -- bytes read so far
  owed : Nat           -- bytes still owed after the next one
  low : Nat            -- least next byte
  high : Nat           -- greatest next byte
  code : Nat           -- the bits read so far
deriving DecidableEq, Repr

/-- What a byte between characters means. -/
inductive Lead where
  | single (c : Char)
  | opens (o : Opened)
  | bad
deriving DecidableEq, Repr

def lead (b : UInt8) : Lead :=
  let n := b.toNat
  if n < 0x80 then .single (Char.ofNat n)
  else if n < 0xc2 then .bad
  else if n < 0xe0 then .opens ⟨b, 1, 0, 0x80, 0xbf, n - 0xc0⟩
  else if n < 0xf0 then
    .opens ⟨b, 1, 1, if n = 0xe0 then 0xa0 else 0x80, if n = 0xed then 0x9f else 0xbf, n - 0xe0⟩
  else if n < 0xf5 then
    .opens ⟨b, 1, 2, if n = 0xf0 then 0x90 else 0x80, if n = 0xf4 then 0x8f else 0xbf, n - 0xf0⟩
  else .bad

def Opened.fault (o : Opened) (position : Nat) (cause : Cause) : Fault :=
  ⟨position, o.width, o.first, cause⟩

/-- Reads on from `position`, where a character starts: the one that is opened, if any, or the
next one. -/
def decodeFrom (position : Nat) : Option Opened → List UInt8 → Except Fault Chars
  | none, [] => .ok []
  | some o, [] => .error (o.fault position .truncated)
  | none, b :: rest =>
    match lead b with
    | .single c => (decodeFrom (position + 1) none rest).map (c :: ·)
    | .opens o => decodeFrom position (some o) rest
    | .bad => .error ⟨position, 1, b, .badStart⟩
  | some o, b :: rest =>
    let n := b.toNat
    if n < o.low || o.high < n then .error (o.fault position .badContinuation)
    else
      let code := o.code * 64 + (n - 0x80)
      if o.owed = 0 then
        (decodeFrom (position + o.width + 1) none rest).map (Char.ofNat code :: ·)
      else decodeFrom position (some ⟨o.first, o.width + 1, o.owed - 1, 0x80, 0xbf, code⟩) rest

/-- The text that the bytes spell, or the first fault. -/
def decode (bytes : List UInt8) : Except Fault Chars :=
  decodeFrom 0 none bytes

end CodeOutline.Utf8
