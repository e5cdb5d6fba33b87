/-
  CodeOutline/Text/Blank.lean
  ===========================
  **Blanks, words and lines.**

  Source code is handled as bytes, and there a blank is one of six ASCII bytes.  Rule files,
  names and documents are handled as characters, and there the blanks are those of Unicode
  together with the four information separators.  Trimming and splitting into words are
  defined by these two classes.

  A text file is read with its newlines unified, so that every line ends in a line feed.  A rule
  file is then cut at every line boundary of Unicode, which are more than the line feed.
-/

namespace CodeOutline

/-! ### Bytes -/

/-- Space, tab, line feed, vertical tab, form feed and carriage return. -/
def isBlankByte (b : UInt8) : Bool :=
  b == 32 || (9 ≤ b && b ≤ 13)

/-- A stretch of bytes is blank when it shows nothing. -/
def allBlank (bytes : List UInt8) : Bool :=
  bytes.all isBlankByte

/-! ### Characters -/

namespace Text

/-- A text as the list of its characters. -/
abbrev Chars := List Char

/-- Unicode white space: the class that number readers skip around a number. -/
def isWhiteSpace (c : Char) : Bool :=
  let n := c.toNat
  n == 0x20 || (0x09 ≤ n && n ≤ 0x0d) || n == 0x85 || n == 0xa0 || n == 0x1680
    || (0x2000 ≤ n && n ≤ 0x200a) || n == 0x2028 || n == 0x2029 || n == 0x202f
    || n == 0x205f || n == 0x3000

/-- White space at which a line may be broken: less the no-break spaces and the next line. -/
def isBreakingSpace (c : Char) : Bool :=
  let n := c.toNat
  isWhiteSpace c && n != 0x85 && n != 0xa0 && n != 0x2007 && n != 0x202f

/-- White space or one of the separators U+001C to U+001F. -/
def isBlank (c : Char) : Bool :=
  isWhiteSpace c || (0x1c ≤ c.toNat && c.toNat ≤ 0x1f)

def dropRightWhile (p : Char → Bool) (s : Chars) : Chars :=
  (s.reverse.dropWhile p).reverse

def trimLeft (s : Chars) : Chars :=
  s.dropWhile isBlank

def trimRight (s : Chars) : Chars :=
  dropRightWhile isBlank s

def trim (s : Chars) : Chars :=
  trimRight (trimLeft s)

def trimWhiteSpace (s : Chars) : Chars :=
  dropRightWhile isWhiteSpace (s.dropWhile isWhiteSpace)

/-- The maximal runs of characters that are not blank, in order. -/
def words : Chars → List Chars
  | [] => []
  | [c] => if isBlank c then [] else [[c]]
  | c :: d :: rest =>
    if isBlank c then words (d :: rest)
    else if isBlank d then [c] :: words (d :: rest)
    else match words (d :: rest) with
      | [] => [[c]]
      | w :: ws => (c :: w) :: ws

/-- Whether `part` stands somewhere in `s`. -/
def contains (part : Chars) : Chars → Bool
  | [] => part.isEmpty
  | c :: rest => part.isPrefixOf (c :: rest) || contains part rest

/-- The parts between the occurrences of `mark`; there is always at least one. -/
def splitAtChar (mark : Char) : Chars → List Chars
  | [] => [[]]
  | c :: rest =>
    if c = mark then [] :: splitAtChar mark rest
    else match splitAtChar mark rest with
      | [] => [[c]]
      | part :: parts => (c :: part) :: parts

/-- The parts in order, with `between` put between neighbours. -/
def joinWith (between : Chars) : List Chars → Chars
  | [] => []
  | [part] => part
  | part :: next :: parts => part ++ between ++ joinWith between (next :: parts)

/-! ### Lines -/

/-- The characters that end a line: line feed, vertical tab, form feed, carriage return, the
file, group and record separators, next line, line separator and paragraph separator. -/
def isLineBoundary (c : Char) : Bool :=
  let n := c.toNat
  (0x0a ≤ n && n ≤ 0x0d) || (0x1c ≤ n && n ≤ 0x1e) || n == 0x85 || n == 0x2028 || n == 0x2029

/-- The lines without their ends.  A carriage return and the line feed after it end one line, and
an end at the very end of the text opens no further line. -/
def lines : Chars → List Chars
  | [] => []
  | '\r' :: '\n' :: rest => [] :: lines rest
  | c :: rest =>
    if isLineBoundary c then [] :: lines rest
    else match lines rest with
      | [] => [[c]]
      | line :: later => (c :: line) :: later

/-- Writes every carriage return, and every carriage return with a line feed after it, as one
line feed. -/
def unifyNewlines : Chars → Chars
  | [] => []
  | '\r' :: '\n' :: rest => '\n' :: unifyNewlines rest
  | c :: rest => (if c = '\r' then '\n' else c) :: unifyNewlines rest

end Text

end CodeOutline
