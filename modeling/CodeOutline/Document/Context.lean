/-
  CodeOutline/Document/Context.lean
  =================================
  **What a document is made from.**

  A document has a date, a listing of the directories, a fence for its contents, and the files
  themselves.  A date is written with all fields of fixed width; the microseconds are left out when
  they are zero, and the distance from universal time when it is not known.  A fence is a run of
  backticks longer than any run in the texts that it encloses, and at least three long.

  For the listing, paths are cut at slashes and backslashes and gathered in a tree of names.  The
  listing shows the tree from top to bottom: every name on a line of its own, indented by its
  depth, directories before files, each in code-point order.  Which paths are given, and not how
  often or in which order, decides the listing.
-/
import CodeOutline.Compress.Outcome
import CodeOutline.Source.Render

namespace CodeOutline

open Text (Chars)

/-! ### Dates -/

structure Timestamp where
  year : Nat
  month : Nat
  day : Nat
  hour : Nat
  minute : Nat
  second : Nat
  microsecond : Nat
  offset : Option Int      -- minutes ahead of universal time
deriving DecidableEq, Repr

namespace Timestamp

/-- The decimal digits of a number, filled up with zeros. -/
def padded (width n : Nat) : String :=
  let digits := Nat.toDigits 10 n
  String.ofList (List.replicate (width - digits.length) '0' ++ digits)

def offsetText (minutes : Int) : String :=
  (if minutes < 0 then "-" else "+") ++ padded 2 (minutes.natAbs / 60) ++ ":"
    ++ padded 2 (minutes.natAbs % 60)

def toString (t : Timestamp) : String :=
  padded 4 t.year ++ "-" ++ padded 2 t.month ++ "-" ++ padded 2 t.day ++ "T"
    ++ padded 2 t.hour ++ ":" ++ padded 2 t.minute ++ ":" ++ padded 2 t.second
    ++ (if t.microsecond = 0 then "" else "." ++ padded 6 t.microsecond)
    ++ (t.offset.map offsetText).getD ""

end Timestamp

/-! ### Fences -/

namespace Fence

def backtick : Char := Char.ofNat 0x60

/-- The length of the longest run of backticks, where a run of `current` goes on and one of `best`
has been seen. -/
def longestRunFrom (current best : Nat) : Chars → Nat
  | [] => max current best
  | c :: rest =>
    if c = backtick then longestRunFrom (current + 1) best rest
    else longestRunFrom 0 (max current best) rest

def longestRun (s : Chars) : Nat :=
  longestRunFrom 0 0 s

/-- The least length of a fence. -/
def leastWidth : Nat := 3

def ofWidth (width : Nat) : String :=
  String.ofList (List.replicate width backtick)

/-- The fence for some contents. -/
def forContents (contents : List String) : String :=
  let longest := (contents.map fun s => longestRun s.toList).foldl max 0
  ofWidth (max leastWidth (longest + 1))

end Fence

/-! ### Directory listings -/

/-- A name in a directory, with what is in it; a file is a name with nothing in it. -/
structure Entry where
  name : String
  children : List Entry
deriving Repr

namespace Listing

/-- The names along a path. -/
def namesOf (path : String) : List String :=
  let slashes := path.toList.map fun c => if c = '\\' then '/' else c
  ((Text.splitAtChar '/' slashes).filter fun part => part ≠ [] && part ≠ ['.']).map String.ofList

/-- Changes what is in the entry of a name, which is made where there is none.  Entries are kept in
the order of their names. -/
def alterName (name : String) (alter : List Entry → List Entry) : List Entry → List Entry
  | [] => [⟨name, alter []⟩]
  | e :: later =>
    if name < e.name then ⟨name, alter []⟩ :: e :: later
    else if name = e.name then ⟨name, alter e.children⟩ :: later
    else e :: alterName name alter later

/-- Adds a path, name by name. -/
def insertPath : List String → List Entry → List Entry
  | [], entries => entries
  | name :: rest, entries => alterName name (insertPath rest) entries

def entriesOf (paths : List String) : List Entry :=
  paths.foldl (fun entries path => insertPath (namesOf path) entries) []

/-- The lines of an entry and of all that is in it. -/
structure Block where
  directory : Bool
  lines : List Chars
deriving DecidableEq, Repr

/-- The lines of directories, then those of files. -/
def arrange (blocks : List Block) : List Chars :=
  (blocks.filter (·.directory) ++ blocks.filter (!·.directory)).flatMap Block.lines

/-- The line of a name: two blanks for each directory around it, and a slash after a directory. -/
def nameLine (depth : Nat) (directory : Bool) (name : String) : Chars :=
  List.replicate (2 * depth) ' ' ++ name.toList ++ (if directory then ['/'] else [])

mutual

def block (depth : Nat) : Entry → Block
  | ⟨name, children⟩ =>
    let directory := !children.isEmpty
    ⟨directory, nameLine depth directory name :: arrange (blocks (depth + 1) children)⟩

def blocks (depth : Nat) : List Entry → List Block
  | [] => []
  | e :: later => block depth e :: blocks depth later

end

/-- The listing of some paths, its lines joined. -/
def ofPaths (paths : List String) : String :=
  String.ofList (Text.joinWith ['\n'] (arrange (blocks 0 (entriesOf paths))))

end Listing

/-! ### Contexts -/

inductive Style where
  | plain
  | markdown
  | xml
deriving DecidableEq, Repr

def Style.name : Style → String
  | .plain => "plain"
  | .markdown => "markdown"
  | .xml => "xml"

/-- The styles by their names. -/
def styleChoices : List (String × Style) :=
  [Style.plain, .markdown, .xml].map fun style => (style.name, style)

structure Context where
  files : List Output
  date : String
  listing : String
  fence : String
  style : Style
  compressed : Bool
  placeholder : String
  header : Option String
  instruction : Option String
deriving DecidableEq, Repr

/-- The context for some files, whose listing and fence follow from them. -/
def Context.ofFiles (files : List Output) (date : String) (style : Style) (compressed : Bool)
    (placeholder : String) (header instruction : Option String) : Context :=
  ⟨files, date, Listing.ofPaths (files.map Output.path),
    Fence.forContents (files.map Output.content), style, compressed, placeholder, header,
    instruction⟩

end CodeOutline
