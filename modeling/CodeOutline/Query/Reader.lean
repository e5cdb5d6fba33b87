/-
  CodeOutline/Query/Reader.lean
  =============================
  **Queries from their texts.**

  A pattern is written as its kind and its child patterns between parentheses, a field name and a
  colon in front of it where one is asked for, and the capture names after it, each with an `@`.
  A semicolon starts a comment that runs to the end of its line.  The kind may also be an
  underscore, for any kind, or the word for nodes that the parser made up, which may be followed by
  their kind.  The words for errors and for made-up nodes may be shortened.  An underscore on its
  own stands for any node, named or not, and parentheses around patterns make a group.

  This covers the queries of the bundled rule files.  Query compilers accept more: quantifiers,
  alternations, nodes written as strings, anchors, negated fields and predicates.  Here a query with
  one of these is read as malformed.
-/
import CodeOutline.Query.Pattern
import CodeOutline.Text.Alphanumeric
import CodeOutline.Text.Blank

namespace CodeOutline.Query

open Text (Chars)

inductive Token where
  | opening
  | closing
  | colon
  | word (text : String)
  | capture (name : String)
deriving DecidableEq, Repr

/-! ### Tokens -/

/-- Letters, digits, the underscore and the hyphen start a name. -/
def startsName (c : Char) : Bool :=
  Text.isAlphanumeric c || c == '_' || c == '-'

/-- Inside a name a dot may stand too. -/
def continuesName (c : Char) : Bool :=
  startsName c || c == '.'

/-- What the reader is in the middle of, between two characters. -/
inductive Reading where
  | between
  | comment
  | word (read : Chars)       -- inside a word; its characters, the latest first
  | capture (read : Chars)    -- inside a capture name, perhaps before its first character
deriving DecidableEq, Repr

/-- The token that ends here, if any; none at all when it cannot end yet. -/
def Reading.finish : Reading → Option (List Token)
  | .between => some []
  | .comment => some []
  | .word read => some [.word (String.ofList read.reverse)]
  | .capture [] => none
  | .capture read => some [.capture (String.ofList read.reverse)]

/-- The token that a character outside all names is, if any, and what is read after it. -/
def punctuation (c : Char) : Option (List Token × Reading) :=
  if c = '(' then some ([.opening], .between)
  else if c = ')' then some ([.closing], .between)
  else if c = ':' then some ([.colon], .between)
  else if c = '@' then some ([], .capture [])
  else if c = ';' then some ([], .comment)
  else if Text.isBreakingSpace c then some ([], .between)
  else none

/-- The character that stands nowhere in a query, not even in a comment. -/
def nullChar : Char := Char.ofNat 0

/-- The tokens that a character completes, and what is read after it. -/
def Reading.step : Reading → Char → Option (List Token × Reading)
  | .comment, c =>
    if c = nullChar then none else some ([], if c = '\n' then .between else .comment)
  | .between, c => if startsName c then some ([], .word [c]) else punctuation c
  | .word read, c =>
    if continuesName c then some ([], .word (c :: read))
    else do
      let done ← (Reading.word read).finish
      let (tokens, next) ← punctuation c
      some (done ++ tokens, next)
  | .capture read, c =>
    if (if read = [] then startsName c else continuesName c) then some ([], .capture (c :: read))
    else do
      let done ← (Reading.capture read).finish
      let (tokens, next) ← punctuation c
      some (done ++ tokens, next)

def tokensFrom (reading : Reading) : Chars → Option (List Token)
  | [] => reading.finish
  | c :: rest => do
    let (tokens, next) ← reading.step c
    let later ← tokensFrom next rest
    some (tokens ++ later)

def tokens (text : Chars) : Option (List Token) :=
  tokensFrom .between text

/-! ### Patterns -/

/-- A pattern, or the patterns of a group, which stand for children of one node in order. -/
structure Item where
  first : Pattern
  others : List Pattern

/-- The patterns of items of which the latest comes first. -/
def patternsOf (items : List Item) : List Pattern :=
  items.reverse.flatMap fun item => item.first :: item.others

/-- An item that is not closed yet. -/
structure Frame where
  field : Option String
  test : Option KindTest     -- none for a group
  done : List Item           -- the items in it so far, the latest first

/-- A field name in front of a group belongs to its first pattern. -/
def Frame.close (frame : Frame) : Option Item :=
  match frame.test, patternsOf frame.done with
  | some test, below => some ⟨⟨frame.field, test, [], below⟩, []⟩
  | none, first :: others => some ⟨{ first with field := frame.field.or first.field }, others⟩
  | none, [] => none

/-- What the reader waits for. -/
inductive Awaits where
  | item                            -- an item, a capture or a closing parenthesis
  | colon (field : String)          -- the colon after a field name
  | opening (field : String)        -- the item after the colon
  | kind (field : Option String)    -- the kind after an opening parenthesis, or a group
  | missing (field : Option String) -- the kind of a made-up node, or a closing parenthesis

structure State where
  frames : List Frame        -- the open items, the innermost first
  done : List Item           -- the closed items outside all of them, the latest first
  awaits : Awaits

def start : State :=
  ⟨[], [], .item⟩

/-- Whether a word names something by its full name or the beginning of it. -/
def shortFor (word name : String) : Bool :=
  word.toList.isPrefixOf name.toList

/-- The word for nodes that the parser made up. -/
def missingWord : String := "MISSING"

/-- The kind that a word names. -/
def kindOf (word : String) : String :=
  if shortFor word errorKind then errorKind else word

/-- How many captures a pattern has at most; further ones are passed over. -/
def captureLimit : Nat := 3

/-- Captures the latest item, by its first pattern. -/
def captureLatest (name : String) : List Item → Option (List Item)
  | [] => none
  | ⟨first, others⟩ :: earlier =>
    let captures := (first.captures ++ [name]).take captureLimit
    some (⟨{ first with captures }, others⟩ :: earlier)

namespace State

def enter (s : State) (frame : Frame) (awaits : Awaits) : State :=
  { s with frames := frame :: s.frames, awaits }

/-- Adds an item to the innermost open one. -/
def add (s : State) (item : Item) : State :=
  match s.frames with
  | [] => ⟨[], item :: s.done, .item⟩
  | frame :: outer => ⟨{ frame with done := item :: frame.done } :: outer, s.done, .item⟩

/-- Closes the innermost open item. -/
def close (s : State) : Option State :=
  match s.frames with
  | [] => none
  | frame :: outer => frame.close.map fun item => add { s with frames := outer } item

def capture (s : State) (name : String) : Option State :=
  match s.frames with
  | [] => (captureLatest name s.done).map fun done => { s with done }
  | frame :: outer =>
    (captureLatest name frame.done).map fun done =>
      { s with frames := { frame with done } :: outer }

/-- A word that is no kind: every underscore that it starts with stands for any node, and the rest
is a field name.  The field name before the word, if any, belongs to the first underscore. -/
def readWord (s : State) (field : Option String) : Chars → Option State
  | [] => some s
  | '_' :: rest => (s.add ⟨⟨field, .anyNode, [], []⟩, []⟩).readWord none rest
  | '.' :: _ => none
  | name => if field = none then some { s with awaits := .colon (String.ofList name) } else none

/-- A step of the reader, or none where the query is malformed. -/
def step (s : State) (token : Token) : Option State :=
  match s.awaits, token with
  | .item, .opening => some { s with awaits := .kind none }
  | .item, .word word => s.readWord none word.toList
  | .item, .closing => s.close
  | .item, .capture name => s.capture name
  | .colon field, .colon => some { s with awaits := .opening field }
  | .opening field, .opening => some { s with awaits := .kind (some field) }
  | .opening field, .word word => s.readWord (some field) word.toList
  | .kind field, .opening => some (s.enter ⟨field, none, []⟩ (.kind none))
  | .kind field, .word word =>
    if word = "_" then some (s.enter ⟨field, some .anyNamed, []⟩ .item)
    else if shortFor word missingWord then some { s with awaits := .missing field }
    else some (s.enter ⟨field, some (.exactly (kindOf word)), []⟩ .item)
  | .missing field, .word word =>
    some (s.enter ⟨field, some (.missing (some (kindOf word))), []⟩ .item)
  | .missing field, .closing => some (s.add ⟨⟨field, .missing none, [], []⟩, []⟩)
  | _, _ => none

end State

/-- Whether a pattern for any node starts with a child whose kind is asked for.  Its embeddings are
then found by way of this child. -/
def isFoundByChild (p : Pattern) : Bool :=
  p.field = none && p.test = .anyNamed
    && p.children.head?.any fun child => child.test.kind?.isSome

/-- A pattern outside all others; one that is found by way of a child has one capture at most. -/
def outermost (p : Pattern) : Pattern :=
  if isFoundByChild p then { p with captures := p.captures.take 1 } else p

/-- The pattern for an item outside all others: the patterns of a group are looked for among the
children of any node. -/
def Item.pattern (item : Item) : Pattern :=
  match item.others with
  | [] => outermost item.first
  | others => ⟨none, .anyNode, [], outermost item.first :: others⟩

/-- The patterns read, once every item is closed. -/
def State.finish (s : State) : Option Query :=
  match s.awaits, s.frames with
  | .item, [] => some (s.done.reverse.map Item.pattern)
  | _, _ => none

/-- The query that a text spells, or none for a malformed one. -/
def read (text : Chars) : Option Query := do
  let tokens ← tokens text
  let s ← tokens.foldlM State.step start
  s.finish

/-- The query that a text spells, if it names only what the grammar has. -/
def compile (grammar : Grammar) (text : String) : Option Query := do
  let query ← read text.toList
  if Pattern.allKnownTo grammar query then some query else none

end CodeOutline.Query
