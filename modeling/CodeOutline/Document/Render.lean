/-
  CodeOutline/Document/Render.lean
  ================================
  **Documents.**

  A document says what it is, lists the directories, and gives every file a section of its own, in
  one of three styles.  It is put together from parts that a line feed separates; blanks at its
  ends are dropped, and it ends in one line feed.

  Inside XML the three characters that could start markup are written as entities.  In an attribute
  so are the characters that an XML reader would change, and the quotes around the value are chosen
  so that as few of its own quotes as possible need an entity.

  A document may be given by values of any type.  Its files are read first, one after the other.  A
  context is either given in full or built from files and options; in the second case the style is
  looked at before anything else.
-/
import CodeOutline.Document.Context
import CodeOutline.Input.Field
import CodeOutline.Languages.Registry

namespace CodeOutline

open Text (Chars)

/-! ### Texts inside markup -/

namespace Markup

/-- A character of running text. -/
def escapeChar (c : Char) : Chars :=
  if c = '&' then "&amp;".toList
  else if c = '<' then "&lt;".toList
  else if c = '>' then "&gt;".toList
  else [c]

def escape (s : Chars) : Chars :=
  s.flatMap escapeChar

/-- A character of an attribute whose value stands between quotes of the kind `mark`. -/
def escapeAttributeChar (mark c : Char) : Chars :=
  if c = '\n' then "&#10;".toList
  else if c = '\r' then "&#13;".toList
  else if c = '\t' then "&#9;".toList
  else if c = '"' && mark = '"' then "&quot;".toList
  else escapeChar c

/-- Double quotes, unless the value holds some and no single quote. -/
def attributeMark (s : Chars) : Char :=
  if s.contains '"' && !s.contains '\'' then '\'' else '"'

/-- An attribute's value with its quotes. -/
def quoteAttribute (s : Chars) : Chars :=
  let mark := attributeMark s
  mark :: s.flatMap (escapeAttributeChar mark) ++ [mark]

end Markup

/-! ### Summary and notes -/

namespace Context

def summary (c : Context) : String :=
  "This document merges " ++ toString c.files.length
    ++ " source file(s) into one text, generated by codex-skeleton on " ++ c.date ++ "."

def notes (c : Context) : List String :=
  ["Files appear in the order they were given; each is introduced by its path."]
    ++ (if c.compressed then
      ["Function and method bodies are collapsed into single '" ++ c.placeholder
        ++ "' lines. Signatures, type declarations and comments are kept."]
      else [])
    ++ ["Files in languages without a grammar are included unchanged."]

end Context

namespace Document

/-- A text that is given and not empty. -/
def given (s : Option String) : List Chars :=
  match s with
  | some text => if text = "" then [] else [text.toList]
  | none => []

/-- A content without the line feeds at its end. -/
def dropFinalNewlines (content : Chars) : Chars :=
  Text.dropRightWhile (· == '\n') content

def noteLine (note : String) : Chars :=
  "- ".toList ++ note.toList

/-! ### Plain -/

def plainRule : Chars :=
  List.replicate 16 '='

/-- A title between two rules. -/
def plainTitle (title : Chars) : List Chars :=
  [plainRule, title, plainRule]

def plainFile (file : Output) : List Chars :=
  plainTitle ("File: ".toList ++ file.path.toList) ++ [file.content.toList, []]

def plain (c : Context) : List Chars :=
  [c.summary.toList, []]
    ++ plainTitle "Notes".toList ++ c.notes.map noteLine ++ [[]]
    ++ (given c.header).flatMap (fun text => plainTitle "User Provided Header".toList ++ [text, []])
    ++ plainTitle "Directory Structure".toList ++ [c.listing.toList, []]
    ++ plainTitle "Files".toList ++ [[]]
    ++ c.files.flatMap plainFile
    ++ (given c.instruction).flatMap (fun text => plainTitle "Instruction".toList ++ [text, []])

/-! ### Markdown -/

def markdownFile (fence : Chars) (file : Output) : List Chars :=
  let hint := ((detectLanguage file.path).getD "").toList
  ["## File: ".toList ++ file.path.toList, [], fence ++ hint,
    dropFinalNewlines file.content.toList, fence, []]

def markdown (c : Context) : List Chars :=
  let fence := c.fence.toList
  [c.summary.toList, [], "# Notes".toList, []]
    ++ c.notes.map noteLine ++ [[]]
    ++ (given c.header).flatMap (fun text => ["# User Provided Header".toList, [], text, []])
    ++ ["# Directory Structure".toList, [], fence, c.listing.toList, fence, [],
      "# Files".toList, []]
    ++ c.files.flatMap (markdownFile fence)
    ++ (given c.instruction).flatMap (fun text => ["# Instruction".toList, [], text, []])

/-! ### XML -/

def xmlFile (file : Output) : List Chars :=
  ["<file path=".toList ++ Markup.quoteAttribute file.path.toList ++ ['>'],
    Markup.escape (dropFinalNewlines file.content.toList), "</file>".toList, []]

/-- A text between the opening and the closing tag of a name. -/
def xmlElement (name : String) (body : List Chars) : List Chars :=
  [("<" ++ name ++ ">").toList] ++ body ++ [("</" ++ name ++ ">").toList, []]

def xml (c : Context) : List Chars :=
  [Markup.escape c.summary.toList, []]
    ++ xmlElement "notes" (c.notes.map fun note => "- ".toList ++ Markup.escape note.toList)
    ++ (given c.header).flatMap (fun text => xmlElement "user_provided_header" [Markup.escape text])
    ++ xmlElement "directory_structure" [Markup.escape c.listing.toList]
    ++ xmlElement "files" (c.files.flatMap xmlFile)
    ++ (given c.instruction).flatMap (fun text => xmlElement "instruction" [Markup.escape text])

/-! ### The whole document -/

def parts (c : Context) : List Chars :=
  match c.style with
  | .plain => plain c
  | .markdown => markdown c
  | .xml => xml c

def renderChars (c : Context) : Chars :=
  Text.trim (Text.joinWith ['\n'] (parts c)) ++ ['\n']

/-- The text of a document. -/
def render (c : Context) : String :=
  String.ofList (renderChars c)

end Document

/-! ### Documents from loosely typed values -/

/-- A file of a document from its path and its content. -/
def Output.ofValues (path content : Value) : Checked Output :=
  ((checkField "path" readText path).pair (checkField "content" readText content)).map
    fun (path, content) => ⟨path, content⟩

def readStyle : Value → Except FieldFault Style :=
  readChoice styleChoices

/-- A context from named values, with the files already read if they are given. -/
def Context.ofFields (files : Option (List Output)) (fields : List (String × Value)) :
    Checked Context :=
  let files : Checked (List Output) := match files with
    | some files => .ok files
    | none => .error [⟨some "files", .missing⟩]
  let date := requiredField fields "generation_date" readText
  let listing := requiredField fields "tree_string" readText
  let fence := fieldOr (Fence.ofWidth Fence.leastWidth) fields "code_fence" readText
  let style := fieldOr Style.plain fields "style" readStyle
  let compressed := fieldOr true fields "compressed" readDecision
  let placeholder := fieldOr defaultPlaceholder fields "placeholder" readText
  let header := fieldOr none fields "header_text" (readOptional readText)
  let instruction := fieldOr none fields "instruction" (readOptional readText)
  ((((((((files.pair date).pair listing).pair fence).pair style).pair compressed).pair
    placeholder).pair header).pair instruction).map
    fun ((((((((files, date), listing), fence), style), compressed), placeholder), header),
        instruction) =>
      ⟨files, date, listing, fence, style, compressed, placeholder, header, instruction⟩

inductive BuildFault where
  | unknownStyle (style : Value)
  | refused (issues : List Issue)
deriving Repr

/-- The message about a style that is none. -/
def unknownStyleMessage (style : Value) : String :=
  style.describe ++ " is not a valid OutputStyle"

/-- The context for some files under options, for a document of the given date. -/
def Context.build (files : List Output) (date : Timestamp) (options : List (String × Value)) :
    Except BuildFault Context :=
  let style := (givenAs options "style").getD (.text Style.plain.name)
  match readStyle style with
  | .error _ => .error (.unknownStyle style)
  | .ok style =>
    let compressed := fieldOr true options "compressed" readDecision
    let placeholder := fieldOr defaultPlaceholder options "placeholder" readText
    let header := fieldOr none options "header_text" (readOptional readText)
    let instruction := fieldOr none options "instruction" (readOptional readText)
    match ((compressed.pair placeholder).pair header).pair instruction with
    | .error issues => .error (.refused issues)
    | .ok (((compressed, placeholder), header), instruction) =>
      .ok (Context.ofFiles files date.toString style compressed placeholder header instruction)

end CodeOutline
