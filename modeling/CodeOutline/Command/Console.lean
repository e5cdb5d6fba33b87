/-
  CodeOutline/Command/Console.lean
  ================================
  **What a command says beside its document.**

  Messages use markup in square brackets for colours.  Text from outside is escaped first: a
  backslash is put before whatever would be read as markup.  A plain screen shows a message
  without its markup.
-/
import CodeOutline.Text.Blank

namespace CodeOutline

open Text (Chars)

namespace Console

/-- Whether a character may follow the bracket that opens markup. -/
def startsTag (c : Char) : Bool :=
  ('a' ≤ c && c ≤ 'z') || c == '#' || c == '/' || c == '@'

/-- Whether a text, after its opening bracket, goes on as markup: it starts as markup does and is
closed before another bracket opens. -/
def continuesTag : Chars → Bool
  | [] => false
  | c :: rest => startsTag c && (rest.dropWhile fun d => d != '[' && d != ']').head? == some ']'

/-- Escapes a text before which `backslashes` backslashes stand that are not written yet. -/
def escapeAfter (backslashes : Nat) : Chars → Chars
  | [] => List.replicate backslashes '\\'
  | c :: rest =>
    if c = '\\' then escapeAfter (backslashes + 1) rest
    else if c = '[' && continuesTag rest then
      List.replicate (2 * backslashes + 1) '\\' ++ c :: escapeAfter 0 rest
    else List.replicate backslashes '\\' ++ c :: escapeAfter 0 rest

/-- A single backslash at the end is doubled, so that it does not escape what follows. -/
def protectEnd (s : Chars) : Chars :=
  match s.reverse with
  | '\\' :: '\\' :: _ => s
  | '\\' :: _ => s ++ ['\\']
  | _ => s

/-- A text in which nothing is read as markup. -/
def escape (s : String) : String :=
  String.ofList (protectEnd (escapeAfter 0 s.toList))

def coloured (colour text : String) : String :=
  "[" ++ colour ++ "]" ++ text ++ "[/" ++ colour ++ "]"

/-- A message about a failure. -/
def failure (message : String) : String :=
  coloured "red" (escape message)

/-- What a message shows.  `backslashes` are those just read, of which every second one before a
bracket stands for itself, and `inTag` says whether markup is being passed over. -/
def plainAfter (inTag : Bool) (backslashes : Nat) : Chars → Chars
  | [] => List.replicate backslashes '\\'
  | c :: rest =>
    if inTag then plainAfter (c != ']') 0 rest
    else if c = '\\' then plainAfter false (backslashes + 1) rest
    else if c = '[' && continuesTag rest then
      List.replicate (backslashes / 2) '\\'
        ++ if backslashes % 2 = 1 then c :: plainAfter false 0 rest else plainAfter true 0 rest
    else List.replicate backslashes '\\' ++ c :: plainAfter false 0 rest

def plain (message : String) : String :=
  String.ofList (plainAfter false 0 message.toList)

end Console

/-- A table as it is shown. -/
structure Table where
  headers : List String
  rows : List (List String)
deriving DecidableEq, Repr

/-- The line below a table. -/
def Table.footer (t : Table) : String :=
  "(" ++ toString t.rows.length ++ " rows)"

/-- The lines of a table on a plain screen. -/
def Table.lines (t : Table) : List String :=
  (t.headers :: t.rows).map (String.intercalate "\t")

end CodeOutline
