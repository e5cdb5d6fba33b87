/-
  CodeOutline/Input/Field.lean
  ============================
  **Values as they come from outside, and the lenient reading of fields.**

  Settings, matches and documents may be given by values of any type.  A field takes values of
  other types where their meaning is plain: numbers and words for a decision, texts and numbers
  without a fraction for an integer.  A record is read as a whole, and every field that cannot be
  read is reported, in the order of the fields.  Of a match all fields are read first, and only
  when all are good is its span checked.
-/
import CodeOutline.Coverage.Range
import CodeOutline.Text.Integer
import CodeOutline.Text.Quoted
import CodeOutline.Text.ShortestDecimal

namespace CodeOutline

/-! ### Values -/

inductive Value where
  | null
  | bool (b : Bool)
  | int (n : Int)
  | real (x : Binary)
  | text (s : String)
  | list (items : List Value)
  | record (fields : List (String × Value))
deriving Repr

namespace Value

mutual

/-- A value as a message shows it. -/
def describe : Value → String
  | .null => "None"
  | .bool b => if b then "True" else "False"
  | .int n => toString n
  | .real x => String.ofList x.toChars
  | .text s => Text.quoted s
  | .list items => "[" ++ String.intercalate ", " (describeAll items) ++ "]"
  | .record fields => "\x7b" ++ String.intercalate ", " (describeFields fields) ++ "\x7d"

def describeAll : List Value → List String
  | [] => []
  | v :: later => describe v :: describeAll later

def describeFields : List (String × Value) → List String
  | [] => []
  | (name, v) :: later => (Text.quoted name ++ ": " ++ describe v) :: describeFields later

end

end Value

/-- The value given under a name, the last one where there are several. -/
def givenAs (fields : List (String × Value)) (name : String) : Option Value :=
  (fields.reverse.find? (·.1 == name)).map Prod.snd

/-! ### Faults -/

/-- Why a field, or a record, was refused. -/
inductive FieldFault where
  | missing
  | decisionWord            -- a text or number that stands for no decision
  | decisionType            -- no text and no whole number either
  | integerText             -- a text that spells no integer
  | integerSize             -- an integer with too many digits
  | integerFraction
  | integerType
  | textType
  | choice (names : List String)
  | rule (text : String)    -- a rule of the record itself, in its own words
deriving DecidableEq, Repr

namespace FieldFault

def code : FieldFault → String
  | .missing => "missing"
  | .decisionWord => "bool_parsing"
  | .decisionType => "bool_type"
  | .integerText => "int_parsing"
  | .integerSize => "int_parsing_size"
  | .integerFraction => "int_from_float"
  | .integerType => "int_type"
  | .textType => "string_type"
  | .choice _ => "enum"
  | .rule _ => "value_error"

/-- The names between single quotes, the last one after an `or`. -/
def alternatives : List String → String
  | [] => ""
  | [name] => "'" ++ name ++ "'"
  | [name, last] => "'" ++ name ++ "' or '" ++ last ++ "'"
  | name :: later => "'" ++ name ++ "', " ++ alternatives later

def message : FieldFault → String
  | .missing => "Field required"
  | .decisionWord => "Input should be a valid boolean, unable to interpret input"
  | .decisionType => "Input should be a valid boolean"
  | .integerText => "Input should be a valid integer, unable to parse string as an integer"
  | .integerSize => "Unable to parse input string as an integer, exceeded maximum size"
  | .integerFraction => "Input should be a valid integer, got a number with a fractional part"
  | .integerType => "Input should be a valid integer"
  | .textType => "Input should be a valid string"
  | .choice names => "Input should be " ++ alternatives names
  | .rule text => "Value error, " ++ text

end FieldFault

/-- A refusal and the field it is about; none when it is about the record as a whole. -/
structure Issue where
  field : Option String
  fault : FieldFault
deriving DecidableEq, Repr

def Issue.message (issue : Issue) : String :=
  (issue.field.map (· ++ ": ")).getD "" ++ issue.fault.message

/-! ### Single values -/

/-- The least natural number that does not fit a signed word of 64 bits. -/
def wordLimit : Int := Nat.pow 2 63

/-- Whether an integer fits a signed word of 64 bits. -/
def fitsWord (n : Int) : Bool :=
  -wordLimit ≤ n && n < wordLimit

def readDecisionInt (n : Int) : Except FieldFault Bool :=
  if n = 0 then .ok false
  else if n = 1 then .ok true
  else if fitsWord n then .error .decisionWord
  else .error .decisionType

def readDecisionWord (s : String) : Except FieldFault Bool :=
  let word := String.ofList (s.toList.map Char.toLower)
  if ["1", "true", "t", "yes", "y", "on"].contains word then .ok true
  else if ["0", "false", "f", "no", "n", "off"].contains word then .ok false
  else .error .decisionWord

/-- The integer that a number is.  It lies strictly between the ends of the 64-bit words. -/
def readReal (x : Binary) : Except FieldFault Int :=
  match x.toInt? with
  | some n => if -wordLimit < n ∧ n < wordLimit then .ok n else .error .integerSize
  | none => .error .integerFraction

def readDecision : Value → Except FieldFault Bool
  | .bool b => .ok b
  | .int n => readDecisionInt n
  | .real x => match readReal x with
    | .ok n => readDecisionInt n
    | .error _ => .error .decisionType
  | .text s => readDecisionWord s
  | _ => .error .decisionType

def readInt : Value → Except FieldFault Int
  | .int n => .ok n
  | .bool b => .ok (if b then 1 else 0)
  | .real x => readReal x
  | .text s => match Text.readSettingInteger s.toList with
    | .ok n => .ok n
    | .error .malformed => .error .integerText
    | .error .tooLong => .error .integerSize
  | _ => .error .integerType

def readText : Value → Except FieldFault String
  | .text s => .ok s
  | _ => .error .textType

/-- One of a list of named choices, by its exact name. -/
def readChoice {α : Type} (choices : List (String × α)) : Value → Except FieldFault α
  | .text s => match choices.find? (·.1 == s) with
    | some choice => .ok choice.2
    | none => .error (.choice (choices.map Prod.fst))
  | _ => .error (.choice (choices.map Prod.fst))

/-- Nothing, or what the reader makes of the value. -/
def readOptional {α : Type} (read : Value → Except FieldFault α) :
    Value → Except FieldFault (Option α)
  | .null => .ok none
  | v => (read v).map some

/-! ### Fields and records -/

/-- A field or record that is read, or everything that was refused in it. -/
abbrev Checked (α : Type) := Except (List Issue) α

/-- Reads a value that is there for sure. -/
def checkField {α : Type} (name : String) (read : Value → Except FieldFault α) (v : Value) :
    Checked α :=
  (read v).mapError fun fault => [⟨some name, fault⟩]

def requiredField {α : Type} (fields : List (String × Value)) (name : String)
    (read : Value → Except FieldFault α) : Checked α :=
  match givenAs fields name with
  | some v => checkField name read v
  | none => .error [⟨some name, .missing⟩]

def fieldOr {α : Type} (default : α) (fields : List (String × Value)) (name : String)
    (read : Value → Except FieldFault α) : Checked α :=
  match givenAs fields name with
  | some v => checkField name read v
  | none => .ok default

/-- Both parts, or the refusals of the first and then those of the second. -/
def Checked.pair {α β : Type} : Checked α → Checked β → Checked (α × β)
  | .ok a, .ok b => .ok (a, b)
  | .ok _, .error issues => .error issues
  | .error issues, .ok _ => .error issues
  | .error first, .error second => .error (first ++ second)

/-! ### Matches and ranges -/

/-- The roles by their names. -/
def roleChoices : List (String × Role) :=
  [Role.fullDefinition, .signatureOnly, .nameAnchor, .body].map fun role => (role.name, role)

def readRole : Value → Except FieldFault Role :=
  readChoice roleChoices

def InvalidSpan.issue (span : InvalidSpan) : Issue :=
  ⟨none, .rule span.message⟩

/-- A match from its start, end, role, priority and kind. -/
def Match.ofValues (start stop role priority kind : Value) : Checked Match :=
  let fields :=
    ((((checkField "start_byte" readInt start).pair (checkField "end_byte" readInt stop)).pair
      (checkField "role" readRole role)).pair (checkField "priority" readInt priority)).pair
      (checkField "node_kind" readText kind)
  match fields with
  | .error issues => .error issues
  | .ok ((((start, stop), role), priority), kind) =>
    (Match.ofSpan start stop role priority kind).mapError fun span => [span.issue]

/-- A range from its start, end and decision. -/
def Range.ofValues (start stop keep : Value) : Checked Range :=
  (((checkField "start_byte" readInt start).pair (checkField "end_byte" readInt stop)).pair
    (checkField "keep" readDecision keep)).map fun ((start, stop), keep) => ⟨start, stop, keep⟩

end CodeOutline
