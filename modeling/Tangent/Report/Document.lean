import Tangent.Number
import Tangent.Text.Quoted

/-!
# Documents

Structured answers: nested records and lists of simple values, with the fields of a record in
order. A document is written as indented JSON, or its values are quoted in running text. Where a
value is used as something of another shape, the fault names the shape it has.
-/

namespace Tangent

/-- A structured answer over the numbers `ν`. -/
inductive Document (ν : Type) where
  | null
  | boolean (value : Bool)
  | integer (value : Int)
  | number (value : ν)
  | text (value : String)
  | list (items : List (Document ν))
  | record (fields : List (String × Document ν))
  deriving Inhabited

/-- The shapes of values. -/
inductive Shape where
  | null | boolean | integer | number | text | list | record
  deriving DecidableEq, Repr

/-- The name of a shape in messages. -/
def Shape.name : Shape → String
  | null => "NoneType"
  | boolean => "bool"
  | integer => "int"
  | number => "float"
  | text => "str"
  | list => "list"
  | record => "dict"

/-- Why a value cannot be shown in the place where it stands. -/
inductive DisplayFault where
  /-- An answer is no record. -/
  | withoutFields (shape : Shape)
  /-- What is listed is no list. -/
  | withoutItems (shape : Shape)
  /-- An item of a list is no record. -/
  | withoutEntries (shape : Shape)
  /-- An item lacks a field that every item has. -/
  | missingEntry (name : String)
  /-- What is written with a number of places is no number. -/
  | withoutPlaces (shape : Shape)
  /-- What is written with significant digits is no number. -/
  | withoutDigits (shape : Shape)
  /-- A whole number lies beyond the finite numbers. -/
  | oversized
  deriving DecidableEq, Repr

namespace Document

variable {ν : Type}

/-- The shape of a value. -/
def shape : Document ν → Shape
  | null => .null
  | boolean _ => .boolean
  | integer _ => .integer
  | number _ => .number
  | text _ => .text
  | list _ => .list
  | record _ => .record

/-- The value of a field. -/
def field? (name : String) : Document ν → Option (Document ν)
  | record fields => (fields.find? (·.1 = name)).map (·.2)
  | _ => none

/-- The items of a list. -/
def items : Document ν → List (Document ν)
  | list items => items
  | _ => []

/-- What a value holds one after the other: the items of a list, the characters of a text, the names
of the fields of a record. -/
def contents : Document ν → Except DisplayFault (List (Document ν))
  | list items => .ok items
  | text value => .ok (value.toList.map fun c => text (String.singleton c))
  | record fields => .ok (fields.map fun field => text field.1)
  | value => .error (.withoutItems value.shape)

/-- The value of a field that a record has to have. -/
def entry (name : String) : Document ν → Except DisplayFault (Document ν)
  | record fields =>
    match (record fields).field? name with
    | some value => .ok value
    | none => .error (.missingEntry name)
  | value => .error (.withoutEntries value.shape)

/-- Whether a value says yes: all do but null, false, zeros and what is empty. -/
def isAffirmative [Arithmetic ν] : Document ν → Bool
  | null => false
  | boolean value => value
  | integer value => value ≠ 0
  | number value => !(value == Arithmetic.ofNat 0)
  | text value => !value.isEmpty
  | list items => !items.isEmpty
  | record fields => !fields.isEmpty

/-- The number a value is, if it is one; yes and no count as one and zero. -/
def number? [Number ν] : Document ν → Except DisplayFault (Option ν)
  | boolean value => .ok (some (Scalar.ofInt (if value then 1 else 0)))
  | integer value =>
    let size : ν := Scalar.ofInt value
    if Arithmetic.isFinite size then .ok (some size) else .error .oversized
  | number value => .ok (some value)
  | _ => .ok none

/-- The hexadecimal digits of a number below sixteen to the fourth power, four of them. -/
def hexText (number : Nat) : List Char :=
  Decimal.padded 4 (Nat.toDigits 16 number)

/-- A character inside a JSON string. Only quotes, backslashes and controls are escaped. -/
def escaped (c : Char) : List Char :=
  match c with
  | '"' => ['\\', '"']
  | '\\' => ['\\', '\\']
  | '\n' => ['\\', 'n']
  | '\r' => ['\\', 'r']
  | '\t' => ['\\', 't']
  | '\x08' => ['\\', 'b']
  | '\x0c' => ['\\', 'f']
  | _ => if c.toNat < 0x20 then '\\' :: 'u' :: hexText c.toNat else [c]

/-- A JSON string. -/
def jsonString (value : String) : String :=
  String.ofList ('"' :: value.toList.flatMap escaped ++ ['"'])

/-- A JSON number, or a word for what JSON has no number for. -/
def jsonNumber [Number ν] (value : ν) : String :=
  match Scalar.extended value with
  | .finite _ => Number.fullText value
  | .infinite _ => Number.signed value "Infinity"
  | .undefined => "NaN"

/-- The start of a line at a level of indentation, two spaces each. -/
def lineStart (level : Nat) : String :=
  "\n" ++ String.ofList (List.replicate (2 * level) ' ')

/-- Written parts between brackets, one to a line; brackets without parts stay together. -/
def bracketed (opening closing : String) (level : Nat) (parts : List String) : String :=
  if parts.isEmpty then opening ++ closing
  else
    opening ++ lineStart (level + 1) ++
      String.intercalate ("," ++ lineStart (level + 1)) parts ++ lineStart level ++ closing

mutual

/-- The document as JSON at a level of indentation. -/
def jsonAt [Number ν] (level : Nat) : Document ν → String
  | null => "null"
  | boolean true => "true"
  | boolean false => "false"
  | integer value => toString value
  | number value => jsonNumber value
  | text value => jsonString value
  | list items => bracketed "[" "]" level (jsonItems (level + 1) items)
  | record fields => bracketed "\x7b" "\x7d" level (jsonFields (level + 1) fields)

/-- The items of a list as JSON. -/
def jsonItems [Number ν] (level : Nat) : List (Document ν) → List String
  | [] => []
  | item :: rest => jsonAt level item :: jsonItems level rest

/-- The fields of a record as JSON, each with its name. -/
def jsonFields [Number ν] (level : Nat) : List (String × Document ν) → List String
  | [] => []
  | (name, value) :: rest =>
    (jsonString name ++ ": " ++ jsonAt level value) :: jsonFields level rest

end

/-- The document as indented JSON. -/
def json [Number ν] (document : Document ν) : String :=
  document.jsonAt 0

mutual

/-- A value inside another one in running text; texts are quoted. -/
def nestedText [Number ν] : Document ν → String
  | null => "None"
  | boolean true => "True"
  | boolean false => "False"
  | integer value => toString value
  | number value => Number.fullText value
  | text value => Text.quotedText value
  | list items => "[" ++ String.intercalate ", " (nestedTexts items) ++ "]"
  | record fields => "\x7b" ++ String.intercalate ", " (nestedFields fields) ++ "\x7d"

/-- Some values inside another one. -/
def nestedTexts [Number ν] : List (Document ν) → List String
  | [] => []
  | item :: rest => nestedText item :: nestedTexts rest

/-- Some fields inside a record. -/
def nestedFields [Number ν] : List (String × Document ν) → List String
  | [] => []
  | (name, value) :: rest => (Text.quotedText name ++ ": " ++ nestedText value) :: nestedFields rest

end

/-- A value in running text, with a word where there is none. -/
def runningText [Number ν] : Option (Document ν) → String
  | none => "None"
  | some (text value) => value
  | some value => value.nestedText

end Document

end Tangent
