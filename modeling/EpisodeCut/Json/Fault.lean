import EpisodeCut.Number.Shortest
import EpisodeCut.Text.Quoted

/-!
# Faults of JSON text

The reasons for which a JSON text is refused, and their wording. A text may not be JSON at all, or it
may have another form than the one that is wanted; then the fault names what was found
(`Head.name`) and what was wanted (`Form.name`). A refusal is reported with its line and column
(`Complaint.text`).
-/

set_option autoImplicit false

namespace EpisodeCut.Json

open Text

/-- What a text can end inside of. -/
inductive Part where
  | value
  | text
  | array
  | object
  deriving DecidableEq, Repr

/-- The name of a part. -/
def Part.name : Part → String
  | .value => "a value"
  | .text => "a string"
  | .array => "a list"
  | .object => "an object"

/-- A number. Whole numbers without an exponent are exact as far as 64 binary digits go. -/
inductive Number where
  | natural (n : Nat)
  /-- The number `-n`. -/
  | negative (n : Nat)
  | fraction (isNegative : Bool) (size : Binary)
  deriving DecidableEq, Repr

/-- A number as a fault names it. -/
def Number.name : Number → String
  | .natural n => "integer `" ++ Numeral.text n ++ "`"
  | .negative n => "integer `-" ++ Numeral.text n ++ "`"
  | .fraction isNegative size =>
    "floating point `" ++ (if isNegative then "-" else "") ++ size.text ++ "`"

/-- What a value begins with, which is all of it unless it is an array or an object. -/
inductive Head where
  | null
  | boolean (value : Bool)
  | number (value : Number)
  | text (value : String)
  | array
  | object
  deriving DecidableEq, Repr

/-- A value as a fault names it. -/
def Head.name : Head → String
  | .null => "null"
  | .boolean value => "boolean `" ++ (if value then "true" else "false") ++ "`"
  | .number value => value.name
  | .text value => "string " ++ Quoted.quote value
  | .array => "sequence"
  | .object => "map"

/-- The form that a value is to have. -/
inductive Form where
  | text
  /-- A natural number of at most 32 binary digits. -/
  | word
  | list
  | record (name : String)
  /-- A record that is written as the list of its fields. -/
  | fields (name : String) (count : Nat)
  deriving DecidableEq, Repr

/-- A form as a fault names it. -/
def Form.name : Form → String
  | .text => "a string"
  | .word => "u32"
  | .list => "a sequence"
  | .record name => "struct " ++ name
  | .fields name count =>
    "struct " ++ name ++ " with " ++ Numeral.text count ++
      (if count = 1 then " element" else " elements")

/-- What is wrong at a point of a JSON text. -/
inductive Fault where
  | ended (inside : Part)
  | expectedColon
  | expectedArrayEnd
  | expectedObjectEnd
  /-- A word that begins like one of the words for values ends otherwise. -/
  | unknownWord
  | expectedValue
  | expectedKey
  | unknownEscape
  | malformedNumber
  | numberTooLarge
  | malformedText
  | controlCharacter
  /-- The escape of a unit that has to stand in a pair stands alone. -/
  | loneUnit
  /-- The second unit of a pair is missing. -/
  | missingUnit
  | trailingComma
  | trailingText
  | wrongKind (found : Head) (wanted : Form)
  | outOfRange (found : Number) (wanted : Form)
  | wrongLength (count : Nat) (wanted : Form)
  | repeatedField (name : String)
  deriving DecidableEq, Repr

/-- The wording of a fault. -/
def Fault.text : Fault → String
  | .ended inside => "EOF while parsing " ++ inside.name
  | .expectedColon => "expected `:`"
  | .expectedArrayEnd => "expected `,` or `]`"
  | .expectedObjectEnd => "expected `,` or `\x7d`"
  | .unknownWord => "expected ident"
  | .expectedValue => "expected value"
  | .expectedKey => "key must be a string"
  | .unknownEscape => "invalid escape"
  | .malformedNumber => "invalid number"
  | .numberTooLarge => "number out of range"
  | .malformedText => "invalid unicode code point"
  | .controlCharacter => "control character (\\u0000-\\u001F) found while parsing a string"
  | .loneUnit => "lone leading surrogate in hex escape"
  | .missingUnit => "unexpected end of hex escape"
  | .trailingComma => "trailing comma"
  | .trailingText => "trailing characters"
  | .wrongKind found wanted => "invalid type: " ++ found.name ++ ", expected " ++ wanted.name
  | .outOfRange found wanted => "invalid value: " ++ found.name ++ ", expected " ++ wanted.name
  | .wrongLength count wanted =>
    "invalid length " ++ Numeral.text count ++ ", expected " ++ wanted.name
  | .repeatedField name => "duplicate field `" ++ name ++ "`"

/-- A refusal of a JSON text as it is reported. -/
structure Complaint where
  fault : Fault
  /-- Number of the line, the first one being 1. -/
  line : Nat
  /-- Number of the bytes that have been read of the line. -/
  column : Nat
  deriving DecidableEq, Repr

/-- The wording of a complaint. -/
def Complaint.text (complaint : Complaint) : String :=
  complaint.fault.text ++ " at line " ++ Numeral.text complaint.line ++ " column " ++
    Numeral.text complaint.column

end EpisodeCut.Json
