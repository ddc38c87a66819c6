import EpisodeCut.Json.Basic
import EpisodeCut.Text.Numeral

/-!
# Printing JSON

A value is printed with two spaces of indentation per level; an empty array or object stands on one
line (`Json.pretty`). In strings only quotes, backslashes and control characters are escaped.
-/

set_option autoImplicit false

namespace EpisodeCut.Json

/-- The number `n` as a value. -/
def ofNat (n : Nat) : Json :=
  .number (Text.Numeral.write n)

/-- A hexadecimal digit. -/
def hexDigit (n : Nat) : Char :=
  "0123456789abcdef".toList.getD n '0'

/-- The escapes of one letter. -/
def shortEscapes : List (Char × Char) :=
  [('\x22', '\x22'), ('\\', '\\'), ('\x08', 'b'), ('\x0c', 'f'), ('\n', 'n'), ('\r', 'r'),
   ('\t', 't')]

/-- A character of a string as it is printed. -/
def printChar (c : Char) : List Char :=
  match shortEscapes.lookup c with
  | some letter => ['\\', letter]
  | none =>
    if c.toNat < 0x20 then
      ['\\', 'u', '0', '0', hexDigit (c.toNat / 16), hexDigit (c.toNat % 16)]
    else [c]

/-- A string in quotes. -/
def printText (text : String) : List Char :=
  '\x22' :: text.toList.flatMap printChar ++ ['\x22']

/-- A new line at a level of indentation. -/
def newLine (level : Nat) : List Char :=
  '\n' :: List.replicate (2 * level) ' '

/-- Printed parts between brackets, one on each line. -/
def bracketed (level : Nat) (opening closing : Char) (parts : List (List Char)) : List Char :=
  match parts with
  | [] => [opening, closing]
  | parts =>
    opening :: newLine (level + 1) ++ (',' :: newLine (level + 1)).intercalate parts ++
      newLine level ++ [closing]

mutual

/-- Print a value at a level of indentation. -/
def printAt (level : Nat) : Json → List Char
  | .null => "null".toList
  | .boolean value => if value then "true".toList else "false".toList
  | .number literal => literal
  | .text value => printText value
  | .array items => bracketed level '[' ']' (printItems (level + 1) items)
  | .object members => bracketed level '\x7b' '\x7d' (printMembers (level + 1) members)

/-- Print the items of an array. -/
def printItems (level : Nat) : List Json → List (List Char)
  | [] => []
  | item :: rest => printAt level item :: printItems level rest

/-- Print the members of an object. -/
def printMembers (level : Nat) : List (String × Json) → List (List Char)
  | [] => []
  | (key, value) :: rest =>
    (printText key ++ ':' :: ' ' :: printAt level value) :: printMembers level rest

end

/-- Print a value with indentation. -/
def pretty (value : Json) : String :=
  String.ofList (printAt 0 value)

end EpisodeCut.Json
