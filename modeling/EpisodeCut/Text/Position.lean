import EpisodeCut.Text.Blank

/-!
# Positions in a text

A position names a point of a text by line, column and the text that follows on the line. It is
computed from the two parts into which the point divides the text (`Position.between`), or from an
offset in bytes (`Position.atByte`).
-/

set_option autoImplicit false

namespace EpisodeCut

/-- A point of a text as it is shown to the author of the text. -/
structure Position where
  /-- Number of the line, the first one being 1. -/
  line : Nat
  /-- Number of the character in its line, the first one being 1. -/
  column : Nat
  /-- What stands between the point and the end of its line. -/
  fragment : String
  deriving DecidableEq, Repr

namespace Position

/-- Shown in place of an empty fragment. -/
def endOfInput : String :=
  "<end of input>"

/-- The part of `s` after its last line feed. -/
def lastLine (s : List Char) : List Char :=
  (s.reverse.takeWhile (· != '\n')).reverse

/-- The fragment at the head of `rest`: the line up to its end, without trailing white space. -/
def fragmentOf (rest : List Char) : String :=
  match Text.trimRight (rest.takeWhile (· != '\n')) with
  | [] => endOfInput
  | shown => String.ofList shown

/-- The point between `before` and `rest` in the text `before ++ rest`. -/
def between (before rest : List Char) : Position where
  line := before.count '\n' + 1
  column := (lastLine before).length + 1
  fragment := fragmentOf rest

/-- The point of `text` at which its suffix `rest` begins. -/
def ofSuffix (text rest : List Char) : Position :=
  between (text.take (text.length - rest.length)) rest

/-- Divide a text at the last character boundary that is not after the byte `offset`. -/
def splitAtByte : Nat → List Char → List Char × List Char
  | _, [] => ([], [])
  | offset, c :: rest =>
    if c.utf8Size ≤ offset then
      let parts := splitAtByte (offset - c.utf8Size) rest
      (c :: parts.1, parts.2)
    else
      ([], c :: rest)

/-- The point of `text` at the byte `offset`, moved back to a character boundary and to the end. -/
def atByte (text : List Char) (offset : Nat) : Position :=
  let parts := splitAtByte offset text
  between parts.1 parts.2

theorem splitAtByte_append (offset : Nat) (text : List Char) :
    (splitAtByte offset text).1 ++ (splitAtByte offset text).2 = text := by
  induction text generalizing offset with
  | nil => rfl
  | cons c rest ih =>
    simp only [splitAtByte]
    split
    · simp [ih]
    · rfl

theorem ofSuffix_append (before rest : List Char) :
    ofSuffix (before ++ rest) rest = between before rest := by
  simp [ofSuffix]

end Position

end EpisodeCut
