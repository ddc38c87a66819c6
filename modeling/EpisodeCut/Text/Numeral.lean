/-!
# Decimal numerals

A numeral is a list of ASCII digits. `value` reads any of them, leading zeros included, `write`
gives the one without superfluous zeros, and `value_write` says that reading undoes writing.
-/

set_option autoImplicit false

namespace EpisodeCut.Text.Numeral

/-- The number that the digits `ds` denote; the empty list denotes zero. -/
def value (ds : List Char) : Nat :=
  Nat.ofDigitChars 10 ds 0

/-- The numeral of `n` without superfluous zeros. -/
def write (n : Nat) : List Char :=
  Nat.toDigits 10 n

/-- The numeral of `n` with zeros in front up to `width` digits. -/
def writePadded (width n : Nat) : List Char :=
  List.replicate (width - (write n).length) '0' ++ write n

/-- The numeral of `n` as text. -/
def text (n : Nat) : String :=
  String.ofList (write n)

/-- The numeral of `n` as text of at least `width` digits. -/
def padded (width n : Nat) : String :=
  String.ofList (writePadded width n)

/-- The number written as a non-empty list of digits and nothing else. -/
def read? (ds : List Char) : Option Nat :=
  if ds != [] && ds.all Char.isDigit then some (value ds) else none

/-- The number below `bound` written as digits after an optional plus sign. -/
def readBelow? (bound : Nat) (s : List Char) : Option Nat :=
  (read? (if s.head? = some '+' then s.drop 1 else s)).filter (· < bound)

theorem value_write (n : Nat) : value (write n) = n :=
  Nat.ofDigitChars_toDigits (by decide) (by decide)

end EpisodeCut.Text.Numeral
