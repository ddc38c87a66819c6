import EpisodeCut.Number.Binary
import EpisodeCut.Text.Numeral

/-!
# The shortest decimal of a number

A number of limited precision is written with the fewest decimal digits that still denote it: those
of the coarsest decimal grid with a point that would be rounded to the number (`Binary.shortest`).
`Binary.text` lays the digits out.
-/

set_option autoImplicit false

namespace EpisodeCut

/-- The number `digits * 10 ^ exponent`. -/
structure Decimal where
  digits : Nat
  exponent : Int
  deriving DecidableEq, Repr

namespace Binary

open Text

/-- Whether the numbers below `x` lie twice as close as those above it. -/
def isNarrowBelow (x : Binary) : Bool :=
  x.mantissa == leastMantissa && leastExponent < x.exponent

/-- Whether `count` steps of the width `10 ^ exponent` are rounded to `x`: they lie between the
middles to the neighbours of `x`, or on one of them if the mantissa is even. -/
def denotes (x : Binary) (count : Nat) (exponent : Int) : Bool :=
  let point := raise 2 (raise 10 (4 * count) exponent) (-x.exponent)
  let unit := raise 2 (raise 10 1 (-exponent)) x.exponent
  let low := (4 * x.mantissa - if x.isNarrowBelow then 1 else 2) * unit
  let high := (4 * x.mantissa + 2) * unit
  if x.mantissa % 2 == 0 then low ≤ point && point ≤ high else low < point && point < high

/-- The point that denotes `x` on the grid of the width `10 ^ exponent`, if there is one. The nearer
of the two points around `x` is taken, and the even one if both are as near. -/
def onGrid? (x : Binary) (exponent : Int) : Option Decimal :=
  let num := raise 10 x.num (-exponent)
  let den := raise 10 x.den exponent
  let below := num / den
  let nearest := roundDiv num den
  let other := if nearest = below then below + 1 else below
  if x.denotes nearest exponent then some ⟨nearest, exponent⟩
  else if x.denotes other exponent then some ⟨other, exponent⟩
  else none

/-- The decimal with the fewest digits that denotes `x`. The widths tried are those from the greatest
number down to the least. -/
def shortest (x : Binary) : Decimal :=
  ((List.range 634).findSome? fun step : Nat => x.onGrid? (309 - step)).getD ⟨0, 0⟩

end Binary

namespace Decimal

open Text

/-- The part of a number that tells the power of ten. -/
def powerText (exponent : Int) : List Char :=
  'e' :: (if exponent < 0 then '-' else '+') :: Numeral.write exponent.natAbs

/-- A decimal with its point among or next to its digits if it stands less than 17 digits behind the
first and less than five before it, and otherwise behind the first digit and with a power of ten. -/
def layout (x : Decimal) : List Char :=
  let digits := Numeral.write x.digits
  let point : Int := digits.length + x.exponent
  if 0 ≤ x.exponent ∧ point ≤ 16 then
    digits ++ List.replicate x.exponent.toNat '0' ++ ['.', '0']
  else if 0 < point ∧ point ≤ 16 then
    digits.take point.toNat ++ '.' :: digits.drop point.toNat
  else if -5 < point ∧ point ≤ 0 then
    '0' :: '.' :: List.replicate (-point).toNat '0' ++ digits
  else
    match digits with
    | first :: rest => first :: (if rest.isEmpty then [] else '.' :: rest) ++ powerText (point - 1)
    | [] => []

end Decimal

/-- A number as text. -/
def Binary.text (x : Binary) : String :=
  String.ofList (if x.mantissa = 0 then "0.0".toList else x.shortest.layout)

end EpisodeCut
