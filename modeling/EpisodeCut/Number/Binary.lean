/-!
# Numbers of 53 binary digits

A number that is read with limited precision is a binary fraction of at most 53 digits (`Binary`).
Sums of parts never arise: such a number is a quotient that is rounded once (`Binary.ofQuotient`), or
the rounded product or quotient of two of them.
-/

set_option autoImplicit false

namespace EpisodeCut

/-- The number `mantissa * 2 ^ exponent`. -/
structure Binary where
  mantissa : Nat
  exponent : Int
  deriving DecidableEq, Repr

/-- The quotient of two numbers to the nearest integer, which is the even one if there are two. -/
def roundDiv (num den : Nat) : Nat :=
  let whole := num / den
  let rest := num % den
  if 2 * rest < den ∨ 2 * rest = den ∧ whole % 2 = 0 then whole else whole + 1

/-- The number `n * base ^ exponent`, if the exponent is not negative, and otherwise `n`. -/
def raise (base n : Nat) (exponent : Int) : Nat :=
  n * Nat.pow base exponent.toNat

namespace Binary

/-- The least number of 53 digits. -/
def leastMantissa : Nat := Nat.pow 2 52

/-- The least exponent. -/
def leastExponent : Int := -1074

/-- The greatest exponent. -/
def greatestExponent : Int := 971

/-- A numerator of the number. -/
def num (x : Binary) : Nat :=
  raise 2 x.mantissa x.exponent

/-- The denominator that belongs to `num`. -/
def den (x : Binary) : Nat :=
  raise 2 1 (-x.exponent)

/-- The exponent with which `num / den` has 53 digits before the point, or the least exponent. -/
def exponentOf (num den : Nat) : Int :=
  let guess : Int := (num.log2 : Int) - (den.log2 : Int) - 52
  let exact :=
    if raise 2 num (-guess) < leastMantissa * raise 2 den guess then guess - 1 else guess
  max exact leastExponent

/-- The number next to `num / den`. Rounding up to 54 digits moves the exponent. -/
def ofQuotient (num den : Nat) : Binary :=
  let exponent := exponentOf num den
  let mantissa := roundDiv (raise 2 num (-exponent)) (raise 2 den exponent)
  if mantissa = 2 * leastMantissa then ⟨leastMantissa, exponent + 1⟩ else ⟨mantissa, exponent⟩

/-- The number next to `n`. -/
def ofNat (n : Nat) : Binary :=
  ofQuotient n 1

/-- The number next to the product of two. -/
def mul (x y : Binary) : Binary :=
  ofQuotient (x.num * y.num) (x.den * y.den)

/-- The number next to the quotient of two. -/
def div (x y : Binary) : Binary :=
  ofQuotient (x.num * y.den) (x.den * y.num)

/-- Move the point of `x` by as many decimal digits as the powers of ten up to the 308th allow, and
then again; `none` if the number becomes too large. -/
def scale? (x : Binary) (digits : Int) : Option Binary :=
  if digits.natAbs ≤ 308 then
    let power := ofNat (Nat.pow 10 digits.natAbs)
    if 0 ≤ digits then
      if greatestExponent < (x.mul power).exponent then none else some (x.mul power)
    else
      some (x.div power)
  else if x.mantissa = 0 then some x
  else if 0 ≤ digits then none
  else scale? (x.div (ofNat (Nat.pow 10 308))) (digits + 308)
termination_by digits.natAbs

end Binary

end EpisodeCut
