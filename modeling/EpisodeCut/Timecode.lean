import EpisodeCut.Text.Blank
import EpisodeCut.Text.Numeral

/-!
# Timecodes

A timecode is a point or a span in whole milliseconds that fits in 64 bits. It is read from a clock
reading (`ClockTime.toTimecode?`) or from decimal seconds (`Timecode.ofText?`), and
written as decimal seconds (`secondsText`) or as a clock reading (`clockText`). Reading computes in
64 bits, and every product and every sum is checked; a clock reading is refused only if its total in
milliseconds does not fit (`ClockTime.toTimecode?_eq`).
-/

set_option autoImplicit false

namespace EpisodeCut

open Text

/-- A point or span of time in milliseconds. -/
structure Timecode where
  millis : UInt64
  deriving DecidableEq, Repr, Inhabited

namespace Timecode

/-- The start of every timeline. -/
def zero : Timecode := ⟨0⟩

/-- The timecode of `n` milliseconds, if it fits. -/
def ofMillis? (n : Nat) : Option Timecode :=
  if n < UInt64.size then some ⟨UInt64.ofNat n⟩ else none

/-- The number of milliseconds. -/
def toNat (t : Timecode) : Nat :=
  t.millis.toNat

/-- `n` whole seconds, modulo the 64-bit bound. -/
def ofSeconds (n : Nat) : Timecode :=
  ⟨UInt64.ofNat (n * 1000)⟩

/-- The span from `earlier` to `t`, if it is not negative. -/
def sub? (t earlier : Timecode) : Option Timecode :=
  if earlier.toNat ≤ t.toNat then ofMillis? (t.toNat - earlier.toNat) else none

/-- The sum, held at the greatest timecode. -/
def add (t other : Timecode) : Timecode :=
  (ofMillis? (t.toNat + other.toNat)).getD ⟨UInt64.ofNat (UInt64.size - 1)⟩

/-- The milliseconds that the digits of a fraction of a second denote: cut after three digits, or
filled up with zeros. -/
def fractionMillis (digits : List Char) : Nat :=
  Numeral.value ((digits ++ ['0', '0', '0']).take 3)

/-- The product, if it fits in 64 bits. -/
def mul? (a b : UInt64) : Option UInt64 :=
  if a.toNat * b.toNat < UInt64.size then some (a * b) else none

/-- The sum, if it fits in 64 bits. -/
def add? (a b : UInt64) : Option UInt64 :=
  if a.toNat + b.toNat < UInt64.size then some (a + b) else none

/-- An amount of units with a rest, in the unit of the rest. The product is checked, and then the
sum. -/
def mulAdd? (amount unit rest : UInt64) : Option UInt64 :=
  (mul? amount unit).bind fun product => add? product rest

/-- Read decimal seconds such as `12`, `12.` or `12.3456`. -/
def ofDecimalSeconds? (text : List Char) : Option Timecode :=
  let whole := text.takeWhile (· != '.')
  let fraction := (text.dropWhile (· != '.')).drop 1
  match (Numeral.read? whole).filter (· < UInt64.size) with
  | some seconds =>
    if fraction.all Char.isDigit then
      (mulAdd? (UInt64.ofNat seconds) 1000 (UInt64.ofNat (fractionMillis fraction))).map mk
    else none
  | none => none

/-- Read decimal seconds that a tool reports; white space around them does not count. -/
def ofText? (text : String) : Option Timecode :=
  ofDecimalSeconds? (trim text.toList)

/-- The time in seconds with as few decimal places as possible. -/
def secondsText (t : Timecode) : List Char :=
  let whole := Numeral.write (t.toNat / 1000)
  match dropRightWhile (· == '0') (Numeral.writePadded 3 (t.toNat % 1000)) with
  | [] => whole
  | fraction => whole ++ '.' :: fraction

/-- The time in seconds as text. -/
def seconds (t : Timecode) : String :=
  String.ofList t.secondsText

/-- The time as `hh:mm:ss.mmm`. -/
def clockText (t : Timecode) : List Char :=
  let total := t.toNat / 1000
  Numeral.writePadded 2 (total / 3600) ++ ':' :: Numeral.writePadded 2 (total / 60 % 60) ++
    ':' :: Numeral.writePadded 2 (total % 60) ++ '.' :: Numeral.writePadded 3 (t.toNat % 1000)

/-- The time as `hh:mm:ss.mmm` in a message. -/
def clock (t : Timecode) : String :=
  String.ofList t.clockText

theorem toNat_lt (t : Timecode) : t.toNat < UInt64.size :=
  UInt64.toNat_lt_size t.millis

theorem ofMillis?_toNat (t : Timecode) : ofMillis? t.toNat = some t := by
  rw [ofMillis?, if_pos t.toNat_lt]
  simp [toNat]

theorem toNat_of_ofMillis? {n : Nat} {t : Timecode} (h : ofMillis? n = some t) : t.toNat = n := by
  simp only [ofMillis?] at h
  split at h
  · next hn =>
    cases h
    exact Nat.mod_eq_of_lt hn
  · cases h

theorem ofMillis?_eq_none_iff {n : Nat} : ofMillis? n = none ↔ UInt64.size ≤ n := by
  rw [ofMillis?, ite_eq_right_iff]
  constructor
  · intro h
    apply Nat.le_of_not_lt
    intro hn
    cases h hn
  · intro hlarge hn
    omega

theorem eq_of_toNat {t other : Timecode} (h : t.toNat = other.toNat) : t = other := by
  have hsome := ofMillis?_toNat t
  rw [h, ofMillis?_toNat] at hsome
  exact (Option.some.inj hsome).symm

theorem toNat_add (t other : Timecode) :
    (t.add other).toNat = min (t.toNat + other.toNat) (UInt64.size - 1) := by
  have hsize : 0 < UInt64.size := by decide
  rw [add]
  cases hsum : ofMillis? (t.toNat + other.toNat) with
  | some sum =>
    have hfits := toNat_lt sum
    rw [toNat_of_ofMillis? hsum] at hfits
    rw [Option.getD_some, toNat_of_ofMillis? hsum]
    omega
  | none =>
    have hlarge := ofMillis?_eq_none_iff.1 hsum
    have hgreatest : (⟨UInt64.ofNat (UInt64.size - 1)⟩ : Timecode).toNat = UInt64.size - 1 := by decide
    rw [Option.getD_none, hgreatest]
    omega

theorem ofMillis?_eq_some_iff {n : Nat} {t : Timecode} : ofMillis? n = some t ↔ t.toNat = n := by
  constructor
  · exact toNat_of_ofMillis?
  · rintro rfl
    exact ofMillis?_toNat t

/-- A number that fits is the value of a word. -/
theorem exists_word {n : Nat} (fits : n < UInt64.size) : ∃ word : UInt64, word.toNat = n :=
  ⟨UInt64.ofNat n, UInt64.toNat_ofNat_of_lt' fits⟩

theorem mul?_eq_some_iff {a b product : UInt64} :
    mul? a b = some product ↔ product.toNat = a.toNat * b.toNat := by
  rw [mul?, Option.ite_none_right_eq_some, Option.some.injEq, ← UInt64.toNat_inj, UInt64.toNat_mul]
  constructor
  · rintro ⟨hfits, hproduct⟩
    rw [← hproduct, Nat.mod_eq_of_lt hfits]
  · intro hproduct
    have hfits : a.toNat * b.toNat < UInt64.size := hproduct ▸ product.toNat_lt_size
    exact ⟨hfits, (Nat.mod_eq_of_lt hfits).trans hproduct.symm⟩

theorem add?_eq_some_iff {a b sum : UInt64} :
    add? a b = some sum ↔ sum.toNat = a.toNat + b.toNat := by
  rw [add?, Option.ite_none_right_eq_some, Option.some.injEq, ← UInt64.toNat_inj, UInt64.toNat_add]
  constructor
  · rintro ⟨hfits, hsum⟩
    rw [← hsum, Nat.mod_eq_of_lt hfits]
  · intro hsum
    have hfits : a.toNat + b.toNat < UInt64.size := hsum ▸ sum.toNat_lt_size
    exact ⟨hfits, (Nat.mod_eq_of_lt hfits).trans hsum.symm⟩

/-- A total that fits is given exactly: the product on the way to it fits too. -/
theorem mulAdd?_eq_some_iff {amount unit rest total : UInt64} :
    mulAdd? amount unit rest = some total ↔
      total.toNat = amount.toNat * unit.toNat + rest.toNat := by
  simp only [mulAdd?, Option.bind_eq_some_iff, mul?_eq_some_iff, add?_eq_some_iff]
  constructor
  · rintro ⟨product, hproduct, htotal⟩
    rw [htotal, hproduct]
  · intro htotal
    have hfits : amount.toNat * unit.toNat < UInt64.size :=
      Nat.lt_of_le_of_lt (htotal ▸ Nat.le_add_right _ _) total.toNat_lt_size
    obtain ⟨product, hproduct⟩ := exists_word hfits
    exact ⟨product, hproduct, by rw [htotal, hproduct]⟩

end Timecode

/-- A clock reading as written in a configuration. Its fields are not bound to their usual ranges:
ninety seconds are ninety seconds. -/
structure ClockTime where
  hours : UInt64
  minutes : UInt64
  seconds : UInt64
  millis : UInt64
  deriving DecidableEq, Repr, Inhabited

namespace ClockTime

/-- The reading at the start of every timeline. -/
def zero : ClockTime := ⟨0, 0, 0, 0⟩

/-- The number of milliseconds from the start. -/
def totalMillis (clock : ClockTime) : Nat :=
  ((clock.hours.toNat * 60 + clock.minutes.toNat) * 60 + clock.seconds.toNat) * 1000 +
    clock.millis.toNat

/-- The timecode of a clock reading, if it fits: hours to minutes, minutes to seconds, and seconds to
milliseconds. -/
def toTimecode? (clock : ClockTime) : Option Timecode := do
  let minutes ← Timecode.mulAdd? clock.hours 60 clock.minutes
  let seconds ← Timecode.mulAdd? minutes 60 clock.seconds
  let millis ← Timecode.mulAdd? seconds 1000 clock.millis
  return ⟨millis⟩

/-- The total of a clock reading that fits is given exactly: no step on the way to it is refused, and
none wraps. -/
theorem toTimecode?_eq_some_iff {clock : ClockTime} {t : Timecode} :
    clock.toTimecode? = some t ↔ t.toNat = clock.totalMillis := by
  simp only [toTimecode?, bind, pure, Option.bind_eq_some_iff, Option.some.injEq]
  constructor
  · rintro ⟨minutes, hminutes, seconds, hseconds, millis, hmillis, rfl⟩
    have htoMinutes : minutes.toNat = clock.hours.toNat * 60 + clock.minutes.toNat :=
      Timecode.mulAdd?_eq_some_iff.1 hminutes
    have htoSeconds : seconds.toNat = minutes.toNat * 60 + clock.seconds.toNat :=
      Timecode.mulAdd?_eq_some_iff.1 hseconds
    have htoMillis : millis.toNat = seconds.toNat * 1000 + clock.millis.toNat :=
      Timecode.mulAdd?_eq_some_iff.1 hmillis
    rw [Timecode.toNat, totalMillis, htoMillis, htoSeconds, htoMinutes]
  · intro htotal
    have hfits := t.toNat_lt
    rw [htotal, totalMillis] at hfits
    -- The minutes and the seconds on the way are not more than the total.
    obtain ⟨minutes, htoMinutes⟩ := Timecode.exists_word
      (show clock.hours.toNat * 60 + clock.minutes.toNat < UInt64.size by omega)
    obtain ⟨seconds, htoSeconds⟩ := Timecode.exists_word
      (show minutes.toNat * 60 + clock.seconds.toNat < UInt64.size by omega)
    refine ⟨minutes, Timecode.mulAdd?_eq_some_iff.2 htoMinutes,
      seconds, Timecode.mulAdd?_eq_some_iff.2 htoSeconds,
      t.millis, Timecode.mulAdd?_eq_some_iff.2 ?_, rfl⟩
    have htoMillis : t.toNat = seconds.toNat * 1000 + clock.millis.toNat := by
      rw [htotal, totalMillis, htoSeconds, htoMinutes]
    exact htoMillis

theorem toTimecode?_eq (clock : ClockTime) :
    clock.toTimecode? = Timecode.ofMillis? clock.totalMillis := by
  ext t
  rw [toTimecode?_eq_some_iff, Timecode.ofMillis?_eq_some_iff]

/-- The reading field by field, as it stands in a message. -/
def text (clock : ClockTime) : String :=
  let hours := Numeral.text clock.hours.toNat
  let minutes := Numeral.padded 2 clock.minutes.toNat
  let seconds := Numeral.padded 2 clock.seconds.toNat
  let millis := Numeral.padded 3 clock.millis.toNat
  s!"{hours}:{minutes}:{seconds}.{millis}"

end ClockTime

end EpisodeCut
