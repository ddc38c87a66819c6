import EpisodeCut.Proofs.Text.Decimal
import EpisodeCut.Proofs.Timecode.Reading
import Mathlib.Algebra.Order.Floor.Semifield
import Mathlib.Data.Rat.Floor

/-!
# Exact times

Times compared with the rational numbers of seconds that their texts denote (`Decimal.Denotes`), of
which whole milliseconds are kept (`floor_millis`). Decimal seconds are read to exactly these
milliseconds (`Timecode.ofText?_eq_some_iff`).
-/

set_option autoImplicit false

namespace EpisodeCut

open Text

/-- The whole milliseconds in `whole` seconds and a decimal fraction of one. -/
theorem floor_millis (whole places count : Nat) :
    ⌊1000 * ((whole : ℚ) + places / 10 ^ count)⌋₊ = whole * 1000 + places * 1000 / 10 ^ count := by
  have hsum : 1000 * ((whole : ℚ) + places / 10 ^ count) =
      ((places * 1000 : Nat) : ℚ) / ((10 ^ count : Nat) : ℚ) + ((whole * 1000 : Nat) : ℚ) := by
    push_cast
    ring
  rw [hsum, Nat.floor_add_natCast (by positivity), Nat.floor_div_eq_div, Nat.add_comm]

/-- `text` denotes the number: digits, which may be followed by a point and more digits or none. -/
inductive Text.Decimal.Denotes : List Char → ℚ → Prop where
  | whole {digits : List Char} (nonempty : digits ≠ []) (inside : ∀ c ∈ digits, c.isDigit = true) :
      Denotes digits (Numeral.value digits)
  | point {digits places : List Char} (nonempty : digits ≠ [])
      (inside : ∀ c ∈ digits, c.isDigit = true) (behind : ∀ c ∈ places, c.isDigit = true) :
      Denotes (digits ++ '.' :: places)
        (Numeral.value digits + Numeral.value places / 10 ^ places.length)

namespace Timecode

theorem value?_eq_some_iff {text : List Char} {v : ℚ} :
    Decimal.value? text = some v ↔
      wholePart text ≠ [] ∧ (∀ c ∈ wholePart text, c.isDigit = true) ∧
        (∀ c ∈ fractionPart text, c.isDigit = true) ∧
        v = Numeral.value (wholePart text) +
          Numeral.value (fractionPart text) / 10 ^ (fractionPart text).length := by
  have hvalue : Decimal.value? text =
      if wholePart text ≠ [] ∧ (wholePart text).all Char.isDigit ∧
          (fractionPart text).all Char.isDigit then
        some (Numeral.value (wholePart text) +
          Numeral.value (fractionPart text) / 10 ^ (fractionPart text).length : ℚ)
      else none := rfl
  rw [hvalue, Option.ite_none_right_eq_some, Option.some.injEq, List.all_eq_true, List.all_eq_true,
    and_assoc, and_assoc, eq_comm]

/-- A point ends the whole part, and what stands behind it is the fraction. -/
theorem eq_whole_or_point (text : List Char) :
    (text = wholePart text ∧ fractionPart text = []) ∨
      text = wholePart text ++ '.' :: fractionPart text := by
  have hsplit : wholePart text ++ text.dropWhile (· != '.') = text := List.takeWhile_append_dropWhile
  cases hpoint : text.dropWhile (· != '.') with
  | nil =>
    rw [hpoint, List.append_nil] at hsplit
    exact .inl ⟨hsplit.symm, by rw [fractionPart, hpoint, List.drop_nil]⟩
  | cons c fraction =>
    have hc : c = '.' := by
      have hhead := List.head?_dropWhile_not (· != '.') text
      rw [hpoint] at hhead
      simpa using hhead
    rw [hpoint, hc] at hsplit
    exact .inr (by rw [fractionPart, hpoint, List.drop_succ_cons, List.drop_zero, hsplit])

/-- The computed number is the one that the text denotes. -/
theorem denotes_iff {text : List Char} {v : ℚ} :
    Decimal.Denotes text v ↔ Decimal.value? text = some v := by
  constructor
  · intro h
    cases h with
    | whole nonempty digits => exact Decimal.value?_whole nonempty digits
    | point nonempty digits places => exact Decimal.value?_append_point nonempty digits places
  · intro h
    obtain ⟨nonempty, digits, places, rfl⟩ := value?_eq_some_iff.1 h
    rcases eq_whole_or_point text with ⟨htext, hfraction⟩ | htext
    · have hwhole := Decimal.Denotes.whole nonempty digits
      rw [← htext] at hwhole
      simpa [hfraction, Numeral.value, ← htext] using hwhole
    · have hpoint := Decimal.Denotes.point nonempty digits places
      rwa [← htext] at hpoint

/-- A text is read as decimal seconds if it denotes a number of them, white space around it apart,
and the whole milliseconds in that number fit; what is read are these milliseconds. -/
theorem ofText?_eq_some_iff {text : String} {t : Timecode} :
    ofText? text = some t ↔
      ∃ v, Decimal.Denotes (trim text.toList) v ∧ t.toNat = ⌊1000 * v⌋₊ := by
  rw [ofText?, ofDecimalSeconds?_eq_some_iff]
  generalize trim text.toList = ds
  constructor
  · rintro ⟨nonempty, digits, places, htotal⟩
    refine ⟨_, denotes_iff.2 (value?_eq_some_iff.2 ⟨nonempty, digits, places, rfl⟩), ?_⟩
    rw [floor_millis, htotal, fractionMillis_eq places]
  · rintro ⟨v, hvalue, htotal⟩
    obtain ⟨nonempty, digits, places, rfl⟩ := value?_eq_some_iff.1 (denotes_iff.1 hvalue)
    rw [floor_millis, ← fractionMillis_eq places] at htotal
    exact ⟨nonempty, digits, places, htotal⟩

end Timecode

end EpisodeCut
