import EpisodeCut.Proofs.Text.Numeral
import EpisodeCut.Proofs.Text.Span
import EpisodeCut.Timecode
import Mathlib.Data.Rat.Defs
import Mathlib.Tactic.FieldSimp
import Mathlib.Tactic.Ring

/-!
# Decimal numbers

The rational number that a decimal numeral denotes (`Decimal.value?`), with no rounding and no limit
on its length. The text of a timecode denotes exactly its time in seconds (`value?_secondsText`), so
it determines the timecode (`seconds_injective`).
-/

set_option autoImplicit false

namespace EpisodeCut

open Text

namespace Text.Decimal

/-- The number that a numeral denotes: digits, which may be followed by a point and more digits. -/
def value? (text : List Char) : Option ℚ :=
  let whole := text.takeWhile (· != '.')
  let fraction := (text.dropWhile (· != '.')).drop 1
  if whole ≠ [] ∧ whole.all Char.isDigit ∧ fraction.all Char.isDigit then
    some (Numeral.value whole + Numeral.value fraction / 10 ^ fraction.length)
  else
    none

theorem value?_whole {whole : List Char} (nonempty : whole ≠ [])
    (digits : ∀ c ∈ whole, c.isDigit = true) :
    value? whole = some (Numeral.value whole : ℚ) := by
  have point : '.' ∉ whole := fun h => Bool.false_ne_true (digits '.' h)
  simp only [value?, takeWhile_ne_eq_self point, dropWhile_ne_eq_nil point]
  rw [if_pos ⟨nonempty, List.all_eq_true.2 digits, rfl⟩]
  simp [Numeral.value]

theorem value?_append_point {whole fraction : List Char} (nonempty : whole ≠ [])
    (digits : ∀ c ∈ whole, c.isDigit = true) (places : ∀ c ∈ fraction, c.isDigit = true) :
    value? (whole ++ '.' :: fraction) =
      some (Numeral.value whole + Numeral.value fraction / 10 ^ fraction.length : ℚ) := by
  have point : '.' ∉ whole := fun h => Bool.false_ne_true (digits '.' h)
  simp only [value?, takeWhile_ne_append_cons point, dropWhile_ne_append_cons point,
    List.drop_succ_cons, List.drop_zero]
  rw [if_pos ⟨nonempty, List.all_eq_true.2 digits, List.all_eq_true.2 places⟩]

end Text.Decimal

namespace Timecode

/-- The time in seconds. -/
def inSeconds (t : Timecode) : ℚ :=
  t.toNat / 1000

/-- Three places without the zeros at their end denote the same fraction. -/
theorem value_dropRightWhile_div {ds : List Char} (three : ds.length = 3) :
    (Numeral.value (dropRightWhile (· == '0') ds) : ℚ) /
      10 ^ (dropRightWhile (· == '0') ds).length = Numeral.value ds / 1000 := by
  obtain ⟨zeros, hds, hzeros⟩ := exists_eq_dropRightWhile_append (· == '0') ds
  generalize dropRightWhile (· == '0') ds = kept at hds ⊢
  -- Only zeros are dropped, and they count as the same power of ten above and below.
  have hz : zeros = List.replicate zeros.length '0' :=
    List.eq_replicate_of_mem fun c hc => beq_iff_eq.1 (hzeros c hc)
  have hlength : kept.length + zeros.length = 3 := by
    rw [← three, hds, List.length_append]
  have hvalue : Numeral.value ds = Numeral.value kept * 10 ^ zeros.length := by
    rw [hds, Numeral.value_append, hz, Numeral.value_replicate_zero, List.length_replicate,
      Nat.add_zero]
  have hpower : (1000 : ℚ) = 10 ^ kept.length * 10 ^ zeros.length := by
    rw [← pow_add, hlength]
    norm_num
  rw [hvalue, hpower]
  push_cast
  field_simp

/-- The text of a timecode consists of digits and a point. -/
theorem isDigit_or_point_of_mem_secondsText {t : Timecode} {c : Char} (h : c ∈ t.secondsText) :
    c.isDigit = true ∨ c = '.' := by
  obtain ⟨zeros, hpadded, -⟩ := exists_eq_dropRightWhile_append (· == '0')
    (Numeral.writePadded 3 (t.toNat % 1000))
  simp only [secondsText] at h
  split at h
  · exact Or.inl (Numeral.isDigit_of_mem_write h)
  · rcases List.mem_append.1 h with h | h
    · exact Or.inl (Numeral.isDigit_of_mem_write h)
    · rcases List.mem_cons.1 h with h | h
      · exact Or.inr h
      · have hplace : c ∈ Numeral.writePadded 3 (t.toNat % 1000) := by
          rw [hpadded]
          exact List.mem_append_left _ h
        exact Or.inl (Numeral.isDigit_of_mem_writePadded hplace)

/-- The text of a timecode denotes the time in seconds exactly. -/
theorem value?_secondsText (t : Timecode) : Decimal.value? t.secondsText = some t.inSeconds := by
  have hplaces : t.toNat % 1000 < 10 ^ 3 := Nat.mod_lt _ (by decide)
  have hfraction := value_dropRightWhile_div (Numeral.length_writePadded (by decide) hplaces)
  obtain ⟨zeros, hpadded, -⟩ := exists_eq_dropRightWhile_append (· == '0')
    (Numeral.writePadded 3 (t.toNat % 1000))
  have hsum : ((t.toNat / 1000 : Nat) : ℚ) + ((t.toNat % 1000 : Nat) : ℚ) / 1000 = t.inSeconds := by
    have h := congrArg (Nat.cast : Nat → ℚ) (Nat.div_add_mod t.toNat 1000)
    rw [inSeconds, ← h]
    push_cast
    ring
  rw [Numeral.value_writePadded] at hfraction
  simp only [secondsText]
  split
  · next hkept =>
    rw [hkept] at hfraction
    rw [Decimal.value?_whole (Numeral.write_ne_nil _) fun _ => Numeral.isDigit_of_mem_write,
      Numeral.value_write, ← hsum, ← hfraction]
    simp [Numeral.value]
  · next hkept =>
    have hdigits : ∀ c ∈ dropRightWhile (· == '0') (Numeral.writePadded 3 (t.toNat % 1000)),
        c.isDigit = true := by
      intro c hc
      have hplace : c ∈ Numeral.writePadded 3 (t.toNat % 1000) := by
        rw [hpadded]
        exact List.mem_append_left _ hc
      exact Numeral.isDigit_of_mem_writePadded hplace
    rw [Decimal.value?_append_point (Numeral.write_ne_nil _)
      (fun _ => Numeral.isDigit_of_mem_write) hdigits, Numeral.value_write, hfraction, hsum]

/-- The text of a timecode determines it. -/
theorem seconds_injective {t other : Timecode} (h : t.seconds = other.seconds) : t = other := by
  have htext : t.secondsText = other.secondsText := String.ofList_injective h
  have hvalue := value?_secondsText t
  rw [htext, value?_secondsText other, Option.some.injEq] at hvalue
  apply eq_of_toNat
  unfold inSeconds at hvalue
  field_simp at hvalue
  exact_mod_cast hvalue.symm

end Timecode

end EpisodeCut
