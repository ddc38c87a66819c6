import EpisodeCut.Proofs.Text.Numeral
import EpisodeCut.Timecode

/-!
# Reading decimal seconds

The digits of a fraction denote a part of a second, which is cut to milliseconds
(`Timecode.fractionMillis_eq`). Decimal seconds are read to the sum of whole seconds and these
milliseconds, if it fits (`Timecode.ofDecimalSeconds?_eq_some_iff`): a number of seconds that is too
large on its own is too large in milliseconds.
-/

set_option autoImplicit false

namespace EpisodeCut

open Text

theorem Text.Numeral.read?_eq_some_iff {ds : List Char} {n : Nat} :
    Numeral.read? ds = some n ↔
      ds ≠ [] ∧ (∀ c ∈ ds, c.isDigit = true) ∧ Numeral.value ds = n := by
  rw [Numeral.read?, Option.ite_none_right_eq_some, Option.some.injEq, Bool.and_eq_true,
    bne_iff_ne, List.all_eq_true, and_assoc]

namespace Timecode

/-- The digits of a fraction are cut to milliseconds. -/
theorem fractionMillis_eq {digits : List Char} (inside : ∀ c ∈ digits, c.isDigit = true) :
    fractionMillis digits = Numeral.value digits * 1000 / 10 ^ digits.length := by
  rw [fractionMillis]
  rcases Nat.le_total digits.length 3 with h | h
  · -- Fewer than three digits are filled up with zeros.
    obtain ⟨k, hk⟩ := Nat.exists_eq_add_of_le h
    have htake : (digits ++ ['0', '0', '0']).take 3 = digits ++ List.replicate k '0' := by
      have hzeros : ['0', '0', '0'] = List.replicate 3 '0' := rfl
      have hcount : min (3 - digits.length) 3 = k := by omega
      rw [List.take_append, List.take_of_length_le h, hzeros, List.take_replicate, hcount]
    have hthousand : (1000 : Nat) = 10 ^ k * 10 ^ digits.length := by
      rw [← Nat.pow_add, Nat.add_comm, ← hk]
    rw [htake, Numeral.value_append, Numeral.value_replicate_zero, List.length_replicate,
      Nat.add_zero, hthousand, ← Nat.mul_assoc, Nat.mul_div_cancel _ (Nat.pow_pos (by decide))]
  · -- More than three digits are cut: the ones cut off denote less than a millisecond.
    have hsplit := Numeral.value_append (digits.take 3) (digits.drop 3)
    rw [List.take_append_drop] at hsplit
    have hcut : Numeral.value (digits.drop 3) < 10 ^ (digits.drop 3).length :=
      Numeral.value_lt fun c hc => inside c (List.mem_of_mem_drop hc)
    have hlength : digits.length = (digits.drop 3).length + 3 := by
      rw [List.length_drop]
      omega
    have hthousand : (1000 : Nat) = 10 ^ 3 := rfl
    rw [List.take_append_of_le_length h, hsplit, hlength, Nat.pow_add, hthousand,
      Nat.mul_div_mul_right _ _ (by decide), Nat.mul_comm,
      Nat.mul_add_div (Nat.pow_pos (by decide)), Nat.div_eq_of_lt hcut, Nat.add_zero]

/-- A fraction is less than a second. -/
theorem fractionMillis_lt {digits : List Char} (inside : ∀ c ∈ digits, c.isDigit = true) :
    fractionMillis digits < 1000 := by
  rw [fractionMillis_eq inside]
  exact Nat.div_lt_of_lt_mul (Nat.mul_lt_mul_of_pos_right (Numeral.value_lt inside) (by decide))

/-- The part of decimal seconds before the point. -/
def wholePart (text : List Char) : List Char :=
  text.takeWhile (· != '.')

/-- The part of decimal seconds behind the point. -/
def fractionPart (text : List Char) : List Char :=
  (text.dropWhile (· != '.')).drop 1

/-- Decimal seconds that fit are read exactly. -/
theorem ofDecimalSeconds?_eq_some_iff {text : List Char} {t : Timecode} :
    ofDecimalSeconds? text = some t ↔
      wholePart text ≠ [] ∧ (∀ c ∈ wholePart text, c.isDigit = true) ∧
        (∀ c ∈ fractionPart text, c.isDigit = true) ∧
        t.toNat = Numeral.value (wholePart text) * 1000 + fractionMillis (fractionPart text) := by
  simp only [ofDecimalSeconds?, wholePart, fractionPart]
  generalize text.takeWhile (· != '.') = whole
  generalize (text.dropWhile (· != '.')).drop 1 = fraction
  have hthousand : (1000 : UInt64).toNat = 1000 := rfl
  constructor
  · intro h
    split at h
    · next seconds hseconds =>
      obtain ⟨hwhole, hfits⟩ := Option.filter_eq_some_iff.1 hseconds
      obtain ⟨nonempty, digits, rfl⟩ := Numeral.read?_eq_some_iff.1 hwhole
      split at h
      · next places =>
        rw [List.all_eq_true] at places
        obtain ⟨total, htotal, rfl⟩ := Option.map_eq_some_iff.1 h
        have hmillis := Nat.lt_trans (fractionMillis_lt places) (show 1000 < UInt64.size by decide)
        rw [mulAdd?_eq_some_iff, UInt64.toNat_ofNat_of_lt' (of_decide_eq_true hfits),
          UInt64.toNat_ofNat_of_lt' hmillis, hthousand] at htotal
        exact ⟨nonempty, digits, places, htotal⟩
      · cases h
    · cases h
  · rintro ⟨nonempty, digits, places, htotal⟩
    -- Whole seconds beyond 64 bits would be beyond them in milliseconds too.
    have hbound := t.toNat_lt
    have hfits : Numeral.value whole < UInt64.size := by omega
    have hmillis : fractionMillis fraction < UInt64.size := by omega
    have hsum : mulAdd? (UInt64.ofNat (Numeral.value whole)) 1000
        (UInt64.ofNat (fractionMillis fraction)) = some t.millis := by
      rw [mulAdd?_eq_some_iff, UInt64.toNat_ofNat_of_lt' hfits, UInt64.toNat_ofNat_of_lt' hmillis,
        hthousand]
      exact htotal
    rw [Numeral.read?_eq_some_iff.2 ⟨nonempty, digits, rfl⟩, Option.filter_some,
      if_pos (decide_eq_true hfits)]
    simp only
    rw [if_pos (List.all_eq_true.2 places), hsum]
    rfl

end Timecode

end EpisodeCut
