import EpisodeCut.Text.Blank
import EpisodeCut.Text.Numeral
import Mathlib.Algebra.Group.Nat.Defs

/-!
# Laws of numerals

A numeral consists of digits (`isDigit_of_mem_write`), zeros in front of it do not count
(`value_writePadded`), and zeros behind it count as a power of ten (`value_append`). Hence numerals
of different numbers differ (`write_injective`), and so do numerals of one number unless they have
different lengths (`eq_of_value_eq`).
-/

set_option autoImplicit false

namespace EpisodeCut.Text.Numeral

theorem write_ne_nil (n : Nat) : write n ≠ [] :=
  Nat.toDigits_ne_nil

theorem writePadded_ne_nil (width n : Nat) : writePadded width n ≠ [] :=
  List.append_ne_nil_of_right_ne_nil _ (write_ne_nil n)

theorem isDigit_of_mem_write {n : Nat} {c : Char} (h : c ∈ write n) : c.isDigit = true :=
  Nat.isDigit_of_mem_toDigits (by decide) (by decide) h

theorem isDigit_of_mem_writePadded {width n : Nat} {c : Char} (h : c ∈ writePadded width n) :
    c.isDigit = true := by
  rcases List.mem_append.1 h with h | h
  · rw [List.eq_of_mem_replicate h]
    rfl
  · exact isDigit_of_mem_write h

/-- Text that begins with a numeral begins with a digit. -/
theorem exists_cons_of_digits {ds : List Char} (nonempty : ds ≠ [])
    (digits : ∀ c ∈ ds, c.isDigit = true) (s : List Char) :
    ∃ d more, d.isDigit = true ∧ ds ++ s = d :: more := by
  cases ds with
  | nil => exact absurd rfl nonempty
  | cons d more => exact ⟨d, more ++ s, digits d List.mem_cons_self, rfl⟩

/-- A character that is no digit does not occur in a numeral. -/
theorem not_mem_write {c : Char} (hc : c.isDigit = false) (n : Nat) : c ∉ write n := by
  intro h
  rw [isDigit_of_mem_write h] at hc
  cases hc

theorem value_append (ds es : List Char) :
    value (ds ++ es) = value ds * 10 ^ es.length + value es := by
  unfold value
  rw [Nat.ofDigitChars_append, Nat.ofDigitChars_eq_ofDigitChars_zero, Nat.mul_comm]

theorem value_replicate_zero (n : Nat) : value (List.replicate n '0') = 0 := by
  rw [value, Nat.ofDigitChars_replicate_zero, Nat.mul_zero]

theorem value_writePadded (width n : Nat) : value (writePadded width n) = n := by
  rw [writePadded, value_append, value_replicate_zero, value_write, Nat.zero_mul, Nat.zero_add]

/-- A numeral denotes less than the power of ten with as many zeros as it has digits. -/
theorem value_lt {ds : List Char} (digits : ∀ c ∈ ds, c.isDigit = true) :
    value ds < 10 ^ ds.length := by
  induction ds with
  | nil => decide
  | cons d rest ih =>
    have hrest := ih fun c hc => digits c (List.mem_cons_of_mem d hc)
    have hd : value [d] ≤ 9 := by
      obtain ⟨-, hnine⟩ := Char.isDigit_iff_toNat.1 (digits d List.mem_cons_self)
      have hcode : '0'.toNat + 9 = '9'.toNat := by decide
      rw [value, Nat.ofDigitChars_cons, Nat.ofDigitChars_nil]
      omega
    have hsplit : value (d :: rest) = value [d] * 10 ^ rest.length + value rest :=
      value_append [d] rest
    have hscaled : value [d] * 10 ^ rest.length ≤ 9 * 10 ^ rest.length :=
      Nat.mul_le_mul_right _ hd
    rw [hsplit, List.length_cons, Nat.pow_succ]
    omega

/-- A digit is determined by what it denotes. -/
theorem eq_of_value_singleton {d e : Char} (hd : d.isDigit = true) (he : e.isDigit = true)
    (h : value [d] = value [e]) : d = e := by
  obtain ⟨hzero, -⟩ := Char.isDigit_iff_toNat.1 hd
  obtain ⟨hzero', -⟩ := Char.isDigit_iff_toNat.1 he
  simp only [value, Nat.ofDigitChars_cons, Nat.ofDigitChars_nil] at h
  apply Char.toNat_inj.1
  omega

/-- Numerals of the same length that denote the same number are equal, digit by digit. -/
theorem eq_of_value_eq {ds es : List Char} (length : ds.length = es.length)
    (hds : ∀ c ∈ ds, c.isDigit = true) (hes : ∀ c ∈ es, c.isDigit = true)
    (h : value ds = value es) : ds = es := by
  induction ds generalizing es with
  | nil => exact (List.eq_nil_of_length_eq_zero length.symm).symm
  | cons d ds ih =>
    obtain _ | ⟨e, es⟩ := es
    · cases length
    · rw [List.forall_mem_cons] at hds hes
      have hlength : ds.length = es.length := Nat.succ.inj length
      have hsplit : value (d :: ds) = value [d] * 10 ^ ds.length + value ds := value_append [d] ds
      have hsplit' : value (e :: es) = value [e] * 10 ^ ds.length + value es := by
        rw [hlength]
        exact value_append [e] es
      -- The rest is less than the unit of the first digit, so division separates the two.
      have hpower : 0 < 10 ^ ds.length := Nat.pow_pos (by decide)
      have hlt := value_lt hds.2
      have hlt' := value_lt hes.2
      rw [← hlength] at hlt'
      rw [hsplit, hsplit'] at h
      have hfirst := congrArg (· / 10 ^ ds.length) h
      have hrest := congrArg (· % 10 ^ ds.length) h
      simp only [Nat.mul_comm _ (10 ^ ds.length), Nat.mul_add_div hpower,
        Nat.div_eq_of_lt hlt, Nat.div_eq_of_lt hlt', Nat.add_zero, Nat.mul_add_mod,
        Nat.mod_eq_of_lt hlt, Nat.mod_eq_of_lt hlt'] at hfirst hrest
      rw [eq_of_value_singleton hds.1 hes.1 hfirst, ih hlength hds.2 hes.2 hrest]

/-- No numeral of a number is shorter than the one that is written. -/
theorem length_write_le {ds : List Char} (nonempty : ds ≠ [])
    (digits : ∀ c ∈ ds, c.isDigit = true) : (write (value ds)).length ≤ ds.length :=
  (Nat.length_toDigits_le_iff (by decide) (List.length_pos_iff.2 nonempty)).2 (value_lt digits)

/-- The only one of that length is the written one. -/
theorem write_value_eq {ds : List Char} (digits : ∀ c ∈ ds, c.isDigit = true)
    (length : (write (value ds)).length = ds.length) : write (value ds) = ds :=
  eq_of_value_eq length (fun _ => isDigit_of_mem_write) digits (value_write _)

theorem write_injective {m n : Nat} (h : write m = write n) : m = n := by
  rw [← value_write m, h, value_write]

theorem length_writePadded {width n : Nat} (hw : 0 < width) (hn : n < 10 ^ width) :
    (writePadded width n).length = width := by
  have h : (write n).length ≤ width := (Nat.length_toDigits_le_iff (by decide) hw).2 hn
  rw [writePadded, List.length_append, List.length_replicate]
  omega

theorem read?_write (n : Nat) : read? (write n) = some n := by
  have hdigits : (write n).all Char.isDigit = true :=
    List.all_eq_true.2 fun _ hc => isDigit_of_mem_write hc
  rw [read?, hdigits, value_write]
  simp [write_ne_nil]

theorem toList_text (n : Nat) : (text n).toList = write n :=
  String.toList_ofList

end EpisodeCut.Text.Numeral
