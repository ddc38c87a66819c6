import EpisodeCut.Proofs.Json.Grammar
import EpisodeCut.Proofs.Text.Bytes
import EpisodeCut.Proofs.Text.Numeral
import EpisodeCut.Proofs.Text.Span

/-!
# Tokens of JSON texts

White space is passed over wherever a token is expected, so a reader sees the first byte behind it
(`next?_blank`). What may follow a value (`Ends`) cannot continue a number; a number is therefore
read or passed up to its end (`readLiteral_unsigned`), and the digits of a natural number of at most
64 binary digits are read exactly (`readNumber_write`).
-/

set_option autoImplicit false

namespace EpisodeCut.Json

open Text

variable {w s rest : Bytes} {b : UInt8} {c : Char} {atEnd : Fault}

/-! ## White space -/

theorem skipSpace_blank (blank : IsBlank w) (s : Bytes) : skipSpace (w ++ s) = skipSpace s :=
  List.dropWhile_append_of_pos blank

theorem next?_blank (blank : IsBlank w) (s : Bytes) : next? (w ++ s) = next? s := by
  rw [next?, next?, skipSpace_blank blank]

theorem afterNext_blank (blank : IsBlank w) (s : Bytes) : afterNext (w ++ s) = afterNext s := by
  rw [afterNext, afterNext, skipSpace_blank blank]

theorem skipSpace_cons (solid : isSpace b = false) (s : Bytes) : skipSpace (b :: s) = b :: s :=
  List.dropWhile_cons_of_neg (by simp [solid])

theorem next?_cons (solid : isSpace b = false) (s : Bytes) :
    next? (b :: s) = some (Char.ofUInt8 b) := by
  rw [next?, skipSpace_cons solid]
  rfl

theorem afterNext_cons (solid : isSpace b = false) (s : Bytes) : afterNext (b :: s) = s := by
  rw [afterNext, skipSpace_cons solid]
  rfl

/-- White space is passed over up to the next token. -/
theorem next?_solid (blank : IsBlank w) (solid : isSpace b = false) (s : Bytes) :
    next? (w ++ b :: s) = some (Char.ofUInt8 b) :=
  (next?_blank blank _).trans (next?_cons solid s)

theorem isBlank_nil : IsBlank [] :=
  List.forall_mem_nil _

/-- White space is one of four characters. -/
theorem eq_of_isSpace (h : isSpace b = true) : b = 0x20 ∨ b = 0x09 ∨ b = 0x0A ∨ b = 0x0D := by
  simpa [isSpace, or_assoc] using h

/-! ## Characters -/

theorem ofUInt8_inj {b d : UInt8} : Char.ofUInt8 b = Char.ofUInt8 d ↔ b = d := by
  refine ⟨fun h => ?_, congrArg Char.ofUInt8⟩
  exact UInt8.toUInt32_inj.1 (congrArg Char.val h)

theorem head?_eq_iff : head? s = some (Char.ofUInt8 b) ↔ s.head? = some b := by
  cases s with
  | nil => simp only [head?, List.head?_nil, Option.map_none, reduceCtorEq]
  | cons d s => simp only [head?, List.head?_cons, Option.map_some, Option.some.injEq, ofUInt8_inj]

/-! ## Ends of values -/

/-- What may come behind a value: nothing, white space, a comma or a bracket that closes. -/
def Ends (rest : Bytes) : Prop :=
  ∀ b ∈ rest.head?, isSpace b = true ∨ b = 0x2C ∨ b = 0x5D ∨ b = 0x7D

theorem ends_nil : Ends [] := by
  intro b h
  cases h

theorem Ends.blank (ends : Ends rest) (blank : IsBlank w) : Ends (w ++ rest) := by
  cases w with
  | nil => exact ends
  | cons b w =>
    rintro d ⟨⟩
    exact .inl (blank b List.mem_cons_self)

theorem ends_comma (s : Bytes) : Ends (0x2C :: s) := by
  rintro b ⟨⟩
  exact .inr (.inl rfl)

theorem ends_close (bracket : Bracket) (s : Bytes) : Ends (bracket.closeByte :: s) := by
  rintro b ⟨⟩
  cases bracket with
  | array => exact .inr (.inr (.inl rfl))
  | object => exact .inr (.inr (.inr rfl))

/-- What ends a value has none of these bytes at its head. -/
theorem Ends.ne (ends : Ends rest) (h : b ∈ rest.head?) :
    isDigit b = false ∧ b ≠ 0x2E ∧ b ≠ 0x65 ∧ b ≠ 0x45 := by
  rcases ends b h with hspace | rfl | rfl | rfl
  · rcases eq_of_isSpace hspace with rfl | rfl | rfl | rfl <;> decide
  all_goals decide

/-! ## Numbers -/

theorem readDigits_digits (digits : DigitsText s) (stop : ∀ b ∈ rest.head?, isDigit b = false) :
    readDigits atEnd (s ++ rest) = .ok (s, rest) := by
  have htake : (s ++ rest).takeWhile isDigit = s := takeWhile_append_eq digits.digits stop
  have hdrop : (s ++ rest).dropWhile isDigit = rest := dropWhile_append_eq digits.digits stop
  have hhead : (s ++ rest).head?.any isDigit = true := by
    cases s with
    | nil => exact absurd rfl digits.nonempty
    | cons b s => simpa using digits.digits b List.mem_cons_self
  rw [readDigits, if_pos hhead, htake, hdrop]

theorem readWhole_whole (whole : WholeText s) (stop : ∀ b ∈ rest.head?, isDigit b = false) :
    readWhole atEnd (s ++ rest) = .ok (s, rest) := by
  by_cases hzero : s.head? = some 0x30
  · have hs := whole.alone hzero
    subst hs
    have hstop : ¬rest.head?.any isDigit = true := by
      cases rest with
      | nil => exact Bool.noConfusion
      | cons b rest => simp [stop b rfl]
    have hhead : head? ([0x30] ++ rest) = some '0' := rfl
    rw [readWhole, if_pos hhead, List.singleton_append, List.drop_succ_cons, List.drop_zero,
      if_neg hstop]
    rfl
  · have hhead : ¬head? (s ++ rest) = some '0' := by
      intro h
      have hdigit : (s ++ rest).head? = some 0x30 := head?_eq_iff.1 h
      rw [List.head?_append_of_ne_nil s whole.nonempty] at hdigit
      exact hzero hdigit
    rw [readWhole, if_neg hhead]
    exact readDigits_digits whole.toDigitsText stop

theorem readFraction_missing (stop : ∀ b ∈ rest.head?, b ≠ 0x2E) :
    readFraction atEnd rest = .ok ([], rest) := by
  have hhead : ¬head? rest = some '.' := fun h => stop 0x2E (head?_eq_iff.1 h) rfl
  rw [readFraction, if_neg hhead]

theorem readPower_missing (stop : ∀ b ∈ rest.head?, b ≠ 0x65 ∧ b ≠ 0x45) :
    readPower atEnd rest = .ok (none, rest) := by
  have hhead : ¬(head? rest = some 'e' ∨ head? rest = some 'E') := by
    rintro (h | h)
    · exact (stop 0x65 (head?_eq_iff.1 h)).1 rfl
    · exact (stop 0x45 (head?_eq_iff.1 h)).2 rfl
  rw [readPower, if_neg hhead]

theorem readFraction_fraction (fraction : FractionText s)
    (stop : ∀ b ∈ rest.head?, isDigit b = false ∧ b ≠ 0x2E) :
    ∃ digits, readFraction atEnd (s ++ rest) = .ok (digits, rest) := by
  cases fraction with
  | missing => exact ⟨[], readFraction_missing fun b hb => (stop b hb).2⟩
  | @point ds digits =>
    refine ⟨ds, ?_⟩
    have hhead : head? (0x2E :: ds ++ rest) = some '.' := rfl
    rw [readFraction, if_pos hhead]
    exact readDigits_digits digits fun b hb => (stop b hb).1

/-- What begins with a digit begins with no other character. -/
theorem DigitsText.head?_ne (digits : DigitsText s) (hb : isDigit b = false) (rest : Bytes) :
    head? (s ++ rest) ≠ some (Char.ofUInt8 b) := by
  intro h
  obtain ⟨d, more, rfl⟩ := List.exists_cons_of_ne_nil digits.nonempty
  have hd : d = b := Option.some.inj (head?_eq_iff.1 h)
  rw [← hd, digits.digits d List.mem_cons_self] at hb
  cases hb

theorem readPower_power (power : PowerText s) (ends : Ends rest) :
    ∃ value, readPower atEnd (s ++ rest) = .ok (value, rest) := by
  cases power with
  | missing =>
    exact ⟨none, readPower_missing fun b hb => ⟨(ends.ne hb).2.2.1, (ends.ne hb).2.2.2⟩⟩
  | @power e sign ds he hsign digits =>
    have hdigits : readDigits atEnd (ds ++ rest) = .ok (ds, rest) :=
      readDigits_digits digits fun b hb => (ends.ne hb).1
    have hhead : head? (e :: (sign ++ ds) ++ rest) = some 'e' ∨
        head? (e :: (sign ++ ds) ++ rest) = some 'E' := by
      rcases he with rfl | rfl
      · exact .inl rfl
      · exact .inr rfl
    have hplain : ¬(head? (ds ++ rest) = some '+' ∨ head? (ds ++ rest) = some '-') := by
      rintro (h | h)
      · exact digits.head?_ne (b := 0x2B) rfl rest h
      · exact digits.head?_ne (b := 0x2D) rfl rest h
    rw [readPower, if_pos hhead]
    rcases hsign with rfl | rfl | rfl
    · refine ⟨some (decide (head? (ds ++ rest) = some '-'), ds), ?_⟩
      simp only [List.nil_append, List.cons_append, List.drop_succ_cons, List.drop_zero,
        if_neg hplain, hdigits, Except.map]
    · have hsign : head? ((e :: ([0x2B] ++ ds) ++ rest).drop 1) = some '+' := rfl
      have hdrop : (e :: ([0x2B] ++ ds) ++ rest).drop 2 = ds ++ rest := rfl
      refine ⟨some (false, ds), ?_⟩
      simp only [hsign, true_or, if_true, hdrop, hdigits, Except.map]
      rfl
    · have hsign : head? ((e :: ([0x2D] ++ ds) ++ rest).drop 1) = some '-' := rfl
      have hdrop : (e :: ([0x2D] ++ ds) ++ rest).drop 2 = ds ++ rest := rfl
      refine ⟨some (true, ds), ?_⟩
      simp only [hsign, or_true, if_true, hdrop, hdigits, Except.map]
      rfl

/-- What follows the digits before the point is none of them, and so on for each part. -/
theorem PowerText.stop (power : PowerText s) (ends : Ends rest) :
    ∀ b ∈ (s ++ rest).head?, isDigit b = false ∧ b ≠ 0x2E := by
  cases power with
  | missing => exact fun b hb => ⟨(ends.ne hb).1, (ends.ne hb).2.1⟩
  | power he hsign digits =>
    rintro b ⟨⟩
    rcases he with rfl | rfl <;> exact ⟨rfl, by decide⟩

theorem FractionText.stop (fraction : FractionText s)
    (h : ∀ b ∈ rest.head?, isDigit b = false) : ∀ b ∈ (s ++ rest).head?, isDigit b = false := by
  cases fraction with
  | missing => exact h
  | point digits =>
    rintro b ⟨⟩
    rfl

/-- A number is read up to its end. -/
theorem readLiteral_unsigned (number : UnsignedText s) (ends : Ends rest) :
    ∃ literal, readLiteral atEnd (s ++ rest) = .ok (literal, rest) := by
  cases number with
  | @parts whole fraction power hwhole hfraction hpower =>
    have hstop := hpower.stop ends
    have hread : readWhole atEnd (whole ++ (fraction ++ (power ++ rest))) =
        .ok (whole, fraction ++ (power ++ rest)) :=
      readWhole_whole hwhole (hfraction.stop fun b hb => (hstop b hb).1)
    obtain ⟨digits, hdigits⟩ : ∃ digits, readFraction atEnd (fraction ++ (power ++ rest)) =
        .ok (digits, power ++ rest) := readFraction_fraction hfraction hstop
    obtain ⟨value, hvalue⟩ : ∃ value, readPower atEnd (power ++ rest) = .ok (value, rest) :=
      readPower_power hpower ends
    refine ⟨⟨whole, digits, value⟩, ?_⟩
    rw [List.append_assoc, List.append_assoc, readLiteral, hread]
    simp only [bind, Except.bind, hdigits, hvalue]

theorem readLiteral_whole (whole : WholeText s) (ends : Ends rest) :
    readLiteral atEnd (s ++ rest) = .ok (⟨s, [], none⟩, rest) := by
  have hread : readWhole atEnd (s ++ rest) = .ok (s, rest) :=
    readWhole_whole whole fun b hb => (ends.ne hb).1
  have hfraction : readFraction atEnd rest = .ok ([], rest) :=
    readFraction_missing fun b hb => (ends.ne hb).2.1
  have hpower : readPower atEnd rest = .ok (none, rest) :=
    readPower_missing fun b hb => (ends.ne hb).2.2
  rw [readLiteral, hread]
  simp only [bind, Except.bind, hfraction, hpower]

theorem skipNumber_unsigned (number : UnsignedText s) (ends : Ends rest) :
    skipNumber (s ++ rest) = .ok ((), rest) := by
  obtain ⟨literal, hliteral⟩ :
      ∃ literal, readLiteral .malformedNumber (s ++ rest) = .ok (literal, rest) :=
    readLiteral_unsigned number ends
  rw [skipNumber, hliteral]
  rfl

/-! ## Natural numbers -/

theorem toNat_lt_of_isDigit (h : c.isDigit = true) : c.toNat < 0x80 := by
  have hdigit : 48 ≤ c.toNat ∧ c.toNat ≤ 57 :=
    (Bool.and_eq_true_iff.1 h).imp of_decide_eq_true of_decide_eq_true
  omega

theorem isDigit_toUInt8 (h : c.isDigit = true) : isDigit c.toUInt8 = true := by
  rw [isDigit, ofUInt8_toUInt8 (toNat_lt_of_isDigit h), h]

/-- The numeral of a number has no zero in front unless it is the zero. -/
theorem wholeText_write (n : Nat) : WholeText ((Numeral.write n).map Char.toUInt8) := by
  have hdigits : ∀ c ∈ Numeral.write n, c.isDigit = true := fun _ => Numeral.isDigit_of_mem_write
  refine ⟨⟨?_, ?_⟩, ?_⟩
  · simpa using Numeral.write_ne_nil n
  · intro b hb
    obtain ⟨c, hc, rfl⟩ := List.mem_map.1 hb
    exact isDigit_toUInt8 (hdigits c hc)
  · intro hzero
    obtain ⟨c, cs, hwrite⟩ := List.exists_cons_of_ne_nil (Numeral.write_ne_nil n)
    rw [hwrite] at hdigits hzero ⊢
    have hc : c = '0' := by
      have hchar : Char.ofUInt8 c.toUInt8 = Char.ofUInt8 0x30 :=
        congrArg Char.ofUInt8 (Option.some.inj hzero)
      rwa [ofUInt8_toUInt8 (toNat_lt_of_isDigit (hdigits c List.mem_cons_self))] at hchar
    subst hc
    -- Without the zero the digits denote the same number, but the numeral is the shortest.
    cases cs with
    | nil => rfl
    | cons d ds =>
      have hvalue : Numeral.value (d :: ds) = n := by
        have hall : Numeral.value (['0'] ++ d :: ds) = n := by
          rw [List.singleton_append, ← hwrite, Numeral.value_write]
        rwa [Numeral.value_append, show Numeral.value ['0'] = 0 from rfl, Nat.zero_mul,
          Nat.zero_add] at hall
      have hshort := Numeral.length_write_le (List.cons_ne_nil d ds) fun e he =>
        hdigits e (List.mem_cons_of_mem _ he)
      rw [hvalue, hwrite, List.length_cons] at hshort
      omega

/-- The digits of a number that fits are all taken. -/
theorem takeFitting_digits {ds : List Char} (digits : ∀ c ∈ ds, c.isDigit = true) {n : Nat}
    (h : Nat.ofDigitChars 10 ds n < UInt64.size) :
    takeFitting n (ds.map Char.toUInt8) = (Nat.ofDigitChars 10 ds n, []) := by
  induction ds generalizing n with
  | nil => rfl
  | cons c ds ih =>
    obtain ⟨hc, hds⟩ := List.forall_mem_cons.1 digits
    have hvalue : digitValue c.toUInt8 = c.toNat - '0'.toNat := by
      rw [digitValue, toNat_toUInt8 (toNat_lt_of_isDigit hc)]
      rfl
    rw [Nat.ofDigitChars_cons] at h ⊢
    -- More digits do not make the number smaller.
    have hfits : 10 * n + digitValue c.toUInt8 < UInt64.size := by
      rw [Nat.ofDigitChars_eq_ofDigitChars_zero] at h
      rw [hvalue]
      have hpower : 1 ≤ 10 ^ ds.length := Nat.one_le_pow _ _ (by decide)
      have hle := Nat.le_mul_of_pos_left (10 * n + (c.toNat - '0'.toNat)) hpower
      omega
    rw [List.map_cons, takeFitting, if_pos hfits, hvalue, ih hds h]

/-- A natural number of at most 64 binary digits is read from its numeral. -/
theorem readNumber_write {n : Nat} (h : n < UInt64.size) (ends : Ends rest) :
    readNumber false ((Numeral.write n).map Char.toUInt8 ++ rest) = .ok (.natural n, rest) := by
  have hvalue : Nat.ofDigitChars 10 (Numeral.write n) 0 = n := Numeral.value_write n
  have htaken : takeFitting 0 ((Numeral.write n).map Char.toUInt8) = (n, []) := by
    have hfits : Nat.ofDigitChars 10 (Numeral.write n) 0 < UInt64.size := by rwa [hvalue]
    rw [takeFitting_digits (fun _ => Numeral.isDigit_of_mem_write) hfits, hvalue]
  have hliteral : readLiteral (.ended .value) ((Numeral.write n).map Char.toUInt8 ++ rest) =
      .ok (⟨(Numeral.write n).map Char.toUInt8, [], none⟩, rest) :=
    readLiteral_whole (wholeText_write n) ends
  rw [readNumber, hliteral]
  have hnumber : (Literal.mk ((Numeral.write n).map Char.toUInt8) [] none).number? false =
      some (.natural n) := by
    simp only [Literal.number?, Literal.significand, htaken, takeFitting]
    rfl
  simp only [bind, Except.bind, Literal.afterExcess?, hnumber]

end EpisodeCut.Json
