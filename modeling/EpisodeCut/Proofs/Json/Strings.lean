import EpisodeCut.Proofs.Json.Tokens

/-!
# Strings of JSON texts

However the characters of a string are written, they are what is read (`readText_string`): a plain
character is read byte by byte, and every escape gives the bytes of the character that it stands for
(`readEscape_escape`). A string that is passed over only needs to have the form of one
(`skipText_raw`).
-/

set_option autoImplicit false

namespace EpisodeCut.Json

open Text

variable {s rest : Bytes} {b : UInt8} {c letter : Char} {value unit : Nat}

/-! ## Units -/

theorem hexValue?_digit (digit : IsHexDigit value b) : hexValue? (Char.ofUInt8 b) = some value := by
  obtain ⟨hvalue, hb⟩ := digit
  have hdigits : ∀ value < 16,
      hexValue? (Char.ofUInt8 (Nat.digitChar value).toUInt8) = some value ∧
        hexValue? (Char.ofUInt8 (Nat.digitChar value).toUpper.toUInt8) = some value := by
    decide
  rcases hb with rfl | rfl
  · exact (hdigits value hvalue).1
  · exact (hdigits value hvalue).2

theorem readUnit_digits (digits : UnitText unit s) (rest : Bytes) :
    readUnit (s ++ rest) = .ok (unit, rest) := by
  cases digits with
  | @digits i j k l p q r s hi hj hk hl =>
    have hread : ([p, q, r, s].mapM fun b => hexValue? (Char.ofUInt8 b)) = some [i, j, k, l] := by
      simp [hexValue?_digit hi, hexValue?_digit hj, hexValue?_digit hk, hexValue?_digit hl]
    have htake : ([p, q, r, s] ++ rest).take 4 = [p, q, r, s] := rfl
    have hlength : ¬[p, q, r, s].length < 4 := by simp
    rw [readUnit, htake, if_neg hlength, hread]
    simp

/-! ## Escapes -/

/-- The letter of an escape stands for one byte, and it is not the letter of a unit. -/
theorem escapedByte?_letter (h : (letter, c) ∈ letterEscapes) :
    Char.ofUInt8 letter.toUInt8 = letter ∧ letter ≠ 'u' ∧
      ∃ byte, escapedByte? letter = some byte ∧ String.utf8EncodeChar c = [byte] := by
  have hall : ∀ escape ∈ letterEscapes,
      Char.ofUInt8 escape.1.toUInt8 = escape.1 ∧ escape.1 ≠ 'u' ∧
        escapedByte? escape.1 = some escape.2.toUInt8 ∧
        String.utf8EncodeChar escape.2 = [escape.2.toUInt8] := by
    decide
  obtain ⟨hletter, hu, hbyte, hencode⟩ := hall (letter, c) h
  exact ⟨hletter, hu, _, hbyte, hencode⟩

theorem readEscape_letter (h : (letter, c) ∈ letterEscapes) (rest : Bytes) :
    readEscape (letter.toUInt8 :: rest) = .ok (String.utf8EncodeChar c, rest) := by
  obtain ⟨hletter, hu, byte, hbyte, hencode⟩ := escapedByte?_letter h
  rw [readEscape, hletter, if_neg hu, hbyte, hencode]

theorem skipEscape_letter (h : (letter, c) ∈ letterEscapes) (rest : Bytes) :
    skipEscape (letter.toUInt8 :: rest) = .ok ((), rest) := by
  obtain ⟨hletter, hu, byte, hbyte, -⟩ := escapedByte?_letter h
  rw [skipEscape, hletter, if_neg hu, hbyte]
  rfl

theorem skipEscape_unit (digits : UnitText unit s) (rest : Bytes) :
    skipEscape (0x75 :: (s ++ rest)) = .ok ((), rest) := by
  have hu : Char.ofUInt8 0x75 = 'u' := rfl
  rw [skipEscape, hu, if_pos rfl, readUnit_digits digits]
  rfl

/-- A character is no unit of a pair. -/
theorem isUnit_toNat (c : Char) : isLowUnit c.toNat = false ∧ isHighUnit c.toNat = false := by
  have hvalid : c.toNat < 0xD800 ∨ 0xDFFF < c.toNat ∧ c.toNat < 0x110000 := c.valid
  simp only [isLowUnit, isHighUnit, Bool.and_eq_false_iff, decide_eq_false_iff_not]
  omega

theorem readEscape_unit (digits : UnitText c.toNat s) (rest : Bytes) :
    readEscape (0x75 :: (s ++ rest)) = .ok (String.utf8EncodeChar c, rest) := by
  obtain ⟨hlow, hhigh⟩ := isUnit_toNat c
  have hu : Char.ofUInt8 0x75 = 'u' := rfl
  rw [readEscape, hu, if_pos rfl, readCharacter, readUnit_digits digits]
  simp only [bind, Except.bind, hlow, hhigh, Bool.false_eq_true, if_false, Char.ofNat_toNat]

/-- A character beyond the units has a pair of them. -/
theorem offset_lt {offset : Nat} (beyond : c.toNat = 0x10000 + offset) :
    offset / 0x400 < 0x400 := by
  have hvalid : c.toNat < 0xD800 ∨ 0xDFFF < c.toNat ∧ c.toNat < 0x110000 := c.valid
  omega

theorem isUnit_high {high : Nat} (h : high < 0x400) :
    isLowUnit (0xD800 + high) = false ∧ isHighUnit (0xD800 + high) = true := by
  simp only [isLowUnit, isHighUnit, Bool.and_eq_false_iff, Bool.and_eq_true,
    decide_eq_false_iff_not, decide_eq_true_eq]
  omega

theorem isLowUnit_low {low : Nat} (h : low < 0x400) : isLowUnit (0xDC00 + low) = true := by
  simp only [isLowUnit, Bool.and_eq_true, decide_eq_true_eq]
  omega

theorem pairValue_eq (offset : Nat) :
    pairValue (0xD800 + offset / 0x400) (0xDC00 + offset % 0x400) = 0x10000 + offset := by
  unfold pairValue
  rw [Nat.add_sub_cancel_left, Nat.add_sub_cancel_left, Nat.add_assoc, Nat.div_add_mod']

theorem readEscape_pair {offset : Nat} {first second : Bytes} (beyond : c.toNat = 0x10000 + offset)
    (high : UnitText (0xD800 + offset / 0x400) first)
    (low : UnitText (0xDC00 + offset % 0x400) second) (rest : Bytes) :
    readEscape (0x75 :: (first ++ 0x5C :: 0x75 :: (second ++ rest))) =
      .ok (String.utf8EncodeChar c, rest) := by
  obtain ⟨hnotLow, hhigh⟩ := isUnit_high (offset_lt beyond)
  have hlow := isLowUnit_low (Nat.mod_lt offset (by decide : 0 < 0x400))
  have hvalue := (pairValue_eq offset).trans beyond.symm
  have hu : Char.ofUInt8 0x75 = 'u' := rfl
  have hbackslash (s : Bytes) : expectInPair '\\' (0x5C :: s) = .ok ((), s) := rfl
  have hletter (s : Bytes) : expectInPair 'u' (0x75 :: s) = .ok ((), s) := rfl
  rw [readEscape, hu, if_pos rfl, readCharacter, readUnit_digits high]
  simp only [bind, Except.bind, hnotLow, hhigh, Bool.false_eq_true, if_false, if_true, readLowUnit,
    hbackslash, hletter, readUnit_digits low, hlow, hvalue, Char.ofNat_toNat]

/-! ## Plain characters -/

/-- A byte that stands for itself in a string. -/
def IsPlainByte (b : UInt8) : Prop :=
  0x20 ≤ b ∧ b ≠ 0x22 ∧ b ≠ 0x5C

theorem isPlainByte_of_le (h : 0x80 ≤ b) : IsPlainByte b := by
  refine ⟨UInt8.le_trans (by decide) h, ?_, ?_⟩
  · rintro rfl
    exact absurd h (by decide)
  · rintro rfl
    exact absurd h (by decide)

/-- The bytes of a plain character stand for themselves. -/
theorem isPlainByte_of_mem (printable : 0x20 ≤ c.toNat) (noQuote : c ≠ '\x22')
    (noEscape : c ≠ '\\') (h : b ∈ String.utf8EncodeChar c) : IsPlainByte b := by
  by_cases hascii : c.toNat < 0x80
  · rw [utf8EncodeChar_ascii hascii, List.mem_singleton] at h
    subst h
    have hchar := ofUInt8_toUInt8 hascii
    refine ⟨?_, ?_, ?_⟩
    · rw [UInt8.le_iff_toNat_le, toNat_toUInt8 hascii]
      exact printable
    · intro hb
      rw [hb] at hchar
      exact noQuote hchar.symm
    · intro hb
      rw [hb] at hchar
      exact noEscape hchar.symm
  · exact isPlainByte_of_le (le_of_mem_utf8EncodeChar (Nat.le_of_not_lt hascii) h)

/-! ## Strings that are read -/

theorem not_special (plain : IsPlainByte b) :
    Char.ofUInt8 b ≠ '\x22' ∧ Char.ofUInt8 b ≠ '\\' ∧ ¬b < 0x20 := by
  obtain ⟨hprintable, hquote, hescape⟩ := plain
  refine ⟨fun h => hquote (ofUInt8_inj.1 h), fun h => hescape (ofUInt8_inj.1 h), ?_⟩
  exact UInt8.not_lt.2 hprintable

theorem readText_plain (plain : IsPlainByte b) (taken s : Bytes) :
    readText taken (b :: s) = readText (b :: taken) s := by
  obtain ⟨hquote, hescape, hprintable⟩ := not_special plain
  rw [readText, if_neg hquote, if_neg hescape, if_neg hprintable]

theorem readText_plains {bytes : Bytes} (plain : ∀ b ∈ bytes, IsPlainByte b) (taken s : Bytes) :
    readText taken (bytes ++ s) = readText (bytes.reverse ++ taken) s := by
  induction bytes generalizing taken with
  | nil => rfl
  | cons b bytes ih =>
    obtain ⟨hb, hbytes⟩ := List.forall_mem_cons.1 plain
    rw [List.cons_append, readText_plain hb, ih hbytes, List.reverse_cons, List.append_assoc]
    rfl

theorem readText_escape {bytes next : Bytes} (h : readEscape s = .ok (bytes, next))
    (taken : Bytes) : readText taken (0x5C :: s) = readText (bytes.reverse ++ taken) next := by
  have hquote : Char.ofUInt8 0x5C ≠ '\x22' := by decide
  have hescape : Char.ofUInt8 0x5C = '\\' := rfl
  rw [readText, if_neg hquote, if_pos hescape]
  split
  · next refusal hrefused =>
    rw [h] at hrefused
    cases hrefused
  · next found later hread =>
    rw [h] at hread
    cases hread
    rfl

/-- However a character is written, its bytes are read. -/
theorem readText_char (char : CharText c s) (taken rest : Bytes) :
    readText taken (s ++ rest) = readText ((String.utf8EncodeChar c).reverse ++ taken) rest := by
  cases char with
  | plain printable noQuote noEscape =>
    exact readText_plains (fun b => isPlainByte_of_mem printable noQuote noEscape) taken rest
  | short h => exact readText_escape (readEscape_letter h rest) taken
  | unit h =>
    rw [List.append_assoc]
    exact readText_escape (readEscape_unit h rest) taken
  | pair beyond high low =>
    simp only [List.append_assoc]
    exact readText_escape (readEscape_pair beyond high low rest) taken

theorem readText_chars {content : List Char} (chars : CharsText content s) (taken rest : Bytes) :
    readText taken (s ++ rest) =
      readText ((content.flatMap String.utf8EncodeChar).reverse ++ taken) rest := by
  induction chars generalizing taken with
  | nil => rfl
  | cons char chars ih =>
    rw [List.append_assoc, readText_char char, ih, List.flatMap_cons, List.reverse_append,
      List.append_assoc]

theorem textOfReversed?_encoded (content : String) :
    textOfReversed? (content.toList.flatMap String.utf8EncodeChar).reverse = some content := by
  have hbytes : (⟨(content.toList.flatMap String.utf8EncodeChar).toArray⟩ : ByteArray) =
      content.toByteArray := by
    rw [← String.utf8Encode_toList]
    exact ByteArray.ext (List.data_toByteArray).symm
  rw [textOfReversed?, List.reverse_reverse, hbytes, String.fromUTF8?, dif_pos content.isValidUTF8]
  rfl

/-- A string is read, whatever has been chosen to write it. -/
theorem readText_string {content : String} {chars : Bytes} (h : CharsText content.toList chars)
    (rest : Bytes) : readText [] (chars ++ 0x22 :: rest) = .ok (content, rest) := by
  have hquote : Char.ofUInt8 0x22 = '\x22' := rfl
  rw [readText_chars h, List.append_nil, readText, if_pos hquote, textOfReversed?_encoded]

/-! ## Strings that are passed over -/

theorem skipText_escape {next : Bytes} (h : skipEscape s = .ok ((), next)) :
    skipText (0x5C :: s) = skipText next := by
  have hquote : Char.ofUInt8 0x5C ≠ '\x22' := by decide
  have hescape : Char.ofUInt8 0x5C = '\\' := rfl
  rw [skipText, if_neg hquote, if_pos hescape]
  split
  · next refusal hrefused =>
    rw [h] at hrefused
    cases hrefused
  · next later hread =>
    rw [h] at hread
    cases hread
    rfl

/-- What has the form of a string is passed over. -/
theorem skipText_raw (raw : RawText s) (rest : Bytes) :
    skipText (s ++ 0x22 :: rest) = .ok ((), rest) := by
  induction raw with
  | nil =>
    have hquote : Char.ofUInt8 0x22 = '\x22' := rfl
    rw [List.nil_append, skipText, if_pos hquote]
  | plain printable noQuote noEscape raw ih =>
    obtain ⟨hquote, hescape, hprintable⟩ := not_special ⟨printable, noQuote, noEscape⟩
    rw [List.cons_append, skipText, if_neg hquote, if_neg hescape, if_neg hprintable, ih]
  | short h raw ih => exact (skipText_escape (skipEscape_letter h _)).trans ih
  | unit h raw ih =>
    simp only [List.append_assoc]
    exact (skipText_escape (skipEscape_unit h _)).trans ih

end EpisodeCut.Json
