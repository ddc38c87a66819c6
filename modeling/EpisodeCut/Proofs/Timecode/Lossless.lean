import EpisodeCut.Proofs.Config.Timestamps

/-!
# Texts of timecodes

Both texts of a timecode are read back to it: the decimal seconds as a duration, and the clock
reading as a timestamp of a configuration (`Timecode.texts_lossless`). The decimal seconds are the
one shortest text that is read as the timecode: another text has more zeros in front, more places
behind that do not count, a point that could be left out, or white space around it
(`Timecode.secondsText_shortest`).
-/

set_option autoImplicit false

namespace EpisodeCut

open Text

/-! ## Lengths in bytes -/

namespace Text

theorem utf8ByteSize_ofList_cons (c : Char) (s : List Char) :
    (String.ofList (c :: s)).utf8ByteSize = c.utf8Size + (String.ofList s).utf8ByteSize := by
  have htext : String.ofList (c :: s) = String.singleton c ++ String.ofList s := by
    rw [← String.toList_inj]
    simp
  rw [htext, String.utf8ByteSize_append, String.utf8ByteSize_singleton]

/-- No text has more characters than bytes. -/
theorem length_le_utf8ByteSize (text : String) : text.length ≤ text.utf8ByteSize := by
  obtain ⟨s, rfl⟩ : ∃ s, text = String.ofList s := ⟨text.toList, String.ofList_toList.symm⟩
  rw [String.length_ofList]
  induction s with
  | nil => exact Nat.zero_le _
  | cons c s ih =>
    have hc := Char.utf8Size_pos c
    rw [utf8ByteSize_ofList_cons, List.length_cons]
    omega

/-- ASCII characters have one byte. -/
theorem utf8ByteSize_ofList_of_ascii {s : List Char} (ascii : ∀ c ∈ s, c.toNat < 128) :
    (String.ofList s).utf8ByteSize = s.length := by
  induction s with
  | nil => rfl
  | cons c s ih =>
    rw [List.forall_mem_cons] at ascii
    have hc : c.utf8Size = 1 := Char.utf8Size_eq_one_iff.2 (UInt32.le_iff_toNat_le.2
      (Nat.le_of_lt_succ ascii.1))
    rw [utf8ByteSize_ofList_cons, List.length_cons, ih ascii.2, hc, Nat.add_comm]

end Text

namespace Timecode

/-! ## Decimal seconds -/

theorem isWhiteSpace_eq_false_of_mem_secondsText {t : Timecode} :
    ∀ c ∈ t.secondsText, isWhiteSpace c = false := by
  intro c hc
  rcases isDigit_or_point_of_mem_secondsText hc with hdigit | rfl
  · exact Config.isWhiteSpace_eq_false_of_isNameStart (by
      simp [Config.isNameStart, Char.isAlphanum, hdigit])
  · decide

theorem floor_inSeconds (t : Timecode) : ⌊1000 * t.inSeconds⌋₊ = t.toNat := by
  have hsum : 1000 * t.inSeconds = (t.toNat : ℚ) := by
    rw [inSeconds]
    ring
  rw [hsum, Nat.floor_natCast]

/-- The decimal seconds of a timecode are read as the timecode. -/
theorem ofText?_seconds (t : Timecode) : ofText? t.seconds = some t := by
  rw [ofText?_eq_some_iff, seconds, String.toList_ofList,
    trim_eq_self isWhiteSpace_eq_false_of_mem_secondsText]
  exact ⟨t.inSeconds, denotes_iff.2 (value?_secondsText t), (floor_inSeconds t).symm⟩

/-- The places that are written of a fraction are among its own: the zeros that fill it up are not
written. -/
theorem dropRightWhile_filled_prefix (fraction : List Char) :
    dropRightWhile (· == '0') ((fraction ++ ['0', '0', '0']).take 3) <+: fraction := by
  obtain ⟨zeros, hzeros, -⟩ :=
    exists_eq_dropRightWhile_append (· == '0') ((fraction ++ ['0', '0', '0']).take 3)
  have hlast := @getLast?_dropRightWhile (· == '0') ((fraction ++ ['0', '0', '0']).take 3)
  generalize dropRightWhile (· == '0') ((fraction ++ ['0', '0', '0']).take 3) = kept
    at hzeros hlast ⊢
  have hfilled : kept <+: fraction ++ ['0', '0', '0'] :=
    (show kept <+: _ from ⟨zeros, hzeros.symm⟩).trans (List.take_prefix 3 _)
  rcases List.prefix_or_prefix_of_prefix hfilled (List.prefix_append fraction _) with h | ⟨more, rfl⟩
  · exact h
  · -- Behind the whole fraction only zeros could be kept, but what is kept ends in none.
    rw [List.prefix_append_right_inj] at hfilled
    cases hmore : more.getLast? with
    | none => simp [List.getLast?_eq_none_iff.1 hmore]
    | some c =>
      have hzero : c = '0' := by simpa using hfilled.subset (List.mem_of_getLast? hmore)
      have hc := hlast c (by rw [List.getLast?_append, hmore]; rfl)
      rw [hzero] at hc
      cases hc

/-- The three places of a timecode are those of the fraction from which it is read, filled up. -/
theorem writePadded_eq_filled {t : Timecode} {fraction : List Char}
    (inside : ∀ c ∈ fraction, c.isDigit = true) (h : t.toNat % 1000 = fractionMillis fraction) :
    Numeral.writePadded 3 (t.toNat % 1000) = (fraction ++ ['0', '0', '0']).take 3 := by
  have hsmall : t.toNat % 1000 < 10 ^ 3 := Nat.mod_lt _ (by decide)
  apply Numeral.eq_of_value_eq
  · rw [Numeral.length_writePadded (by decide) hsmall]
    simp
  · exact fun _ => Numeral.isDigit_of_mem_writePadded
  · intro c hc
    rcases List.mem_append.1 (List.mem_of_mem_take hc) with hc | hc
    · exact inside c hc
    · simp only [List.mem_cons, List.not_mem_nil, or_false, or_self] at hc
      rw [hc]
      rfl
  · rw [Numeral.value_writePadded, h]
    rfl

/-- Texts that are read as a timecode are no shorter than the one that is written, and one of the
same length is the one that is written. -/
theorem secondsText_shortest {ds : List Char} {t : Timecode} (h : ofDecimalSeconds? ds = some t) :
    t.secondsText.length ≤ ds.length ∧
      (ds.length = t.secondsText.length → ds = t.secondsText) := by
  obtain ⟨nonempty, digits, places, htotal⟩ := ofDecimalSeconds?_eq_some_iff.1 h
  have hlt := fractionMillis_lt places
  have hwhole : t.toNat / 1000 = Numeral.value (wholePart ds) := by omega
  have hplaces := writePadded_eq_filled places (t := t) (by omega)
  have hprefix := dropRightWhile_filled_prefix (fractionPart ds)
  have hparts := eq_whole_or_point ds
  have hshort := Numeral.length_write_le nonempty digits
  have hsame := Numeral.write_value_eq digits
  rw [secondsText, hplaces, hwhole]
  generalize dropRightWhile (· == '0') ((fractionPart ds ++ ['0', '0', '0']).take 3) = kept
    at hprefix ⊢
  generalize Numeral.write (Numeral.value (wholePart ds)) = written at hshort hsame ⊢
  generalize wholePart ds = whole at hshort hsame hparts
  generalize fractionPart ds = fraction at hprefix hparts
  rcases hparts with ⟨rfl, rfl⟩ | rfl
  · -- Without a point there is no fraction, and none is written.
    rw [List.prefix_nil.1 hprefix]
    exact ⟨hshort, fun heq => (hsame heq.symm).symm⟩
  · have hkept := hprefix.length_le
    cases kept with
    | nil =>
      simp only [List.length_append, List.length_cons]
      refine ⟨by omega, fun heq => ?_⟩
      omega
    | cons place kept =>
      simp only [List.length_append, List.length_cons] at hkept ⊢
      refine ⟨by omega, fun heq => ?_⟩
      rw [hsame (by omega), hprefix.eq_of_length (by rw [List.length_cons]; omega)]

/-- Every other text that is read as a timecode is longer than its decimal seconds, in characters
and in bytes. -/
theorem length_seconds_lt {text : String} {t : Timecode} (h : ofText? text = some t)
    (other : text ≠ t.seconds) :
    t.seconds.length < text.length ∧ t.seconds.utf8ByteSize < text.utf8ByteSize := by
  obtain ⟨hshort, hsame⟩ := secondsText_shortest h
  have hinfix := trim_infix text.toList
  have hlength : t.secondsText.length < text.length := by
    have htrim := hinfix.length_le
    rw [String.length_toList] at htrim
    rcases Nat.lt_or_ge t.secondsText.length text.length with hlt | hge
    · exact hlt
    · -- A text that is no longer has no white space around it, and it is the one that is written.
      have htext : trim text.toList = text.toList :=
        hinfix.eq_of_length (by rw [String.length_toList]; omega)
      rw [htext, String.length_toList] at hsame
      rw [htext, String.length_toList] at hshort
      refine absurd ?_ other
      rw [seconds, ← hsame (by omega), String.ofList_toList]
  have hbytes : t.seconds.utf8ByteSize = t.secondsText.length := by
    apply utf8ByteSize_ofList_of_ascii
    intro c hc
    rcases isDigit_or_point_of_mem_secondsText hc with hdigit | rfl
    · have hnine := (Char.isDigit_iff_toNat.1 hdigit).2
      have hcode : '9'.toNat < 128 := by decide
      omega
    · decide
  rw [hbytes, seconds, String.length_ofList]
  exact ⟨hlength, Nat.lt_of_lt_of_le hlength (length_le_utf8ByteSize text)⟩

end Timecode

/-! ## Clock readings -/

namespace Config

/-- The numeral of a number, with zeros in front up to a width. -/
def Digits.padded (width n : Nat) : Digits :=
  ⟨Numeral.writePadded width n, Numeral.writePadded_ne_nil width n,
    fun _ => Numeral.isDigit_of_mem_writePadded⟩

theorem Digits.value_padded (width n : Nat) : (padded width n).value = n :=
  Numeral.value_writePadded width n

/-- The clock reading of a timecode as a timestamp. -/
def Stamp.ofTimecode (t : Timecode) : Stamp where
  fields := .hours (.padded 2 (t.toNat / 1000 / 3600)) (.padded 2 (t.toNat / 1000 / 60 % 60))
    (.padded 2 (t.toNat / 1000 % 60))
  fraction := some (.padded 3 (t.toNat % 1000))

namespace Stamp

theorem text_ofTimecode (t : Timecode) : (ofTimecode t).text = t.clockText := by
  simp only [text, ofTimecode, fractionText, Fields.text, Digits.padded, Timecode.clockText,
    List.append_assoc, List.cons_append]

theorem floor_ofTimecode (t : Timecode) : ⌊1000 * (ofTimecode t).inSeconds⌋₊ = t.toNat := by
  have hsmall : t.toNat % 1000 < 10 ^ 3 := Nat.mod_lt _ (by decide)
  have hfraction : (ofTimecode t).fractionMillis = t.toNat % 1000 := by
    simp only [fractionMillis, ofTimecode, Digits.value_padded]
    rw [Digits.padded, Numeral.length_writePadded (by decide) hsmall]
    exact Nat.mul_div_cancel _ (by decide)
  have hfields : (ofTimecode t).fields.inSeconds = t.toNat / 1000 := by
    simp only [ofTimecode, Fields.inSeconds, Digits.value_padded]
    omega
  rw [floor_inSeconds, hfraction, hfields]
  omega

end Stamp

/-- The clock reading of a timecode is read as one timestamp, which denotes the timecode. -/
theorem parse_clock (t : Timecode) :
    parse ("[a:x] " ++ t.clock) = .ok
        [⟨.audio, some (.file "x"), none, [.timestamp (Stamp.ofTimecode t).clock]⟩] ∧
      (Stamp.ofTimecode t).clock.toTimecode? = some t := by
  have hfloor := Stamp.floor_ofTimecode t
  have inRange : (Stamp.ofTimecode t).InRange := by
    rw [Stamp.InRange, hfloor]
    exact t.toNat_lt
  have htext : ("[a:x] " ++ t.clock).toList = "[a:x] ".toList ++ (Stamp.ofTimecode t).text := by
    have hclock : t.clock.toList = t.clockText := String.toList_ofList
    rw [String.toList_append, hclock, Stamp.text_ofTimecode]
  constructor
  · have stamped := stampedText_audio (Stamp.ofTimecode t)
    rw [← htext] at stamped
    exact stamped.parse_eq (List.forall_mem_singleton.2 inRange)
  · obtain ⟨found, hfound, htotal⟩ := Stamp.toTimecode?_clock inRange
    rw [hfound, Timecode.eq_of_toNat (htotal.trans hfloor)]

end Config

namespace Timecode

theorem clock_injective {t other : Timecode} (h : t.clock = other.clock) : t = other := by
  obtain ⟨hparse, hclock⟩ := Config.parse_clock t
  obtain ⟨hparse', hclock'⟩ := Config.parse_clock other
  rw [h, hparse'] at hparse
  simp only [Except.ok.injEq, List.cons.injEq, InputSpec.mk.injEq, TimeToken.timestamp.injEq,
    true_and, and_true] at hparse
  rw [hparse, hclock] at hclock'
  exact Option.some.inj hclock'

/-- Both texts of a timecode lose nothing. The decimal seconds are read as the timecode, and they are
the one shortest text that is; the clock reading is read as one timestamp, which denotes the
timecode. So other timecodes have other texts. -/
theorem texts_lossless (t : Timecode) :
    ofText? t.seconds = some t ∧
      (∀ text, ofText? text = some t → text ≠ t.seconds →
        t.seconds.length < text.length ∧ t.seconds.utf8ByteSize < text.utf8ByteSize) ∧
      (∃ clock, Config.parse ("[a:x] " ++ t.clock) =
          .ok [⟨.audio, some (.file "x"), none, [.timestamp clock]⟩] ∧
        clock.toTimecode? = some t) ∧
      ∀ other : Timecode, other ≠ t → other.seconds ≠ t.seconds ∧ other.clock ≠ t.clock := by
  refine ⟨ofText?_seconds t, fun text => length_seconds_lt, ⟨_, Config.parse_clock t⟩, ?_⟩
  exact fun other hother => ⟨fun hseconds => hother (seconds_injective hseconds),
    fun hclock => hother (clock_injective hclock)⟩

/-- Zeros in front and behind make a text of the last timecode longer, and the timecode before it has
other texts. -/
theorem texts_lossless_last :
    ofText? "018446744073709551.6150" = some ⟨18446744073709551615⟩ ∧
      (seconds ⟨18446744073709551615⟩).length < "018446744073709551.6150".length ∧
      (seconds ⟨18446744073709551614⟩ ≠ seconds ⟨18446744073709551615⟩ ∧
        clock ⟨18446744073709551614⟩ ≠ clock ⟨18446744073709551615⟩) := by
  obtain ⟨-, hshortest, -, hdistinct⟩ := texts_lossless ⟨18446744073709551615⟩
  have hread : ofText? "018446744073709551.6150" = some ⟨18446744073709551615⟩ := by decide
  exact ⟨hread, (hshortest _ hread (by decide)).1, hdistinct _ (by decide)⟩

end Timecode

end EpisodeCut
