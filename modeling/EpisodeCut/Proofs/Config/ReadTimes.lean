import EpisodeCut.Proofs.Config.ReadInputs
import EpisodeCut.Proofs.Timecode.Reading

/-!
# Reading times

The times of a group that the grammar derives are read to what the derivation says
(`TimesText.readTimes_eq`). A colon that no digit follows would end a timestamp, but in a derived one
every colon has a field behind it. What ends a time list is the next group or the end of the text
(`FollowsGroup`).
-/

set_option autoImplicit false

namespace EpisodeCut.Config

open Text

/-! ## Fields of a timestamp -/

section Fields

variable (start : List Char) (clock : ClockTime) (room : Nat) {digits rest : List Char}
  (inside : ∀ c ∈ digits, c.isDigit = true)

include inside

/-- A field that a colon and a digit follow is pushed if it fits, and the next one is read. -/
theorem readClockFields_colon (digit : rest.head?.any Char.isDigit = true) :
    readClockFields start clock (room + 1) (digits ++ ':' :: rest) =
      if Numeral.value digits < UInt64.size then
        readClockFields start (pushField clock (UInt64.ofNat (Numeral.value digits))) room rest
      else .error ⟨.fieldTooLarge, start⟩ := by
  have hstop : ∀ c ∈ (':' :: rest).head?, c.isDigit = false := by
    rintro c ⟨⟩
    rfl
  have hcolon : (':' :: rest).head? = some ':' ∧
      ((':' :: rest).drop 1).head?.any Char.isDigit = true := ⟨rfl, digit⟩
  rw [readClockFields]
  simp only [takeWhile_append_eq inside hstop, dropWhile_append_eq inside hstop]
  rw [if_pos hcolon]
  rfl

/-- A field that no colon follows is the last one. -/
theorem readClockFields_last (stop : ∀ c ∈ rest.head?, c.isDigit = false ∧ c ≠ ':') :
    readClockFields start clock room (digits ++ rest) =
      if Numeral.value digits < UInt64.size then
        .ok (pushField clock (UInt64.ofNat (Numeral.value digits)), rest)
      else .error ⟨.fieldTooLarge, start⟩ := by
  have hstop : ∀ c ∈ rest.head?, c.isDigit = false := fun c hc => (stop c hc).1
  have hcolon : ¬(rest.head? = some ':' ∧ (rest.drop 1).head?.any Char.isDigit = true) := fun h =>
    (stop ':' h.1).2 rfl
  rw [readClockFields]
  simp only [takeWhile_append_eq inside hstop, dropWhile_append_eq inside hstop]
  rw [if_neg hcolon]

omit inside

variable {field : UInt64} {s : List Char}

theorem NumeralText.readClockFields_colon (h : NumeralText s field.toNat (':' :: rest))
    (digit : rest.head?.any Char.isDigit = true) :
    readClockFields start clock (room + 1) s =
      readClockFields start (pushField clock field) room rest := by
  obtain ⟨digits, -, inside, value, rfl⟩ := h
  rw [Config.readClockFields_colon start clock room inside digit, value, if_pos field.toNat_lt_size,
    UInt64.ofNat_toNat]

theorem NumeralText.readClockFields_last (h : NumeralText s field.toNat rest)
    (stop : ∀ c ∈ rest.head?, c.isDigit = false ∧ c ≠ ':') :
    readClockFields start clock room s = .ok (pushField clock field, rest) := by
  obtain ⟨digits, -, inside, value, rfl⟩ := h
  rw [Config.readClockFields_last start clock room inside stop, value, if_pos field.toNat_lt_size,
    UInt64.ofNat_toNat]

end Fields

theorem FieldsText.any_isDigit_head? {s rest : List Char} {clock : ClockTime}
    (h : FieldsText s clock rest) : s.head?.any Char.isDigit = true := by
  cases h with
  | seconds last => exact last.any_isDigit_head?
  | minutes first last => exact first.any_isDigit_head?
  | hours first second last => exact first.any_isDigit_head?

theorem FieldsText.readClockFields_eq {s rest : List Char} {clock : ClockTime}
    (h : FieldsText s clock rest) (stop : ∀ c ∈ rest.head?, c.isDigit = false ∧ c ≠ ':')
    (start : List Char) : readClockFields start .zero 2 s = .ok (clock, rest) := by
  cases h with
  | seconds last => exact last.readClockFields_last start .zero 2 stop
  | minutes first last =>
    rw [first.readClockFields_colon _ _ _ last.any_isDigit_head?,
      last.readClockFields_last _ _ _ stop]
    rfl
  | hours first second last =>
    rw [first.readClockFields_colon _ _ _ second.any_isDigit_head?,
      second.readClockFields_colon _ _ _ last.any_isDigit_head?,
      last.readClockFields_last _ _ _ stop]
    rfl

theorem ClockText.any_isDigit_head? {s rest : List Char} {clock : ClockTime}
    (h : ClockText s clock rest) : s.head?.any Char.isDigit = true := by
  cases h with
  | whole fields inRange => exact fields.any_isDigit_head?
  | fraction fields nonempty isDigit value inRange => exact fields.any_isDigit_head?

/-! ## Fractions -/

/-- The digits of a fraction are read back. -/
theorem readFraction_digits (clock : ClockTime) {digits : List Char} (nonempty : digits ≠ [])
    (inside : ∀ c ∈ digits, c.isDigit = true) {s : List Char}
    (stop : ∀ c ∈ s.head?, c.isDigit = false) :
    readFraction clock ('.' :: (digits ++ s)) =
      .ok ({ clock with millis := UInt64.ofNat (Timecode.fractionMillis digits) }, s) := by
  have hnonempty : ¬digits.isEmpty = true := by
    rw [List.isEmpty_iff]
    exact nonempty
  rw [readFraction, if_pos List.head?_cons]
  simp only [List.drop_succ_cons, List.drop_zero, takeWhile_append_eq inside stop,
    dropWhile_append_eq inside stop]
  rw [if_neg hnonempty]

/-! ## Timestamps -/

theorem isDigit_eq_false_of_endsTimestamp {c : Char} (h : endsTimestamp c = true) :
    c.isDigit = false := by
  simp only [endsTimestamp, isLayout, Bool.or_eq_true, beq_iff_eq] at h
  rcases h with (((((((rfl | rfl) | rfl) | rfl) | rfl)) | rfl) | rfl) | rfl <;> rfl

theorem isSome_toTimecode? {clock : ClockTime} :
    clock.toTimecode?.isSome = true ↔ clock.totalMillis < UInt64.size := by
  rw [ClockTime.toTimecode?_eq, Timecode.ofMillis?]
  split
  · next h => simp [h]
  · next h => simp [h]

theorem all_endsTimestamp {rest : List Char} (stop : ∀ c ∈ rest.head?, endsTimestamp c = true) :
    rest.head?.all endsTimestamp = true := by
  cases rest with
  | nil => rfl
  | cons c rest => exact stop c rfl

/-- Fields alone are a timestamp if it is in range and what stands right behind them may stand
there. -/
theorem FieldsText.readTimestamp_whole {s rest : List Char} {clock : ClockTime}
    (h : FieldsText s clock rest) (stop : ∀ c ∈ rest.head?, endsTimestamp c = true) :
    readTimestamp s = if clock.toTimecode?.isSome then .ok (clock, rest)
      else .error ⟨.timestampTooLarge, s⟩ := by
  have hfields := h.readClockFields_eq (fun c hc => by
    refine ⟨isDigit_eq_false_of_endsTimestamp (stop c hc), ?_⟩
    rintro rfl
    cases stop _ hc) s
  have hpoint : ¬rest.head? = some '.' := fun h => by cases stop '.' h
  simp only [readTimestamp, hfields, bind, Except.bind, readFraction]
  rw [if_neg hpoint]
  simp only
  rw [if_pos (all_endsTimestamp stop)]

/-- Fields and a fraction are a timestamp under the same conditions. -/
theorem FieldsText.readTimestamp_fraction {s digits rest : List Char} {clock : ClockTime}
    (h : FieldsText s clock ('.' :: (digits ++ rest))) (nonempty : digits ≠ [])
    (inside : ∀ c ∈ digits, c.isDigit = true) (stop : ∀ c ∈ rest.head?, endsTimestamp c = true)
    {millis : UInt64} (value : millis.toNat = Numeral.value digits * 1000 / 10 ^ digits.length) :
    readTimestamp s =
      if ({ clock with millis := millis } : ClockTime).toTimecode?.isSome then
        .ok ({ clock with millis := millis }, rest)
      else .error ⟨.timestampTooLarge, s⟩ := by
  have hdigit : ∀ c ∈ rest.head?, c.isDigit = false := fun c hc =>
    isDigit_eq_false_of_endsTimestamp (stop c hc)
  have hfields := h.readClockFields_eq (by rintro c ⟨⟩; decide) s
  have hmillis : UInt64.ofNat (Timecode.fractionMillis digits) = millis := by
    rw [Timecode.fractionMillis_eq inside, ← value, UInt64.ofNat_toNat]
  simp only [readTimestamp, hfields, bind, Except.bind]
  rw [readFraction_digits clock nonempty inside hdigit, hmillis]
  simp only
  rw [if_pos (all_endsTimestamp stop)]

/-- A timestamp is read back if what stands right behind it may stand there. -/
theorem ClockText.readTimestamp_eq {s rest : List Char} {clock : ClockTime}
    (h : ClockText s clock rest) (stop : ∀ c ∈ rest.head?, endsTimestamp c = true) :
    readTimestamp s = .ok (clock, rest) := by
  cases h with
  | whole fields inRange =>
    rw [fields.readTimestamp_whole stop, if_pos (isSome_toTimecode?.2 inRange)]
  | fraction fields nonempty inside value inRange =>
    rw [fields.readTimestamp_fraction nonempty inside stop value,
      if_pos (isSome_toTimecode?.2 inRange)]

/-- A timestamp may stand before layout and at the end of a text, if it may before the next
token. -/
theorem endsTimestamp_of_skipBlank {s : List Char}
    (h : ∀ c ∈ (skipBlank s).head?, endsTimestamp c = true) :
    ∀ c ∈ s.head?, endsTimestamp c = true := by
  intro c hc
  cases s with
  | nil => cases hc
  | cons d rest =>
    cases hc
    cases hsolid : isSolid c with
    | true =>
      rw [skipBlank_of_isSolid hsolid] at h
      exact h c rfl
    | false =>
      simp only [isSolid, Bool.and_eq_false_iff, Bool.not_eq_false', bne_eq_false_iff_eq] at hsolid
      rcases hsolid with hlayout | rfl
      · rw [endsTimestamp, hlayout]
        rfl
      · rfl

/-- A timestamp may stand before layout that separates it from the next one. -/
theorem Separation.endsTimestamp {s rest : List Char} (h : Separation s rest) :
    ∀ c ∈ s.head?, endsTimestamp c = true := by
  obtain ⟨gap, apart, rfl⟩ := h
  intro c hc
  cases gap with
  | nil => exact absurd rfl apart
  | cons filler gap =>
    cases filler with
    | blank d layout =>
      cases hc
      rw [Config.endsTimestamp, layout]
      rfl
    | comment line whole =>
      cases hc
      rfl

/-! ## Duration references -/

/-- What may follow the times of a group: the next group, or the end of the text. -/
def FollowsGroup (s : List Char) : Prop :=
  ∀ c ∈ (skipBlank s).head?, c = '['

theorem FollowsGroup.endsTimestamp {s : List Char} (follows : FollowsGroup s) :
    ∀ c ∈ s.head?, endsTimestamp c = true :=
  endsTimestamp_of_skipBlank fun c hc => by rw [follows c hc]; rfl

/-- A duration reference is read back: first its sign, and then the name. -/
theorem ReferenceText.readReference_eq {s rest : List Char} {token : TimeToken}
    (h : ReferenceText s token rest) (follows : FollowsGroup rest) :
    ∃ afterSign rest', skipBlank s = '@' :: afterSign ∧
      readReference afterSign = .ok (token, rest') ∧ skipBlank rest' = skipBlank rest := by
  obtain ⟨afterSign, name, sign, text, rfl⟩ := h
  obtain ⟨rest', hread, hrest⟩ := readFileName?_text name (s := rest) fun c hc => by
    rw [follows c hc]
    decide
  have hskip : skipBlank afterSign = name.text ++ rest := by
    rw [text.skipBlank_eq]
    exact skipBlank_of_isSolid (isSolid_of_isNameStart name.starts) _
  refine ⟨afterSign, rest', sign.skipBlank_cons (by decide), ?_, hrest⟩
  rw [readReference, hskip, hread]

/-! ## Time lists -/

theorem readTimestamps_end (first : Bool) {s : List Char}
    (stop : ∀ c ∈ s.head?, c.isDigit = false) : readTimestamps first s = .ok ([], s) := by
  cases s with
  | nil => rw [readTimestamps]
  | cons c rest => rw [readTimestamps, dif_neg (by simp [stop c rfl])]

theorem FollowsGroup.readTimestamps {s : List Char} (follows : FollowsGroup s) (first : Bool) :
    readTimestamps first (skipBlank s) = .ok ([], skipBlank s) :=
  readTimestamps_end first fun c hc => by rw [follows c hc]; rfl

/-- Where a digit begins a timestamp, it is read, and then what follows it. -/
theorem readTimestamps_step (first : Bool) {s : List Char}
    (digit : s.head?.any Char.isDigit = true) :
    readTimestamps first s = (readTimestamp s).bind fun found =>
      if (skipBlank found.2).head? = some '@' then
        if first then
          (readReference ((skipBlank found.2).drop 1)).map fun span =>
            ([.timestamp found.1, span.1], span.2)
        else .error ⟨.misplacedReference, skipBlank found.2⟩
      else
        (readTimestamps false (skipBlank found.2)).map fun others =>
          (.timestamp found.1 :: others.1, others.2) := by
  cases s with
  | nil => cases digit
  | cons d tail =>
    have hd : d.isDigit = true := digit
    rw [readTimestamps, dif_pos hd]
    split
    · next hclock => rw [hclock]; rfl
    · next hclock =>
      simp only [hclock, Except.bind]
      split
      · split
        · split <;> next hreference => simp only [hreference, Except.map]
        · rfl
      · split <;> next hothers => simp only [hothers, Except.map]

theorem readTimestamps_reference {s rest afterSign rest' : List Char} {clock : ClockTime}
    {token : TimeToken} (digit : s.head?.any Char.isDigit = true)
    (hclock : readTimestamp s = .ok (clock, rest)) (hsign : skipBlank rest = '@' :: afterSign)
    (hname : readReference afterSign = .ok (token, rest')) :
    readTimestamps true s = .ok ([.timestamp clock, token], rest') := by
  rw [readTimestamps_step true digit, hclock]
  simp only [Except.bind, hsign, List.head?_cons, List.drop_succ_cons, List.drop_zero, hname,
    Except.map, if_true]

theorem readTimestamps_cons (first : Bool) {s rest rest' : List Char} {clock : ClockTime}
    {others : List TimeToken} (digit : s.head?.any Char.isDigit = true)
    (hclock : readTimestamp s = .ok (clock, rest)) (hsign : (skipBlank rest).head? ≠ some '@')
    (hothers : readTimestamps false (skipBlank rest) = .ok (others, rest')) :
    readTimestamps first s = .ok (.timestamp clock :: others, rest') := by
  rw [readTimestamps_step first digit, hclock, Except.bind, if_neg hsign, hothers, Except.map]

theorem PointsText.any_isDigit_head? {s rest : List Char} {clocks : List ClockTime}
    (h : PointsText s clocks rest) : s.head?.any Char.isDigit = true := by
  cases h with
  | last text => exact text.any_isDigit_head?
  | cons first apart following => exact first.any_isDigit_head?

/-- Timestamps are read back up to the end of the group. -/
theorem PointsText.readTimestamps_eq {s rest : List Char} {clocks : List ClockTime}
    (h : PointsText s clocks rest) (follows : FollowsGroup rest) (first : Bool) :
    ∃ rest', readTimestamps first s = .ok (clocks.map .timestamp, rest') ∧
      skipBlank rest' = skipBlank rest := by
  induction h generalizing first with
  | @last s rest clock text =>
    have hsign : (skipBlank rest).head? ≠ some '@' := fun h => by cases follows '@' h
    refine ⟨skipBlank rest, ?_, skipBlank_skipBlank rest⟩
    exact readTimestamps_cons first text.any_isDigit_head?
      (text.readTimestamp_eq follows.endsTimestamp) hsign (follows.readTimestamps false)
  | @cons s afterFirst next rest clock others head apart following ih =>
    obtain ⟨rest', hothers, hrest⟩ := ih follows false
    have hdigit := following.any_isDigit_head?
    have hskip : skipBlank afterFirst = next := by
      rw [apart.layout.skipBlank_eq, skipBlank_of_digit hdigit]
    refine ⟨rest', ?_, hrest⟩
    apply readTimestamps_cons first head.any_isDigit_head?
      (head.readTimestamp_eq apart.endsTimestamp)
    · rw [hskip]
      exact head?_ne_of_digit hdigit rfl
    · rw [hskip]
      exact hothers

/-- The times of a group are read back. -/
theorem TimesText.readTimes_eq {s rest : List Char} {times : List TimeToken}
    (h : TimesText s times rest) (follows : FollowsGroup rest) :
    ∃ rest', readTimes s = .ok (times, rest') ∧ skipBlank rest' = skipBlank rest := by
  cases h with
  | none =>
    have hsign : (skipBlank s).head? ≠ some '@' := fun h => by cases follows '@' h
    refine ⟨skipBlank s, ?_, skipBlank_skipBlank s⟩
    rw [readTimes, if_neg hsign, follows.readTimestamps true]
  | reference reference =>
    obtain ⟨afterSign, rest', hsign, hname, hrest⟩ := reference.readReference_eq follows
    refine ⟨rest', ?_, hrest⟩
    simp only [readTimes, hsign, List.head?_cons, List.drop_succ_cons, List.drop_zero, hname]
    rfl
  | @span point afterPoint _ clock token before text reference =>
    obtain ⟨afterSign, rest', hsign, hname, hrest⟩ := reference.readReference_eq follows
    have hdigit := text.any_isDigit_head?
    have hclock := text.readTimestamp_eq <| endsTimestamp_of_skipBlank (by
      rw [hsign]
      rintro c ⟨⟩
      rfl)
    refine ⟨rest', ?_, hrest⟩
    rw [readTimes, before.skipBlank_eq, skipBlank_of_digit hdigit,
      if_neg (head?_ne_of_digit hdigit rfl)]
    exact readTimestamps_reference hdigit hclock hsign hname
  | points before text =>
    obtain ⟨rest', hread, hrest⟩ := text.readTimestamps_eq follows true
    have hdigit := text.any_isDigit_head?
    refine ⟨rest', ?_, hrest⟩
    rw [readTimes, before.skipBlank_eq, skipBlank_of_digit hdigit,
      if_neg (head?_ne_of_digit hdigit rfl), hread]

end EpisodeCut.Config
