import EpisodeCut.Proofs.Config.Recognized
import EpisodeCut.Proofs.Timecode.Exact

/-!
# Timestamps of any size

A timestamp as it is written (`Stamp`): up to three runs of digits of any length, and perhaps a
fraction. It denotes a rational number of seconds (`Stamp.inSeconds`), and it is in range if the
whole milliseconds in them fit in 64 bits. `StampedText` derives configurations whatever the size of
their timestamps: such a text is accepted if and only if all of them are in range, and then they are
converted exactly (`times_exact`). A field that does not fit makes the whole timestamp too large, so
no timestamp in range is refused for one of its fields (`Stamp.fit_of_inRange`).
-/

set_option autoImplicit false

namespace EpisodeCut

open Text

namespace Config

/-! ## Written timestamps -/

/-- A run of digits of any length. -/
structure Digits where
  text : List Char
  nonempty : text ≠ []
  inside : ∀ c ∈ text, c.isDigit = true

namespace Digits

/-- The number that the digits denote. -/
def value (run : Digits) : Nat :=
  Numeral.value run.text

theorem any_isDigit_head? (run : Digits) (s : List Char) :
    (run.text ++ s).head?.any Char.isDigit = true :=
  NumeralText.any_isDigit_head? ⟨run.text, run.nonempty, run.inside, rfl, rfl⟩

theorem numeralText {run : Digits} (fits : run.value < UInt64.size) (s : List Char) :
    NumeralText (run.text ++ s) (UInt64.ofNat run.value).toNat s :=
  ⟨run.text, run.nonempty, run.inside, (UInt64.toNat_ofNat_of_lt' fits).symm, rfl⟩

end Digits

/-- The fields of a timestamp, of which the leading ones may be left out. -/
inductive Fields where
  | seconds (seconds : Digits)
  | minutes (minutes seconds : Digits)
  | hours (hours minutes seconds : Digits)

namespace Fields

/-- The text of the fields, separated by colons. -/
def text : Fields → List Char
  | seconds s => s.text
  | minutes m s => m.text ++ ':' :: s.text
  | hours h m s => h.text ++ ':' :: (m.text ++ ':' :: s.text)

/-- The runs of digits, in their order. -/
def runs : Fields → List Digits
  | seconds s => [s]
  | minutes m s => [m, s]
  | hours h m s => [h, m, s]

/-- The number of seconds that the fields denote. -/
def inSeconds : Fields → Nat
  | seconds s => s.value
  | minutes m s => m.value * 60 + s.value
  | hours h m s => (h.value * 60 + m.value) * 60 + s.value

/-- The clock reading of the fields. -/
def clock : Fields → ClockTime
  | seconds s => ⟨0, 0, UInt64.ofNat s.value, 0⟩
  | minutes m s => ⟨0, UInt64.ofNat m.value, UInt64.ofNat s.value, 0⟩
  | hours h m s => ⟨UInt64.ofNat h.value, UInt64.ofNat m.value, UInt64.ofNat s.value, 0⟩

/-- Every field fits in 64 bits. -/
def Fit (fields : Fields) : Prop :=
  ∀ run ∈ fields.runs, run.value < UInt64.size

theorem value_le_inSeconds {fields : Fields} {run : Digits} (h : run ∈ fields.runs) :
    run.value ≤ fields.inSeconds := by
  cases fields <;>
    simp only [runs, List.mem_cons, List.not_mem_nil, or_false, inSeconds] at h ⊢
  case seconds => rw [h]
  case minutes => rcases h with rfl | rfl <;> omega
  case hours => rcases h with rfl | rfl | rfl <;> omega

theorem any_isDigit_head? (fields : Fields) (s : List Char) :
    (fields.text ++ s).head?.any Char.isDigit = true := by
  cases fields with
  | seconds first => exact first.any_isDigit_head? s
  | minutes first last =>
    rw [text, List.append_assoc]
    exact first.any_isDigit_head? _
  | hours first second last =>
    rw [text, List.append_assoc]
    exact first.any_isDigit_head? _

theorem fieldsText {fields : Fields} (fit : fields.Fit) (s : List Char) :
    FieldsText (fields.text ++ s) fields.clock s := by
  cases fields with
  | seconds last => exact .seconds (last.numeralText (fit last (by simp [runs])) s)
  | minutes first last =>
    rw [text, List.append_assoc]
    exact .minutes (first.numeralText (fit first (by simp [runs])) _)
      (last.numeralText (fit last (by simp [runs])) s)
  | hours first second last =>
    rw [text, List.append_assoc, List.cons_append, List.append_assoc]
    exact .hours (first.numeralText (fit first (by simp [runs])) _)
      (second.numeralText (fit second (by simp [runs])) _)
      (last.numeralText (fit last (by simp [runs])) s)

/-- Fields of which one does not fit are refused at the beginning of the timestamp. -/
theorem readClockFields_error {fields : Fields} (large : ¬fields.Fit) {s : List Char}
    (stop : ∀ c ∈ s.head?, c.isDigit = false ∧ c ≠ ':') (start : List Char) :
    readClockFields start .zero 2 (fields.text ++ s) = .error ⟨.fieldTooLarge, start⟩ := by
  cases fields with
  | seconds last =>
    rw [text, readClockFields_last start .zero 2 last.inside stop, if_neg]
    intro fits
    exact large (List.forall_mem_singleton.2 fits)
  | minutes first last =>
    rw [text, List.append_assoc, List.cons_append,
      readClockFields_colon start .zero 1 first.inside (last.any_isDigit_head? s),
      readClockFields_last start _ 1 last.inside stop]
    split
    · next hfirst =>
      rw [if_neg]
      intro hlast
      exact large (by simp [Fit, runs, Digits.value, hfirst, hlast])
    · rfl
  | hours first second last =>
    rw [text, List.append_assoc, List.cons_append, List.append_assoc, List.cons_append,
      readClockFields_colon start .zero 1 first.inside (second.any_isDigit_head? _),
      readClockFields_colon start _ 0 second.inside (last.any_isDigit_head? s),
      readClockFields_last start _ 0 last.inside stop]
    split
    · next hfirst =>
      split
      · next hsecond =>
        rw [if_neg]
        intro hlast
        exact large (by simp [Fit, runs, Digits.value, hfirst, hsecond, hlast])
      · rfl
    · rfl

end Fields

/-- A timestamp as it is written, of any size. -/
structure Stamp where
  fields : Fields
  fraction : Option Digits

namespace Stamp

/-- The text of the fraction with its point, if there is one. -/
def fractionText (stamp : Stamp) : List Char :=
  match stamp.fraction with
  | none => []
  | some places => '.' :: places.text

/-- The text of a timestamp. -/
def text (stamp : Stamp) : List Char :=
  stamp.fields.text ++ stamp.fractionText

/-- The number of seconds that a timestamp denotes. -/
def inSeconds (stamp : Stamp) : ℚ :=
  match stamp.fraction with
  | none => stamp.fields.inSeconds
  | some places => stamp.fields.inSeconds + places.value / 10 ^ places.text.length

/-- The whole milliseconds in the fraction. -/
def fractionMillis (stamp : Stamp) : Nat :=
  match stamp.fraction with
  | none => 0
  | some places => places.value * 1000 / 10 ^ places.text.length

/-- The clock reading of a timestamp. -/
def clock (stamp : Stamp) : ClockTime :=
  { stamp.fields.clock with millis := UInt64.ofNat stamp.fractionMillis }

/-- The whole milliseconds in a timestamp fit in 64 bits. -/
def InRange (stamp : Stamp) : Prop :=
  ⌊1000 * stamp.inSeconds⌋₊ < UInt64.size

theorem any_isDigit_head? (stamp : Stamp) (s : List Char) :
    (stamp.text ++ s).head?.any Char.isDigit = true := by
  rw [text, List.append_assoc]
  exact stamp.fields.any_isDigit_head? _

theorem fractionMillis_lt (stamp : Stamp) : stamp.fractionMillis < UInt64.size := by
  rw [fractionMillis]
  split
  · decide
  · next places _ =>
    have hmillis := Timecode.fractionMillis_lt places.inside
    rw [Timecode.fractionMillis_eq places.inside] at hmillis
    exact Nat.lt_trans hmillis (by decide)

theorem floor_inSeconds (stamp : Stamp) :
    ⌊1000 * stamp.inSeconds⌋₊ = stamp.fields.inSeconds * 1000 + stamp.fractionMillis := by
  rw [inSeconds, fractionMillis]
  split
  · simpa using floor_millis stamp.fields.inSeconds 0 0
  · next places _ => exact floor_millis stamp.fields.inSeconds places.value places.text.length

/-- A field that does not fit makes the timestamp too large. -/
theorem fit_of_inRange {stamp : Stamp} (inRange : stamp.InRange) : stamp.fields.Fit := by
  intro run hrun
  have hrun := Fields.value_le_inSeconds hrun
  rw [InRange, floor_inSeconds] at inRange
  omega

/-- The clock reading denotes the whole milliseconds in the timestamp, if its fields fit. -/
theorem totalMillis_clock {stamp : Stamp} (fit : stamp.fields.Fit) :
    stamp.clock.totalMillis = ⌊1000 * stamp.inSeconds⌋₊ := by
  rw [floor_inSeconds]
  obtain ⟨fields, fraction⟩ := stamp
  have hword {run : Digits} (h : run ∈ fields.runs) : (UInt64.ofNat run.value).toNat = run.value :=
    UInt64.toNat_ofNat_of_lt' (fit run h)
  have hzero : (0 : UInt64).toNat = 0 := rfl
  have hmillis := UInt64.toNat_ofNat_of_lt' (fractionMillis_lt ⟨fields, fraction⟩)
  cases fields <;>
    simp only [clock, ClockTime.totalMillis, Fields.clock, Fields.inSeconds, hmillis, hzero,
      Nat.zero_mul, Nat.zero_add]
  case seconds s => rw [hword (by simp [Fields.runs])]
  case minutes m s => rw [hword (by simp [Fields.runs]), hword (by simp [Fields.runs])]
  case hours h m s =>
    rw [hword (by simp [Fields.runs]), hword (by simp [Fields.runs]), hword (by simp [Fields.runs])]

theorem clock_none (fields : Fields) : clock ⟨fields, none⟩ = fields.clock := by
  cases fields <;> rfl

theorem millis_clock (stamp : Stamp) : stamp.clock.millis.toNat = stamp.fractionMillis :=
  UInt64.toNat_ofNat_of_lt' stamp.fractionMillis_lt

/-- A timestamp in range is derived by the grammar. -/
theorem clockText {stamp : Stamp} (inRange : stamp.InRange) (s : List Char) :
    ClockText (stamp.text ++ s) stamp.clock s := by
  have fit := fit_of_inRange inRange
  have htotal : stamp.clock.totalMillis < UInt64.size := (totalMillis_clock fit).trans_lt inRange
  rw [text, List.append_assoc]
  obtain ⟨fields, fraction⟩ := stamp
  cases fraction with
  | none =>
    rw [clock_none] at htotal ⊢
    exact .whole (Fields.fieldsText fit s) htotal
  | some places =>
    exact .fraction (Fields.fieldsText fit _) places.nonempty places.inside (millis_clock _) htotal

/-- A timestamp whose fields fit is read to its clock reading, which has to be in range. -/
theorem readTimestamp_of_fit {stamp : Stamp} (fit : stamp.fields.Fit) {s : List Char}
    (stop : ∀ c ∈ s.head?, endsTimestamp c = true) :
    readTimestamp (stamp.text ++ s) = if stamp.clock.toTimecode?.isSome then .ok (stamp.clock, s)
      else .error ⟨.timestampTooLarge, stamp.text ++ s⟩ := by
  rw [text, List.append_assoc]
  obtain ⟨fields, fraction⟩ := stamp
  cases fraction with
  | none =>
    rw [clock_none]
    exact (Fields.fieldsText fit s).readTimestamp_whole stop
  | some places =>
    exact (Fields.fieldsText fit _).readTimestamp_fraction places.nonempty places.inside stop
      (millis_clock _)

/-- What stands behind the fields is neither a digit nor a colon. -/
theorem head?_fractionText (stamp : Stamp) {s : List Char}
    (stop : ∀ c ∈ s.head?, endsTimestamp c = true) :
    ∀ c ∈ (stamp.fractionText ++ s).head?, c.isDigit = false ∧ c ≠ ':' := by
  intro c hc
  rw [fractionText] at hc
  split at hc
  · refine ⟨isDigit_eq_false_of_endsTimestamp (stop c hc), ?_⟩
    rintro rfl
    cases stop _ hc
  · cases hc
    decide

/-- A timestamp that is not in range is refused where it begins. -/
theorem readTimestamp_error {stamp : Stamp} (large : ¬stamp.InRange) {s : List Char}
    (stop : ∀ c ∈ s.head?, endsTimestamp c = true) :
    ∃ fault, readTimestamp (stamp.text ++ s) = .error ⟨fault, stamp.text ++ s⟩ := by
  by_cases fit : stamp.fields.Fit
  · refine ⟨.timestampTooLarge, ?_⟩
    rw [readTimestamp_of_fit fit stop, if_neg]
    rw [isSome_toTimecode?, totalMillis_clock fit]
    exact large
  · have htext : stamp.text ++ s = stamp.fields.text ++ (stamp.fractionText ++ s) :=
      List.append_assoc _ _ _
    have hfields := Fields.readClockFields_error fit (stamp.head?_fractionText stop)
      (stamp.text ++ s)
    rw [← htext] at hfields
    exact ⟨.fieldTooLarge, by simp only [readTimestamp, hfields, bind, Except.bind]⟩

end Stamp

/-! ## Configurations whatever the size of their timestamps -/

/-- `s` is timestamps with layout between them, and then `rest`. -/
inductive StampsText : List Char → List Stamp → List Char → Prop where
  | last (stamp : Stamp) (rest : List Char) : StampsText (stamp.text ++ rest) [stamp] rest
  | cons (stamp : Stamp) {afterFirst next rest : List Char} {others : List Stamp}
      (apart : Separation afterFirst next) (following : StampsText next others rest) :
      StampsText (stamp.text ++ afterFirst) (stamp :: others) rest

/-- `s` is the times of a group, in which the timestamps stand, and then `rest`. -/
inductive StampedTimesText :
    List Char → List Stamp → List TimeToken → List Char → Prop where
  | none {s : List Char} : StampedTimesText s [] [] s
  | reference {s rest : List Char} {token : TimeToken} (reference : ReferenceText s token rest) :
      StampedTimesText s [] [.timestamp .zero, token] rest
  | span (stamp : Stamp) {s afterPoint rest : List Char} {token : TimeToken}
      (before : Layout s (stamp.text ++ afterPoint))
      (reference : ReferenceText afterPoint token rest) :
      StampedTimesText s [stamp] [.timestamp stamp.clock, token] rest
  | points {s first rest : List Char} {stamps : List Stamp} (before : Layout s first)
      (text : StampsText first stamps rest) :
      StampedTimesText s stamps (stamps.map fun stamp => .timestamp stamp.clock) rest

/-- `s` is a configuration, in which the timestamps stand, that makes the specifications if all of
the timestamps are in range. -/
inductive StampedText : List Char → List Stamp → List InputSpec → Prop where
  | nil {s : List Char} (blank : Blank s) : StampedText s [] []
  | cons {s afterOpen afterInputs afterClose rest : List Char} {inputs : List Input}
      {times : List TimeToken} {stamps others : List Stamp} {specs : List InputSpec}
      (opening : Layout s ('[' :: afterOpen))
      (heads : InputsText .accepted afterOpen inputs afterInputs)
      (closing : Layout afterInputs (']' :: afterClose))
      (timing : StampedTimesText afterClose stamps times rest)
      (following : StampedText rest others specs) :
      StampedText s (stamps ++ others)
        ((inputs.map fun i => ⟨i.kind, i.source, i.index, times⟩) ++ specs)

/-! ### Timestamps in range -/

theorem StampsText.pointsText {s rest : List Char} {stamps : List Stamp}
    (h : StampsText s stamps rest) (inRange : ∀ stamp ∈ stamps, stamp.InRange) :
    PointsText s (stamps.map Stamp.clock) rest := by
  induction h with
  | last stamp rest => exact .last (Stamp.clockText (inRange stamp List.mem_cons_self) rest)
  | cons stamp apart following ih =>
    rw [List.forall_mem_cons] at inRange
    exact .cons (Stamp.clockText inRange.1 _) apart (ih inRange.2)

theorem StampedTimesText.timesText {s rest : List Char} {stamps : List Stamp}
    {times : List TimeToken} (h : StampedTimesText s stamps times rest)
    (inRange : ∀ stamp ∈ stamps, stamp.InRange) : TimesText s times rest := by
  cases h with
  | none => exact .none
  | reference reference => exact .reference reference
  | span stamp before reference =>
    exact .span before (Stamp.clockText (inRange stamp List.mem_cons_self) _) reference
  | points before text =>
    have hpoints := TimesText.points before (text.pointsText inRange)
    rwa [List.map_map] at hpoints

/-- Where all timestamps are in range, the text is a configuration. -/
theorem StampedText.configText {s : List Char} {stamps : List Stamp} {specs : List InputSpec}
    (h : StampedText s stamps specs) (inRange : ∀ stamp ∈ stamps, stamp.InRange) :
    ConfigText .accepted s specs := by
  induction h with
  | nil blank => exact .nil blank
  | cons opening heads closing timing following ih =>
    rw [List.forall_mem_append] at inRange
    exact .cons (.group opening heads closing (timing.timesText inRange.1)) (ih inRange.2)

/-! ### Timestamps that are too large -/

theorem StampsText.any_isDigit_head? {s rest : List Char} {stamps : List Stamp}
    (h : StampsText s stamps rest) : s.head?.any Char.isDigit = true := by
  cases h with
  | last stamp => exact stamp.any_isDigit_head? _
  | cons stamp => exact stamp.any_isDigit_head? _

theorem StampedText.followsGroup {s : List Char} {stamps : List Stamp} {specs : List InputSpec}
    (h : StampedText s stamps specs) : FollowsGroup s := by
  intro c hc
  cases h with
  | nil blank =>
    rw [blank.skipBlank_eq] at hc
    cases hc
  | cons opening =>
    rw [opening.skipBlank_cons (by decide)] at hc
    cases hc
    rfl

/-- Timestamps are refused at the first one that is too large. -/
theorem StampsText.readTimestamps_error {s rest : List Char} {stamps : List Stamp}
    (h : StampsText s stamps rest) (follows : FollowsGroup rest)
    (large : ∃ stamp ∈ stamps, ¬stamp.InRange) (first : Bool) :
    ∃ stop, readTimestamps first s = .error stop := by
  induction h generalizing first with
  | last stamp rest =>
    simp only [List.mem_singleton, exists_eq_left] at large
    obtain ⟨fault, hread⟩ := Stamp.readTimestamp_error large follows.endsTimestamp
    rw [readTimestamps_step first (stamp.any_isDigit_head? rest), hread]
    exact ⟨_, rfl⟩
  | @cons stamp afterFirst next rest others apart following ih =>
    rw [readTimestamps_step first (stamp.any_isDigit_head? afterFirst)]
    by_cases inRange : stamp.InRange
    · rw [List.exists_mem_cons_iff, or_iff_right (not_not_intro inRange)] at large
      obtain ⟨stop, hothers⟩ := ih follows large false
      have hdigit := following.any_isDigit_head?
      have hskip : skipBlank afterFirst = next := by
        rw [apart.layout.skipBlank_eq, skipBlank_of_digit hdigit]
      refine ⟨stop, ?_⟩
      rw [(Stamp.clockText inRange afterFirst).readTimestamp_eq apart.endsTimestamp, Except.bind,
        hskip, if_neg (head?_ne_of_digit hdigit rfl), hothers]
      rfl
    · obtain ⟨fault, hread⟩ := Stamp.readTimestamp_error inRange apart.endsTimestamp
      rw [hread]
      exact ⟨_, rfl⟩

theorem StampedTimesText.readTimes_error {s rest : List Char} {stamps : List Stamp}
    {times : List TimeToken} (h : StampedTimesText s stamps times rest)
    (follows : FollowsGroup rest) (large : ∃ stamp ∈ stamps, ¬stamp.InRange) :
    ∃ stop, readTimes s = .error stop := by
  cases h with
  | none => simp at large
  | reference => simp at large
  | @span stamp _ afterPoint _ _ before reference =>
    simp only [List.mem_singleton, exists_eq_left] at large
    obtain ⟨afterSign, rest', hsign, -, -⟩ := reference.readReference_eq follows
    obtain ⟨fault, hread⟩ := Stamp.readTimestamp_error large (s := afterPoint) <|
      endsTimestamp_of_skipBlank (by
        rw [hsign]
        rintro c ⟨⟩
        rfl)
    have hdigit := stamp.any_isDigit_head? afterPoint
    rw [readTimes, before.skipBlank_eq, skipBlank_of_digit hdigit,
      if_neg (head?_ne_of_digit hdigit rfl), readTimestamps_step true hdigit, hread]
    exact ⟨_, rfl⟩
  | points before text =>
    have hdigit := text.any_isDigit_head?
    rw [readTimes, before.skipBlank_eq, skipBlank_of_digit hdigit,
      if_neg (head?_ne_of_digit hdigit rfl)]
    exact text.readTimestamps_error follows large true

/-- A group is refused where its times are. -/
theorem readGroup_times_error {afterOpen afterInputs afterClose : List Char} {inputs : List Input}
    {stop : Stop} (heads : InputsText .accepted afterOpen inputs afterInputs)
    (closing : Layout afterInputs (']' :: afterClose))
    (htimes : readTimes afterClose = .error stop) : readGroup ('[' :: afterOpen) = .error stop := by
  have hopen : expect '[' ('[' :: afterOpen) = .ok afterOpen := rfl
  have hclose := closing.skipBlank_cons (by decide)
  obtain ⟨rest, hinputs, hrest⟩ := heads.readInputs_eq rfl ⟨_, hclose⟩
  rw [hclose] at hrest
  simp only [readGroup, hopen, expect_of_skipBlank hrest, hinputs, htimes, bind, Except.bind]

/-- Where a timestamp is too large, the text is refused. -/
theorem StampedText.readGroups_error {s : List Char} {stamps : List Stamp}
    {specs : List InputSpec} (h : StampedText s stamps specs)
    (large : ∃ stamp ∈ stamps, ¬stamp.InRange) : ∃ stop, readGroups s = .error stop := by
  induction h with
  | nil => simp at large
  | @cons s afterOpen afterInputs afterClose rest inputs times stamps others specs opening heads
      closing timing following ih =>
    have hopen := opening.skipBlank_cons (by decide)
    have follows := following.followsGroup
    rw [readGroups_open hopen]
    by_cases inRange : ∀ stamp ∈ stamps, stamp.InRange
    · -- The first group is read, and the timestamp that is too large stands behind it.
      have hothers : ∃ stamp ∈ others, ¬stamp.InRange := by
        obtain ⟨stamp, hmem, hlarge⟩ := large
        rcases List.mem_append.1 hmem with hmem | hmem
        · exact absurd (inRange stamp hmem) hlarge
        · exact ⟨stamp, hmem, hlarge⟩
      obtain ⟨stop, hrest⟩ := ih hothers
      have first : GroupText .accepted s _ rest :=
        .group opening heads closing (timing.timesText inRange)
      obtain ⟨rest', hgroup, hafter⟩ := first.readGroup_eq rfl follows (skipBlank_skipBlank s)
      rw [hopen] at hgroup
      rw [hgroup, Except.bind, readGroups_congr hafter, hrest]
      exact ⟨stop, rfl⟩
    · simp only [not_forall] at inRange
      obtain ⟨stamp, hmem, hlarge⟩ := inRange
      obtain ⟨stop, htimes⟩ := timing.readTimes_error follows ⟨stamp, hmem, hlarge⟩
      rw [readGroup_times_error heads closing htimes]
      exact ⟨stop, rfl⟩

/-! ## Exactness -/

theorem StampedText.parse_eq {text : String} {stamps : List Stamp} {specs : List InputSpec}
    (h : StampedText text.toList stamps specs) (inRange : ∀ stamp ∈ stamps, stamp.InRange) :
    parse text = .ok specs :=
  parse_eq_ok_iff.2 (h.configText inRange)

theorem StampedText.inRange_of_parse {text : String} {stamps : List Stamp}
    {specs found : List InputSpec} (h : StampedText text.toList stamps specs)
    (accepted : parse text = .ok found) : ∀ stamp ∈ stamps, stamp.InRange := by
  intro stamp hmem
  apply Classical.byContradiction
  intro hlarge
  obtain ⟨stop, hgroups⟩ := h.readGroups_error ⟨stamp, hmem, hlarge⟩
  rw [parse, hgroups] at accepted
  cases accepted

/-- A timestamp in range is converted to the whole milliseconds in it. -/
theorem Stamp.toTimecode?_clock {stamp : Stamp} (inRange : stamp.InRange) :
    ∃ t, stamp.clock.toTimecode? = some t ∧ t.toNat = ⌊1000 * stamp.inSeconds⌋₊ := by
  have htotal := Stamp.totalMillis_clock (Stamp.fit_of_inRange inRange)
  obtain ⟨millis, hmillis⟩ := Timecode.exists_word inRange
  exact ⟨⟨millis⟩, ClockTime.toTimecode?_eq_some_iff.2 (hmillis.trans htotal.symm), hmillis⟩

/-- Times are read exactly up to the last millisecond that fits in 64 bits, as decimal seconds, from
the fields of a clock reading, and as timestamps of a configuration: a time is refused only if the
whole milliseconds in it do not fit. -/
theorem times_exact :
    (∀ text : String,
      ((∃ t, Timecode.ofText? text = some t) ↔
        ∃ v : ℚ, Decimal.Denotes (trim text.toList) v ∧ ⌊1000 * v⌋₊ < UInt64.size) ∧
      ∀ (t : Timecode) (v : ℚ), Timecode.ofText? text = some t →
        Decimal.Denotes (trim text.toList) v → t.toNat = ⌊1000 * v⌋₊) ∧
    (∀ clock : ClockTime,
      ((∃ t, clock.toTimecode? = some t) ↔ clock.totalMillis < UInt64.size) ∧
      ∀ t, clock.toTimecode? = some t → t.toNat = clock.totalMillis) ∧
    ∀ (text : String) (stamps : List Stamp) (specs : List InputSpec),
      StampedText text.toList stamps specs →
        ((∃ found, parse text = .ok found) ↔
          ∀ stamp ∈ stamps, ⌊1000 * stamp.inSeconds⌋₊ < UInt64.size) ∧
        ∀ found, parse text = .ok found → found = specs ∧
          ∀ stamp ∈ stamps, ∃ t, stamp.clock.toTimecode? = some t ∧
            t.toNat = ⌊1000 * stamp.inSeconds⌋₊ := by
  refine ⟨fun text => ⟨?_, ?_⟩, fun clock => ⟨?_, ?_⟩, fun text stamps specs h => ⟨?_, ?_⟩⟩
  · simp only [Timecode.ofText?_eq_some_iff]
    constructor
    · rintro ⟨t, v, denotes, htotal⟩
      exact ⟨v, denotes, htotal ▸ t.toNat_lt⟩
    · rintro ⟨v, denotes, fits⟩
      obtain ⟨millis, hmillis⟩ := Timecode.exists_word fits
      exact ⟨⟨millis⟩, v, denotes, hmillis⟩
  · intro t v hread denotes
    obtain ⟨w, hw, htotal⟩ := Timecode.ofText?_eq_some_iff.1 hread
    have hv : v = w := Option.some.inj
      ((Timecode.denotes_iff.1 denotes).symm.trans (Timecode.denotes_iff.1 hw))
    rw [hv, htotal]
  · simp only [ClockTime.toTimecode?_eq_some_iff]
    constructor
    · rintro ⟨t, htotal⟩
      exact htotal ▸ t.toNat_lt
    · intro fits
      obtain ⟨millis, hmillis⟩ := Timecode.exists_word fits
      exact ⟨⟨millis⟩, hmillis⟩
  · exact fun t => ClockTime.toTimecode?_eq_some_iff.1
  · constructor
    · rintro ⟨found, accepted⟩
      exact h.inRange_of_parse accepted
    · exact fun inRange => ⟨specs, h.parse_eq inRange⟩
  · intro found accepted
    have inRange := h.inRange_of_parse accepted
    rw [h.parse_eq inRange] at accepted
    cases accepted
    exact ⟨rfl, fun stamp hmem => Stamp.toTimecode?_clock (inRange stamp hmem)⟩

/-- One input with one timestamp of any size. -/
theorem stampedText_audio (stamp : Stamp) :
    StampedText ("[a:x] ".toList ++ stamp.text) [stamp]
      [⟨.audio, some (.file "x"), none, [.timestamp stamp.clock]⟩] := by
  have input : InputText .accepted false (['a', ':', 'x', ']', ' '] ++ stamp.text)
      ⟨.audio, some (.file "x"), none⟩ ([']', ' '] ++ stamp.text) :=
    .sourced ⟨['a'], by decide, Layout.refl _⟩ (Layout.refl _)
      (.file ⟨'x', [], rfl, by simp, by simp⟩ (Layout.refl _))
  have times : StampedTimesText (' ' :: stamp.text) [stamp] [.timestamp stamp.clock] [] := by
    have text := StampsText.last stamp []
    rw [List.append_nil] at text
    exact .points ⟨[.blank ' ' rfl], rfl⟩ text
  exact .cons (Layout.refl _) (.last input) (Layout.refl _) times (.nil ⟨[], .inl rfl⟩)

/-- The last millisecond is read in all three ways, and a timestamp one millisecond later is
refused. -/
theorem times_exact_last :
    (∃ t, Timecode.ofText? "18446744073709551.6159" = some t ∧ t.toNat = 18446744073709551615) ∧
      (∃ t, ClockTime.toTimecode? ⟨5124095576030, 25, 51, 615⟩ = some t ∧
        t.toNat = 18446744073709551615) ∧
      (∃ found, parse "[a:x] 5124095576030:25:51.615" = .ok found) ∧
      ¬∃ found, parse "[a:x] 5124095576030:25:51.616" = .ok found := by
  refine ⟨?_, ?_, ?_⟩
  · have denotes : Decimal.Denotes (trim "18446744073709551.6159".toList) _ :=
      @Decimal.Denotes.point "18446744073709551".toList "6159".toList (by decide)
        (List.all_eq_true.1 rfl) (List.all_eq_true.1 rfl)
    have hfloor := floor_millis (Numeral.value "18446744073709551".toList)
      (Numeral.value "6159".toList) "6159".toList.length
    have hmillis : Numeral.value "18446744073709551".toList * 1000 +
        Numeral.value "6159".toList * 1000 / 10 ^ "6159".toList.length = 18446744073709551615 := by
      decide
    rw [hmillis] at hfloor
    obtain ⟨hsome, hexact⟩ := times_exact.1 "18446744073709551.6159"
    obtain ⟨t, hread⟩ := hsome.2 ⟨_, denotes, by rw [hfloor]; decide⟩
    exact ⟨t, hread, (hexact t _ hread denotes).trans hfloor⟩
  · obtain ⟨hsome, hexact⟩ := times_exact.2.1 ⟨5124095576030, 25, 51, 615⟩
    obtain ⟨t, hread⟩ := hsome.2 (by decide)
    exact ⟨t, hread, hexact t hread⟩
  · let fields : Fields := .hours ⟨"5124095576030".toList, by decide, List.all_eq_true.1 rfl⟩
      ⟨"25".toList, by decide, List.all_eq_true.1 rfl⟩
      ⟨"51".toList, by decide, List.all_eq_true.1 rfl⟩
    have hlast := times_exact.2.2 "[a:x] 5124095576030:25:51.615" _ _
      (stampedText_audio ⟨fields, some ⟨"615".toList, by decide, List.all_eq_true.1 rfl⟩⟩)
    have hnext := times_exact.2.2 "[a:x] 5124095576030:25:51.616" _ _
      (stampedText_audio ⟨fields, some ⟨"616".toList, by decide, List.all_eq_true.1 rfl⟩⟩)
    rw [hlast.1, hnext.1]
    simp only [List.forall_mem_singleton, Stamp.floor_inSeconds]
    decide

end Config

end EpisodeCut
