import EpisodeCut.Probe
import EpisodeCut.Timeline.Defaults
import EpisodeCut.Segment

/-!
# Rules for ranges

What specifications ask for, said without reference to how they are carried out. A rule relates the
number of the next segment and the world before it to what comes of it and the world after it: the
segments that are made, or a failure. The rules for ranges (`RangeRule`) and for specifications
(`SpecRule`) are put together by following a rule for one thing after another until one of them fails
(`InTurn`). There is a rule for every case (`SpecRule.total`, `InTurn.total`).
-/

set_option autoImplicit false

namespace EpisodeCut.Timeline

variable {σ α : Type}

/-! ## One thing after another -/

/-- Follow a rule for one thing after another and collect the segments. Every segment takes a number,
and the first failure is the end. -/
inductive InTurn (rule : α → Nat → σ → Except Failure (List Segment) → σ → Prop) :
    List α → Nat → σ → Except Failure (List Segment) → σ → Prop
  | done {number : Nat} {world : σ} : InTurn rule [] number world (.ok []) world
  | made {first : α} {rest : List α} {number : Nat} {world middle later : σ}
      {segments others : List Segment} :
      rule first number world (.ok segments) middle →
      InTurn rule rest (number + segments.length) middle (.ok others) later →
      InTurn rule (first :: rest) number world (.ok (segments ++ others)) later
  | failsLater {first : α} {rest : List α} {number : Nat} {world middle later : σ}
      {segments : List Segment} {failure : Failure} :
      rule first number world (.ok segments) middle →
      InTurn rule rest (number + segments.length) middle (.error failure) later →
      InTurn rule (first :: rest) number world (.error failure) later
  | fails {first : α} {rest : List α} {number : Nat} {world later : σ} {failure : Failure} :
      rule first number world (.error failure) later →
      InTurn rule (first :: rest) number world (.error failure) later

/-! ## Ranges -/

/-- The point at which a range begins. The duration of a file is no point. -/
inductive BeginsAt : TimeToken → Except Failure Timecode → Prop
  | point {clock : ClockTime} {punchIn : Timecode} :
      punchIn.toNat = clock.totalMillis → BeginsAt (.timestamp clock) (.ok punchIn)
  | tooLarge {clock : ClockTime} :
      UInt64.size ≤ clock.totalMillis →
      BeginsAt (.timestamp clock) (.error (.timestampTooLarge clock))
  | reference {file : String} : BeginsAt (.durationOf file) (.error (.referenceAsPunchIn file))

/-- The point at which a range ends that began at `punchIn`: the end of the stream, a point in time,
or a point as far away as a file is long. -/
inductive EndsAt (probe : Probe σ) (number : Nat) (duration punchIn : Timecode) :
    Option TimeToken → σ → Except Failure Timecode → σ → Prop
  | stream {world : σ} : EndsAt probe number duration punchIn none world (.ok duration) world
  | point {clock : ClockTime} {punchOut : Timecode} {world : σ} :
      punchOut.toNat = clock.totalMillis →
      EndsAt probe number duration punchIn (some (.timestamp clock)) world (.ok punchOut) world
  | tooLarge {clock : ClockTime} {world : σ} :
      UInt64.size ≤ clock.totalMillis →
      EndsAt probe number duration punchIn (some (.timestamp clock)) world
        (.error (.timestampTooLarge clock)) world
  | reference {file : String} {length punchOut : Timecode} {world later : σ} :
      probe.present file world = true → probe.duration file world = .ok length later →
      punchOut.toNat = min (punchIn.toNat + length.toNat) (UInt64.size - 1) →
      EndsAt probe number duration punchIn (some (.durationOf file)) world (.ok punchOut) later
  | missing {file : String} {world : σ} :
      probe.present file world = false →
      EndsAt probe number duration punchIn (some (.durationOf file)) world
        (.error (.missingReference number file)) world
  | unreadable {file : String} {cause : Failure} {world later : σ} :
      probe.present file world = true → probe.duration file world = .error cause later →
      EndsAt probe number duration punchIn (some (.durationOf file)) world
        (.error (.unreadableReference number file cause)) later

/-- The input that a segment opens and what it plays of it. An image that has still to be made is
registered under a name with the number of the segment. -/
inductive Plays (number : Nat) : MediaKind → SourceRef → FrameNumber → String → SegmentBody → Prop
  | audio {file : String} {stream : UInt32} :
      Plays number .audio (.file file) (.index stream) file (.audio stream)
  | video {file : String} {stream : UInt32} :
      Plays number .video (.file file) (.index stream) file (.video stream)
  | image {file : String} {index : FrameNumber} :
      FrameSource.isDocument file = false →
      Plays number .frame (.file file) index file (.frame index (.resolved file))
  | page {file : String} {index : FrameNumber} :
      FrameSource.isDocument file = true →
      Plays number .frame (.file file) index (file ++ "#" ++ Text.Numeral.text number)
        (.frame index (.pending (.document file index)))
  | previous {index : FrameNumber} :
      Plays number .frame .previousSegment index ("^" ++ "#" ++ Text.Numeral.text number)
        (.frame index (.pending .previousSegment))

/-- What cannot be played: a frame of the previous segment, or the last frame, where there are no
frames. -/
inductive Unplayable (number : Nat) : MediaKind → SourceRef → FrameNumber → Failure → Prop
  | previous {kind : MediaKind} {index : FrameNumber} :
      kind ≠ .frame →
      Unplayable number kind .previousSegment index (.previousSegmentOfStream number)
  | last {kind : MediaKind} {file : String} :
      kind ≠ .frame → Unplayable number kind (.file file) .last (.lastFrameOfStream number kind)

/-- The segment of a range. -/
inductive Cuts (number : Nat) (kind : MediaKind) (source : SourceRef) (index : FrameNumber)
    (punchIn punchOut : Timecode) : Except Failure (List Segment) → Prop
  | segment {input : String} {body : SegmentBody} :
      Plays number kind source index input body →
      Cuts number kind source index punchIn punchOut
        (.ok [⟨number, punchIn, punchOut, input, body⟩])
  | unplayable {failure : Failure} :
      Unplayable number kind source index failure →
      Cuts number kind source index punchIn punchOut (.error failure)

/-- What comes of a pair of points: nothing if they are equal. -/
inductive CutsBetween (number : Nat) (kind : MediaKind) (source : SourceRef) (index : FrameNumber)
    (punchIn punchOut : Timecode) : Except Failure (List Segment) → Prop
  | reversed :
      punchOut.toNat < punchIn.toNat →
      CutsBetween number kind source index punchIn punchOut
        (.error (.reversedRange number punchIn punchOut))
  | dropped : punchIn = punchOut → CutsBetween number kind source index punchIn punchOut (.ok [])
  | cut {result : Except Failure (List Segment)} :
      punchIn.toNat < punchOut.toNat →
      Cuts number kind source index punchIn punchOut result →
      CutsBetween number kind source index punchIn punchOut result

/-- A time and the time after it, if there is one, as the two ends of a range. -/
inductive RangeRule (probe : Probe σ) (kind : MediaKind) (source : SourceRef) (index : FrameNumber)
    (duration : Timecode) : TimeToken × Option TimeToken → Nat → σ →
      Except Failure (List Segment) → σ → Prop
  | beginning {first : TimeToken} {second : Option TimeToken} {number : Nat} {world : σ}
      {failure : Failure} :
      BeginsAt first (.error failure) →
      RangeRule probe kind source index duration (first, second) number world (.error failure) world
  | ending {first : TimeToken} {second : Option TimeToken} {number : Nat} {world later : σ}
      {punchIn : Timecode} {failure : Failure} :
      BeginsAt first (.ok punchIn) →
      EndsAt probe number duration punchIn second world (.error failure) later →
      RangeRule probe kind source index duration (first, second) number world (.error failure) later
  | range {first : TimeToken} {second : Option TimeToken} {number : Nat} {world later : σ}
      {punchIn punchOut : Timecode} {result : Except Failure (List Segment)} :
      BeginsAt first (.ok punchIn) →
      EndsAt probe number duration punchIn second world (.ok punchOut) later →
      CutsBetween number kind source index punchIn punchOut result →
      RangeRule probe kind source index duration (first, second) number world result later

/-- Times two by two; the last one may be left alone. -/
def pairs : List TimeToken → List (TimeToken × Option TimeToken)
  | [] => []
  | [first] => [(first, none)]
  | first :: second :: rest => (first, some second) :: pairs rest

/-! ## Specifications -/

/-- The source that is read: that of the specification, or the default file of its kind. -/
inductive ReadsFrom (defaults : Defaults) (spec : InputSpec) : SourceRef → Prop
  | own {source : SourceRef} : spec.source = some source → ReadsFrom defaults spec source
  | default {file : String} :
      spec.source = none → (defaults.get spec.kind).file = some file →
      ReadsFrom defaults spec (.file file)

/-- The stream or frame that is read: that of the specification, or the default one of its kind, or
the first. -/
inductive Selects (defaults : Defaults) (spec : InputSpec) : FrameNumber → Prop
  | own {index : FrameNumber} : spec.index = some index → Selects defaults spec index
  | default {stream : UInt32} :
      spec.index = none → (defaults.get spec.kind).stream = some stream →
      Selects defaults spec (.index stream)
  | first :
      spec.index = none → (defaults.get spec.kind).stream = none → Selects defaults spec (.index 0)

/-- The length of a stream. Only audio and video files that exist have one. -/
inductive Lasts (probe : Probe σ) (kind : MediaKind) :
    SourceRef → σ → Except Failure Timecode → σ → Prop
  | probed {file : String} {duration : Timecode} {world later : σ} :
      kind ≠ .frame → probe.present file world = true →
      probe.duration file world = .ok duration later →
      Lasts probe kind (.file file) world (.ok duration) later
  | unprobed {file : String} {failure : Failure} {world later : σ} :
      kind ≠ .frame → probe.present file world = true →
      probe.duration file world = .error failure later →
      Lasts probe kind (.file file) world (.error failure) later
  | frame {file : String} {world : σ} :
      kind = .frame → Lasts probe kind (.file file) world (.ok .zero) world
  | absent {file : String} {world : σ} :
      probe.present file world = false → Lasts probe kind (.file file) world (.ok .zero) world
  | previous {world : σ} : Lasts probe kind .previousSegment world (.ok .zero) world

/-- One specification: without times, the range from the start to the end of the stream, and
otherwise the ranges between its times. -/
inductive SpecRule (defaults : Defaults) (probe : Probe σ) :
    InputSpec → Nat → σ → Except Failure (List Segment) → σ → Prop
  | noSource {spec : InputSpec} {number : Nat} {world : σ} :
      spec.source = none → (defaults.get spec.kind).file = none →
      SpecRule defaults probe spec number world (.error (.missingDefault number spec.kind)) world
  | noLength {spec : InputSpec} {number : Nat} {world later : σ} {source : SourceRef}
      {failure : Failure} :
      ReadsFrom defaults spec source → Lasts probe spec.kind source world (.error failure) later →
      SpecRule defaults probe spec number world (.error failure) later
  | whole {spec : InputSpec} {number : Nat} {world later : σ} {source : SourceRef}
      {index : FrameNumber} {duration : Timecode} {result : Except Failure (List Segment)} :
      ReadsFrom defaults spec source → Selects defaults spec index →
      Lasts probe spec.kind source world (.ok duration) later → spec.times = [] →
      Cuts number spec.kind source index .zero duration result →
      SpecRule defaults probe spec number world result later
  | ranges {spec : InputSpec} {number : Nat} {world middle later : σ} {source : SourceRef}
      {index : FrameNumber} {duration : Timecode} {result : Except Failure (List Segment)} :
      ReadsFrom defaults spec source → Selects defaults spec index →
      Lasts probe spec.kind source world (.ok duration) middle → spec.times ≠ [] →
      InTurn (RangeRule probe spec.kind source index duration) (pairs spec.times) number middle
        result later →
      SpecRule defaults probe spec number world result later

/-! ## There is a rule for every case -/

variable {probe : Probe σ} {kind : MediaKind} {source : SourceRef} {index : FrameNumber}

theorem InTurn.total {rule : α → Nat → σ → Except Failure (List Segment) → σ → Prop}
    (h : ∀ thing number world, ∃ result later, rule thing number world result later)
    (things : List α) (number : Nat) (world : σ) :
    ∃ result later, InTurn rule things number world result later := by
  induction things generalizing number world with
  | nil => exact ⟨_, _, .done⟩
  | cons first rest ih =>
    obtain ⟨result, middle, hfirst⟩ := h first number world
    cases result with
    | error failure => exact ⟨_, _, .fails hfirst⟩
    | ok segments =>
      obtain ⟨others, later, hrest⟩ := ih (number + segments.length) middle
      cases others with
      | error failure => exact ⟨_, _, .failsLater hfirst hrest⟩
      | ok others => exact ⟨_, _, .made hfirst hrest⟩

/-- A number of milliseconds is that of a point, or too large. -/
theorem exists_toNat_eq_or_le (millis : Nat) :
    (∃ point : Timecode, point.toNat = millis) ∨ UInt64.size ≤ millis := by
  cases hpoint : Timecode.ofMillis? millis with
  | some point => exact Or.inl ⟨point, Timecode.toNat_of_ofMillis? hpoint⟩
  | none => exact Or.inr (Timecode.ofMillis?_eq_none_iff.1 hpoint)

theorem BeginsAt.total (token : TimeToken) : ∃ result, BeginsAt token result := by
  cases token with
  | durationOf file => exact ⟨_, .reference⟩
  | timestamp clock =>
    rcases exists_toNat_eq_or_le clock.totalMillis with ⟨point, hpoint⟩ | hlarge
    · exact ⟨_, .point hpoint⟩
    · exact ⟨_, .tooLarge hlarge⟩

theorem EndsAt.total (probe : Probe σ) (number : Nat) (duration punchIn : Timecode)
    (token : Option TimeToken) (world : σ) :
    ∃ result later, EndsAt probe number duration punchIn token world result later := by
  cases token with
  | none => exact ⟨_, _, .stream⟩
  | some token =>
    cases token with
    | timestamp clock =>
      rcases exists_toNat_eq_or_le clock.totalMillis with ⟨point, hpoint⟩ | hlarge
      · exact ⟨_, _, .point hpoint⟩
      · exact ⟨_, _, .tooLarge hlarge⟩
    | durationOf file =>
      cases hpresent : probe.present file world with
      | false => exact ⟨_, _, .missing hpresent⟩
      | true =>
        cases hlength : probe.duration file world with
        | error cause later => exact ⟨_, _, .unreadable hpresent hlength⟩
        | ok length later =>
          -- The sum is held at the greatest point, so it is always one.
          rcases exists_toNat_eq_or_le (min (punchIn.toNat + length.toNat) (UInt64.size - 1)) with
            ⟨punchOut, hpunchOut⟩ | hlarge
          · exact ⟨_, _, .reference hpresent hlength hpunchOut⟩
          · have hsize : 0 < UInt64.size := by decide
            omega

theorem Cuts.total (number : Nat) (kind : MediaKind) (source : SourceRef) (index : FrameNumber)
    (punchIn punchOut : Timecode) :
    ∃ result, Cuts number kind source index punchIn punchOut result := by
  cases source with
  | previousSegment =>
    by_cases hkind : kind = .frame
    · subst hkind
      exact ⟨_, .segment .previous⟩
    · exact ⟨_, .unplayable (.previous hkind)⟩
  | file file =>
    by_cases hkind : kind = .frame
    · subst hkind
      cases hdocument : FrameSource.isDocument file with
      | true => exact ⟨_, .segment (.page hdocument)⟩
      | false => exact ⟨_, .segment (.image hdocument)⟩
    · cases index with
      | last => exact ⟨_, .unplayable (.last hkind)⟩
      | index stream =>
        cases kind with
        | audio => exact ⟨_, .segment .audio⟩
        | video => exact ⟨_, .segment .video⟩
        | frame => exact absurd rfl hkind

theorem CutsBetween.total (number : Nat) (kind : MediaKind) (source : SourceRef)
    (index : FrameNumber) (punchIn punchOut : Timecode) :
    ∃ result, CutsBetween number kind source index punchIn punchOut result := by
  rcases Nat.lt_trichotomy punchOut.toNat punchIn.toNat with hlt | heq | hgt
  · exact ⟨_, .reversed hlt⟩
  · exact ⟨_, .dropped (Timecode.eq_of_toNat heq).symm⟩
  · obtain ⟨result, hcut⟩ := Cuts.total number kind source index punchIn punchOut
    exact ⟨_, .cut hgt hcut⟩

theorem RangeRule.total (probe : Probe σ) (kind : MediaKind) (source : SourceRef)
    (index : FrameNumber) (duration : Timecode) (tokens : TimeToken × Option TimeToken)
    (number : Nat) (world : σ) :
    ∃ result later, RangeRule probe kind source index duration tokens number world result later := by
  obtain ⟨first, second⟩ := tokens
  obtain ⟨began, hbegin⟩ := BeginsAt.total first
  cases began with
  | error failure => exact ⟨_, _, .beginning hbegin⟩
  | ok punchIn =>
    obtain ⟨ended, later, hend⟩ := EndsAt.total probe number duration punchIn second world
    cases ended with
    | error failure => exact ⟨_, _, .ending hbegin hend⟩
    | ok punchOut =>
      obtain ⟨result, hcut⟩ := CutsBetween.total number kind source index punchIn punchOut
      exact ⟨_, _, .range hbegin hend hcut⟩

theorem Lasts.total (probe : Probe σ) (kind : MediaKind) (source : SourceRef) (world : σ) :
    ∃ result later, Lasts probe kind source world result later := by
  cases source with
  | previousSegment => exact ⟨_, _, .previous⟩
  | file file =>
    by_cases hkind : kind = .frame
    · exact ⟨_, _, .frame hkind⟩
    · cases hpresent : probe.present file world with
      | false => exact ⟨_, _, .absent hpresent⟩
      | true =>
        cases hduration : probe.duration file world with
        | ok duration later => exact ⟨_, _, .probed hkind hpresent hduration⟩
        | error failure later => exact ⟨_, _, .unprobed hkind hpresent hduration⟩

theorem Selects.total (defaults : Defaults) (spec : InputSpec) :
    ∃ index, Selects defaults spec index := by
  cases hown : spec.index with
  | some index => exact ⟨_, .own hown⟩
  | none =>
    cases hdefault : (defaults.get spec.kind).stream with
    | some stream => exact ⟨_, .default hown hdefault⟩
    | none => exact ⟨_, .first hown hdefault⟩

theorem ReadsFrom.total (defaults : Defaults) (spec : InputSpec) :
    (∃ source, ReadsFrom defaults spec source) ∨
      spec.source = none ∧ (defaults.get spec.kind).file = none := by
  cases hown : spec.source with
  | some source => exact Or.inl ⟨_, .own hown⟩
  | none =>
    cases hdefault : (defaults.get spec.kind).file with
    | some file => exact Or.inl ⟨_, .default hown hdefault⟩
    | none => exact Or.inr ⟨rfl, rfl⟩

theorem SpecRule.total (defaults : Defaults) (probe : Probe σ) (spec : InputSpec) (number : Nat)
    (world : σ) : ∃ result later, SpecRule defaults probe spec number world result later := by
  rcases ReadsFrom.total defaults spec with ⟨source, hsource⟩ | ⟨hown, hdefault⟩
  · obtain ⟨index, hindex⟩ := Selects.total defaults spec
    obtain ⟨length, middle, hlength⟩ := Lasts.total probe spec.kind source world
    cases length with
    | error failure => exact ⟨_, _, .noLength hsource hlength⟩
    | ok duration =>
      by_cases htimes : spec.times = []
      · obtain ⟨result, hcut⟩ := Cuts.total number spec.kind source index .zero duration
        exact ⟨_, _, .whole hsource hindex hlength htimes hcut⟩
      · obtain ⟨result, later, hranges⟩ := InTurn.total
          (RangeRule.total probe spec.kind source index duration) (pairs spec.times) number middle
        exact ⟨_, _, .ranges hsource hindex hlength htimes hranges⟩
  · exact ⟨_, _, .noSource hown hdefault⟩

end EpisodeCut.Timeline
