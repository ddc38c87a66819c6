import EpisodeCut.Probe
import EpisodeCut.Run
import EpisodeCut.Timeline.Basic
import EpisodeCut.Timeline.Defaults

/-!
# From specifications to a timeline

Each specification is completed from the defaults (`Feed`), and its times are taken two by two as
the ends of ranges. A time without a partner begins a range that runs to the end of the stream, and
a specification without times is one range over the whole stream. Every range becomes a segment,
except that a range without length is dropped with a warning and a range that ends before it begins
is a failure (`resolve`).
-/

set_option autoImplicit false

namespace EpisodeCut.Timeline

variable {σ : Type}

/-- What a completed specification reads. -/
structure Feed where
  kind : MediaKind
  source : SourceRef
  index : FrameNumber
  /-- The length of the stream; nothing where it is not known. -/
  duration : Timecode
  deriving DecidableEq, Repr

/-- The source of a specification: its own one, or the default file of its kind. -/
def sourceOf (defaults : Defaults) (number : Nat) (spec : InputSpec) : Except Failure SourceRef :=
  match spec.source, (defaults.get spec.kind).file with
  | some source, _ => .ok source
  | none, some file => .ok (.file file)
  | none, none => .error (.missingDefault number spec.kind)

/-- The index of a specification: its own one, the default stream of its kind, or zero. -/
def indexOf (defaults : Defaults) (spec : InputSpec) : FrameNumber :=
  (spec.index.or ((defaults.get spec.kind).stream.map .index)).getD (.index 0)

/-- The length of a stream, which is asked of the probe for audio and video files that exist. -/
def streamDuration (probe : Probe σ) (kind : MediaKind) (source : SourceRef) :
    Action (Run σ) Timecode := do
  match source with
  | .previousSegment => pure .zero
  | .file file =>
    let run ← get
    if kind ≠ .frame ∧ probe.present file run.world then Run.inWorld (probe.duration file)
    else pure .zero

/-- Complete a specification. -/
def feedOf (defaults : Defaults) (probe : Probe σ) (spec : InputSpec) : Action (Run σ) Feed := do
  let run ← get
  let source ← Action.ofExcept (sourceOf defaults run.draft.next spec)
  let duration ← streamDuration probe spec.kind source
  pure ⟨spec.kind, source, indexOf defaults spec, duration⟩

/-- The stream that an audio or video segment plays. -/
def streamOf (number : Nat) (kind : MediaKind) : FrameNumber → Except Failure UInt32
  | .index n => .ok n
  | .last => .error (.lastFrameOfStream number kind)

/-- The name under which an input is registered whose image does not exist yet. -/
def placeholder (source : String) (number : Nat) : String :=
  source ++ "#" ++ Text.Numeral.text number

/-- The input and the body of segment `number`. -/
def content (number : Nat) (feed : Feed) : Except Failure (String × SegmentBody) :=
  match feed.kind, feed.source with
  | .audio, .file file =>
    (streamOf number .audio feed.index).map fun stream => (file, .audio stream)
  | .video, .file file =>
    (streamOf number .video feed.index).map fun stream => (file, .video stream)
  | .frame, .previousSegment =>
    .ok (placeholder "^" number, .frame feed.index (.pending .previousSegment))
  | .frame, .file file =>
    match FrameSource.ofFile? file feed.index with
    | some document => .ok (placeholder file number, .frame feed.index (.pending document))
    | none => .ok (file, .frame feed.index (.resolved file))
  | _, .previousSegment => .error (.previousSegmentOfStream number)

/-- Make the segment of a range. -/
def place (feed : Feed) (punchIn punchOut : Timecode) : Action (Run σ) Segment := do
  let run ← get
  let (input, body) ← Action.ofExcept (content run.draft.next feed)
  Run.create punchIn punchOut input body

/-- Make the segment of a range, if the range has a length. -/
def accept (feed : Feed) (punchIn punchOut : Timecode) : Action (Run σ) (List Segment) := do
  let run ← get
  if punchOut.toNat < punchIn.toNat then
    throw (.reversedRange run.draft.next punchIn punchOut)
  else if punchOut.toNat = punchIn.toNat then
    Run.warn [.rangeDropped run.draft.next feed.kind punchIn]
    pure []
  else
    let segment ← place feed punchIn punchOut
    pure [segment]

/-- The point that a clock reading denotes. -/
def pointOf (clock : ClockTime) : Except Failure Timecode :=
  match clock.toTimecode? with
  | some point => .ok point
  | none => .error (.timestampTooLarge clock)

/-- The punch-in point that a token denotes. -/
def punchInOf : TimeToken → Except Failure Timecode
  | .timestamp clock => pointOf clock
  | .durationOf file => .error (.referenceAsPunchIn file)

/-- The duration of a file that a time list refers to, which has to exist. -/
def referencedDuration (probe : Probe σ) (file : String) : Action (Run σ) Timecode := do
  let run ← get
  if probe.present file run.world then
    (Run.inWorld (probe.duration file)).mapFailure (.unreadableReference run.draft.next file)
  else
    throw (.missingReference run.draft.next file)

/-- The punch-out point that a token denotes after `punchIn`. -/
def punchOutOf (probe : Probe σ) (punchIn : Timecode) : TimeToken → Action (Run σ) Timecode
  | .timestamp clock => Action.ofExcept (pointOf clock)
  | .durationOf file => do
    let duration ← referencedDuration probe file
    pure (punchIn.add duration)

/-- Make the segments of a time list that is taken two by two. -/
def resolveTimes (probe : Probe σ) (feed : Feed) : List TimeToken → Action (Run σ) (List Segment)
  | [] => pure []
  | [tail] => do
    -- A time without a partner: the range runs to the end of the stream.
    let punchIn ← Action.ofExcept (punchInOf tail)
    accept feed punchIn feed.duration
  | first :: second :: rest => do
    let punchIn ← Action.ofExcept (punchInOf first)
    let punchOut ← punchOutOf probe punchIn second
    let made ← accept feed punchIn punchOut
    let others ← resolveTimes probe feed rest
    pure (made ++ others)

/-- Make the one segment of a specification without times. -/
def resolveWhole (feed : Feed) : Action (Run σ) (List Segment) := do
  let run ← get
  if feed.duration = .zero then
    Run.warn [.emptyStream run.draft.next feed.kind]
  let segment ← place feed .zero feed.duration
  pure [segment]

/-- Make the segments of one specification. -/
def resolveSpec (defaults : Defaults) (probe : Probe σ) (spec : InputSpec) :
    Action (Run σ) (List Segment) := do
  let feed ← feedOf defaults probe spec
  if spec.times.isEmpty then resolveWhole feed else resolveTimes probe feed spec.times

/-- Make the segments of all specifications in order. -/
def resolveSpecs (defaults : Defaults) (probe : Probe σ) :
    List InputSpec → Action (Run σ) (List Segment)
  | [] => pure []
  | spec :: rest => do
    let made ← resolveSpec defaults probe spec
    let others ← resolveSpecs defaults probe rest
    pure (made ++ others)

/-- The warning due when both tracks have a length and the lengths differ. -/
def lengthWarnings (timeline : Timeline) : List Warning :=
  let audio := timeline.totalDuration .audio
  let picture := timeline.pictureDuration
  if audio ≠ picture ∧ audio ≠ .zero ∧ picture ≠ .zero then [.durationsDiffer audio picture] else []

/-- Resolve specifications into a timeline, continuing the numbers and inputs of the run's draft. -/
def resolve (defaults : Defaults) (probe : Probe σ) (specs : List InputSpec) :
    Action (Run σ) Timeline := do
  let segments ← resolveSpecs defaults probe specs
  let timeline : Timeline := ⟨segments⟩
  Run.warn timeline.lengthWarnings
  pure timeline

end EpisodeCut.Timeline
