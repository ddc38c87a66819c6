import EpisodeCut.Proofs.Config.Layout

/-!
# Written configurations

The configurations that can be written, as data that carry the conditions on their parts: words for
kinds, file names, sources and indices that suit a kind, and timestamps in range. Any layout may
stand before a token. `Written.text` is the text of a configuration, and `Written.specs` says which
inputs it specifies.
-/

set_option autoImplicit false

namespace EpisodeCut.Config

/-! ## Inputs -/

/-- A file name. It begins with a character that may begin a name, and does not end in a blank. -/
structure FileName where
  first : Char
  more : List Char
  starts : isNameStart first = true
  admitted : ∀ c ∈ more, isNameChar c = true
  trimmed : ∀ c ∈ more.getLast?, c ≠ ' ' ∧ c ≠ '\t'

/-- The text of a file name. -/
def FileName.text (name : FileName) : List Char :=
  name.first :: name.more

/-- The source of an input, as it is written. Only frames have the previous segment for a source. -/
inductive WrittenSource : MediaKind → Type where
  | omitted {kind : MediaKind} : WrittenSource kind
  | file {kind : MediaKind} (name : FileName) : WrittenSource kind
  | previous : WrittenSource .frame

namespace WrittenSource

/-- The text of a source. -/
def text {kind : MediaKind} : WrittenSource kind → List Char
  | omitted => []
  | file name => name.text
  | previous => ['^']

/-- The source that is written. -/
def value {kind : MediaKind} : WrittenSource kind → Option SourceRef
  | omitted => none
  | file name => some (.file (String.ofList name.text))
  | previous => some .previousSegment

end WrittenSource

/-- The index of an input, as it is written. Only frames have the last index. -/
inductive WrittenIndex : MediaKind → Type where
  | number {kind : MediaKind} (n : UInt32) : WrittenIndex kind
  | last : WrittenIndex .frame

namespace WrittenIndex

/-- The text of an index. -/
def text {kind : MediaKind} : WrittenIndex kind → List Char
  | number n => Text.Numeral.write n.toNat
  | last => ['l', 'a', 's', 't']

/-- The index that is written. -/
def value {kind : MediaKind} : WrittenIndex kind → FrameNumber
  | number n => .index n
  | last => .last

end WrittenIndex

/-- An index with the layout before its colon and after it. -/
structure IndexField (kind : MediaKind) where
  beforeColon : Gap
  beforeIndex : Gap
  index : WrittenIndex kind

/-- The text of an index with its colon. -/
def IndexField.text {kind : MediaKind} (field : IndexField kind) : List Char :=
  field.beforeColon.text ++ ':' :: field.beforeIndex.text ++ field.index.text

/-- An input, as it is written: a word for its kind, a colon, its source, and its index if it has
one. -/
structure WrittenInput where
  kind : MediaKind
  word : List Char
  known : (word, kind) ∈ kindWords
  source : WrittenSource kind
  index : Option (IndexField kind)
  beforeWord : Gap
  beforeColon : Gap
  beforeSource : Gap

namespace WrittenInput

/-- The text of the index of an input. -/
def indexText (input : WrittenInput) : List Char :=
  match input.index with
  | some field => field.text
  | none => []

/-- The text of an input. -/
def text (input : WrittenInput) : List Char :=
  input.beforeWord.text ++ input.word ++ input.beforeColon.text ++ ':' :: input.beforeSource.text ++
    input.source.text ++ input.indexText

/-- The input that is written. -/
def value (input : WrittenInput) : Input :=
  ⟨input.kind, input.source.value, input.index.map fun field => field.index.value⟩

end WrittenInput

/-- Inputs after the first one, each with the layout before the colon that separates it. -/
def followersText (followers : List (Gap × WrittenInput)) : List Char :=
  followers.flatMap fun follower => follower.1.text ++ ':' :: follower.2.text

/-! ## Times -/

/-- A timestamp, as it is written: hours, minutes and seconds with any number of zeros in front, and
three places of a second. It denotes a timecode. -/
structure WrittenClock where
  clock : ClockTime
  hourWidth : Nat
  minuteWidth : Nat
  secondWidth : Nat
  places : clock.millis.toNat < 1000
  inRange : clock.toTimecode?.isSome = true

/-- The text of a timestamp. -/
def WrittenClock.text (written : WrittenClock) : List Char :=
  Text.Numeral.writePadded written.hourWidth written.clock.hours.toNat ++
    ':' :: Text.Numeral.writePadded written.minuteWidth written.clock.minutes.toNat ++
    ':' :: Text.Numeral.writePadded written.secondWidth written.clock.seconds.toNat ++
    '.' :: Text.Numeral.writePadded 3 written.clock.millis.toNat

/-- A duration reference, as it is written, with the layout before the sign and before the name. -/
structure WrittenReference where
  beforeSign : Gap
  beforeName : Gap
  name : FileName

namespace WrittenReference

/-- The text of a duration reference. -/
def text (reference : WrittenReference) : List Char :=
  reference.beforeSign.text ++ '@' :: reference.beforeName.text ++ reference.name.text

/-- The duration reference that is written. -/
def value (reference : WrittenReference) : TimeToken :=
  .durationOf (String.ofList reference.name.text)

end WrittenReference

/-- A timestamp after another one, with layout between them. -/
structure NextClock where
  before : Gap
  apart : before ≠ []
  clock : WrittenClock

/-- The text of timestamps after the first one. -/
def nextClocksText (clocks : List NextClock) : List Char :=
  clocks.flatMap fun next => next.before.text ++ next.clock.text

/-- A time list, as it is written. -/
inductive WrittenTimes where
  | none
  | points (before : Gap) (first : WrittenClock) (others : List NextClock)
  | pointAndReference (before : Gap) (point : WrittenClock) (span : WrittenReference)
  | reference (span : WrittenReference)

namespace WrittenTimes

/-- The text of a time list. -/
def text : WrittenTimes → List Char
  | none => []
  | points before first others => before.text ++ first.text ++ nextClocksText others
  | pointAndReference before point span => before.text ++ point.text ++ span.text
  | reference span => span.text

/-- The times that are written. A lone duration reference counts from zero. -/
def value : WrittenTimes → List TimeToken
  | none => []
  | points _ first others =>
    .timestamp first.clock :: others.map fun next => .timestamp next.clock.clock
  | pointAndReference _ point span => [.timestamp point.clock, span.value]
  | reference span => [.timestamp .zero, span.value]

end WrittenTimes

/-! ## Groups -/

/-- A bracket group with its times, as it is written. -/
structure WrittenGroup where
  beforeOpen : Gap
  first : WrittenInput
  followers : List (Gap × WrittenInput)
  beforeClose : Gap
  times : WrittenTimes

namespace WrittenGroup

/-- The text of a group. -/
def text (group : WrittenGroup) : List Char :=
  group.beforeOpen.text ++ '[' :: group.first.text ++ followersText group.followers ++
    group.beforeClose.text ++ ']' :: group.times.text

/-- The inputs of a group. -/
def inputs (group : WrittenGroup) : List WrittenInput :=
  group.first :: group.followers.map Prod.snd

/-- The specifications that a group makes: one for each input, all with the times of the group. -/
def specs (group : WrittenGroup) : List InputSpec :=
  group.inputs.map fun input =>
    ⟨input.kind, input.source.value, input.index.map fun field => field.index.value,
      group.times.value⟩

end WrittenGroup

/-- A configuration, as it is written. -/
structure Written where
  groups : List WrittenGroup
  afterAll : Gap

namespace Written

/-- The text of a configuration. -/
def text (written : Written) : String :=
  String.ofList (written.groups.flatMap WrittenGroup.text ++ written.afterAll.text)

/-- The specifications of a configuration, in the order of its text. -/
def specs (written : Written) : List InputSpec :=
  written.groups.flatMap WrittenGroup.specs

end Written

end EpisodeCut.Config
