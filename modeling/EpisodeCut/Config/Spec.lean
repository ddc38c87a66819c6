import EpisodeCut.Frame.Basic
import EpisodeCut.MediaKind
import EpisodeCut.Timecode

/-!
# Input specifications

What a configuration says about one input. An omitted field stays omitted here; defaults are
applied when the specification is resolved.
-/

set_option autoImplicit false

namespace EpisodeCut

/-- An entry of a time list: a point, or the duration of a file after the preceding point. -/
inductive TimeToken where
  | timestamp (clock : ClockTime)
  | durationOf (file : String)
  deriving DecidableEq, Repr

/-- Where an input is read from. -/
inductive SourceRef where
  | file (name : String)
  | previousSegment
  deriving DecidableEq, Repr

/-- One input of a bracket group. -/
structure InputSpec where
  kind : MediaKind
  source : Option SourceRef
  index : Option FrameNumber
  times : List TimeToken
  deriving DecidableEq, Repr

namespace InputSpec

/-- The whole of stream `stream` of a file. -/
def whole (kind : MediaKind) (file : String) (stream : UInt32) : InputSpec :=
  ⟨kind, some (.file file), some (.index stream), []⟩

/-- The files that a specification names: its source, and those whose durations it uses. -/
def files (spec : InputSpec) : List String :=
  let source := match spec.source with
    | some (.file file) => [file]
    | _ => []
  source ++ spec.times.filterMap fun
    | .durationOf file => some file
    | .timestamp _ => none

end InputSpec

end EpisodeCut
