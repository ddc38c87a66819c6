import EpisodeCut.FilterGraph.Basic
import EpisodeCut.Registry
import EpisodeCut.Timeline.Basic

/-!
# From a timeline to a filter graph

Audio and video segments are trimmed from the inputs in which they are registered; a still image is
used as it is. The segments of each track are then joined in playing order, and the joined audio
may be normalised (`FilterGraph.compile`).
-/

set_option autoImplicit false

namespace EpisodeCut

/-- How the episode is rendered. -/
structure RenderFlags where
  /-- Mix the audio down to one channel. -/
  mono : Bool
  /-- Convert the pictures to a pixel format that players expect. -/
  standardPixels : Bool
  normalise : Bool
  audioCodec : String
  videoCodec : String
  deriving DecidableEq, Repr

/-- The flags that are set when nothing is said. -/
def RenderFlags.standard : RenderFlags := ⟨true, true, true, "pcm_s16le", "h264"⟩

namespace Segment

/-- The number of the segment's input. -/
def inputIndex (segment : Segment) (registry : Registry) : Except Failure Nat :=
  match registry.indexOf? segment.input with
  | some index => .ok index
  | none => .error (.inputNotRegistered segment.number segment.input)

/-- The input stream that the segment plays. -/
def inputPad (segment : Segment) (registry : Registry) : Except Failure Pad :=
  match segment.inputIndex registry with
  | .error failure => .error failure
  | .ok index =>
    match segment.body with
    | .audio stream => .ok (.input index .audio stream)
    | .video stream => .ok (.input index .video stream)
    | .frame _ (.resolved _) => .ok (.input index .video 0)
    | .frame .. => .error (.frameNotMaterialized segment.number)

/-- The pad on which the segment is found once trimming is done. Frames are not trimmed. -/
def outputPad (segment : Segment) (registry : Registry) : Except Failure Pad :=
  match segment.body with
  | .audio _ => .ok (.segment .audio segment.number)
  | .video _ => .ok (.segment .video segment.number)
  | .frame .. => segment.inputPad registry

/-- The filter that trims the segment from its input, unless it is a frame. -/
def trimFilter? (segment : Segment) (registry : Registry) : Except Failure (Option Filter) :=
  let trim (track : Track) : Except Failure (Option Filter) :=
    (segment.inputPad registry).map fun source =>
      some (.trim track source segment.punchIn segment.duration (.segment track segment.number))
  match segment.body with
  | .audio _ => trim .audio
  | .video _ => trim .video
  | .frame .. => .ok none

end Segment

namespace FilterGraph

/-- Add the filters that trim segments, up to the first segment that has no input. -/
def trims (registry : Registry) (graph : FilterGraph) :
    List Segment → FilterGraph × Except Failure Unit
  | [] => (graph, .ok ())
  | segment :: rest =>
    match segment.trimFilter? registry with
    | .error failure => (graph, .error failure)
    | .ok none => trims registry graph rest
    | .ok (some filter) => trims registry (graph.push filter) rest

/-- Add the filter that joins segments on a track. For no segments there is none. -/
def join (registry : Registry) (graph : FilterGraph) (track : Track) (segments : List Segment) :
    Except Failure FilterGraph := do
  let pads ← segments.mapM fun segment => segment.outputPad registry
  pure (if pads.isEmpty then graph else graph.push (.join track pads))

/-- Add the filter that joins segments of a kind. Frames have none of their own: they are joined
with the video. -/
def joinKind (registry : Registry) (graph : FilterGraph) (kind : MediaKind)
    (segments : List Segment) : Except Failure FilterGraph :=
  match kind with
  | .audio => graph.join registry .audio segments
  | .video => graph.join registry .video segments
  | .frame => .ok graph

/-- The filter graph of a timeline: trims, joined audio, normalisation, joined video. -/
def compile (timeline : ResolvedTimeline) (registry : Registry) (flags : RenderFlags) :
    Except Failure FilterGraph := do
  let (graph, trimmed) := FilterGraph.empty.trims registry timeline.segments
  trimmed
  let graph ← graph.join registry .audio (timeline.onTrack .audio)
  let graph := if flags.normalise then graph.pushNormalise else graph
  graph.join registry .video (timeline.onTrack .video)

end FilterGraph

end EpisodeCut
