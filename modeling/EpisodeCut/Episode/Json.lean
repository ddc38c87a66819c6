import EpisodeCut.Episode.Basic
import EpisodeCut.Json.Printer

/-!
# Plans as JSON

The plan of an episode as a JSON value, member by member in a fixed order.
-/

set_option autoImplicit false

namespace EpisodeCut

/-- A number of milliseconds. -/
def Timecode.toJson (t : Timecode) : Json :=
  .ofNat t.toNat

/-- A frame number: its index, or the word for the last frame. -/
def FrameNumber.toJson : FrameNumber → Json
  | .index n => .object [("index", .ofNat n.toNat)]
  | .last => .text "last"

/-- The source of a frame. -/
def FrameSource.toJson : FrameSource → Json
  | .previousSegment => .text "previous_segment"
  | .document path page =>
    .object [("document", .object [("path", .text path), ("page", page.toJson)])]

/-- The state of a frame's image. -/
def FrameState.toJson : FrameState → Json
  | .pending source => .object [("pending", source.toJson)]
  | .materializing source => .object [("materializing", source.toJson)]
  | .resolved image => .object [("resolved", .object [("image", .text image)])]

/-- The body of a segment with its kind. -/
def SegmentBody.toJson (body : SegmentBody) : Json :=
  .object <| ("kind", .text body.kind.name) ::
    match body with
    | .audio stream | .video stream => [("stream", .ofNat stream.toNat)]
    | .frame number state => [("frame", number.toJson), ("state", state.toJson)]

/-- A segment. -/
def Segment.toJson (segment : Segment) : Json :=
  .object [("number", .ofNat segment.number), ("punch_in", segment.punchIn.toJson),
    ("punch_out", segment.punchOut.toJson), ("input", .text segment.input),
    ("body", segment.body.toJson)]

/-- An input file with its options. -/
def InputEntry.toJson (entry : InputEntry) : Json :=
  .object [("path", .text entry.path), ("options", .array (entry.options.map .text))]

/-- The rendering flags. -/
def RenderFlags.toJson (flags : RenderFlags) : Json :=
  .object [("process_audio", .boolean flags.mono), ("process_video", .boolean flags.standardPixels),
    ("normalise", .boolean flags.normalise), ("audio_codec", .text flags.audioCodec),
    ("video_codec", .text flags.videoCodec)]

/-- The rendering command. -/
def RenderCommand.toJson (command : RenderCommand) : Json :=
  .object [("inputs", .array (command.inputs.map InputEntry.toJson)),
    ("program", .text command.program), ("has_audio", .boolean command.hasAudio),
    ("has_video", .boolean command.hasVideo), ("flags", command.flags.toJson),
    ("output", .text command.output)]

/-- The plan of an episode. -/
def RenderPlan.toJson (plan : RenderPlan) : Json :=
  .object [
    ("timeline", .object [("segments", .array (plan.timeline.segments.map Segment.toJson))]),
    ("inputs", .array (plan.inputs.map InputEntry.toJson)), ("filter_graph", .text plan.program),
    ("command", plan.command.toJson)]

end EpisodeCut
