import EpisodeCut.Failure
import EpisodeCut.Frame.Basic
import EpisodeCut.Media.Report

/-!
# What is known about a media file

Of all that the probing tool may report on a file, only the duration of the container and the first
video stream matter here (`MediaInfo.ofReport`).
-/

set_option autoImplicit false

namespace EpisodeCut

open Text

/-- What is known about a media file. -/
structure MediaInfo where
  duration : Timecode
  /-- The picture size of the first video stream. -/
  videoSize : Option FrameSize
  /-- The number of frames of the first video stream. -/
  videoFrames : Option Nat
  deriving DecidableEq, Repr

/-- The tool that probes media files. -/
def probeTool : String :=
  "ffprobe"

namespace MediaInfo

/-- The duration in a report. -/
def durationOf (report : ProbeReport) (path : Path) : Except Failure Timecode :=
  match report.format.bind FormatReport.duration with
  | none => .error (.tool probeTool "read duration" path .missingDuration)
  | some text =>
    match Timecode.ofText? text with
    | some duration => .ok duration
    | none =>
      let trimmed := String.ofList (trim text.toList)
      .error (.tool probeTool "read duration" path (.unreadableDuration trimmed))

/-- The picture size of a stream, if the stream has a picture. -/
def sizeOf (stream : StreamReport) : Option FrameSize :=
  match stream.width, stream.height with
  | some width, some height => if 0 < width ∧ 0 < height then some ⟨width, height⟩ else none
  | _, _ => none

/-- The number of frames of a stream. -/
def framesOf (stream : StreamReport) : Option Nat :=
  stream.frames.bind fun text => Numeral.readBelow? UInt64.size (trim text.toList)

/-- What a report says about the file at `path`. -/
def ofReport (report : ProbeReport) (path : Path) : Except Failure MediaInfo :=
  let video := report.streams.find? (·.codecType = some "video")
  (durationOf report path).map fun duration =>
    ⟨duration, video.bind sizeOf, video.bind framesOf⟩

/-- What the output of the probing tool says about the file at `path`. -/
def ofOutput (output : List UInt8) (path : Path) : Except Failure MediaInfo :=
  match ProbeReport.read output with
  | .error complaint => .error (.tool probeTool "parse output" path (.invalidJson complaint))
  | .ok report => ofReport report path

end MediaInfo

end EpisodeCut
