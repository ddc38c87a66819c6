import EpisodeCut.Frame.Order
import EpisodeCut.Media.FileProbe
import EpisodeCut.RenderCommand

/-!
# Producing frames with external tools

Orders for files are carried out with the renderer and with an image tool. To find the last frame of
a clip, the end of the clip is copied to a scratch file beside it and the frames of the copy are
counted (`FileMaterializer.lastFrame`); the scratch file is removed whatever comes of it.
-/

set_option autoImplicit false

namespace EpisodeCut.FileMaterializer

open Text

/-- How much of the end of a clip is copied to find its last frame. -/
def tailLength : Timecode := .ofSeconds 5

/-- The arguments with which the renderer overwrites its output and asks nothing. -/
def quietArguments : List String :=
  ["-y", "-nostdin", "-v", "error"]

/-- The scratch file beside a clip. -/
def scratchPath (media : Path) : Path :=
  media.withFileName ("__" ++ media.fileName?.getD "")

/-- The stream that a segment plays, as the renderer selects it from its first input. -/
def streamSelector (track : Track) (stream : UInt32) : String :=
  "0:" ++ track.letter ++ ":" ++ Numeral.text stream.toNat

/-- The arguments that copy the slice of a segment. -/
def sliceArguments (segment : Segment) (selector : String) (destination : Path) : List String :=
  quietArguments ++ ["-ss", segment.punchIn.seconds, "-t", segment.duration.seconds, "-i",
    segment.input, "-codec", "copy", "-map", selector, destination]

/-- The arguments that copy the end of a clip, from `start` on. -/
def tailArguments (media : Path) (start : Timecode) (scratch : Path) : List String :=
  quietArguments ++ ["-ss", start.seconds, "-i", media, "-codec:v", "copy", "-map", "0:v", scratch]

/-- The arguments that take one frame of a clip as an image. -/
def frameArguments (source : Path) (index : Nat) (destination : Path) : List String :=
  quietArguments ++ ["-i", source, "-filter:v", "select='eq(n," ++ Numeral.text index ++ ")'",
    "-frames:v", "1", "-f", "image2", "-map", "0:v", destination]

/-- A page in the notation of the image tool. -/
def pageText : FrameNumber → String
  | .index n => Numeral.text n.toNat
  | .last => "-1"

/-- The arguments that put a page in the middle of a grey canvas. -/
def pageArguments (document : Path) (page : FrameNumber) (size : FrameSize) (destination : Path) :
    List String :=
  ["-size", size.text, "-density", "600", "xc:dimgrey", "null:", "(",
   document ++ "[" ++ pageText page ++ "]", "-resize", size.text, "-background", "white",
   "-alpha", "remove", "-type", "truecolor", "-define", "colorspace:auto-grayscale=off", ")",
   "-gravity", "center", "-layers", "composite", "-flatten", destination]

/-- Copy the slice that a segment plays. -/
def renderSegment (segment : Segment) (destination : Path) : Action Workspace Unit := do
  let copy (track : Track) (stream : UInt32) : Action Workspace Unit := do
    Workspace.makeParent destination
    discard <| Workspace.capture renderTool "render segment" segment.input
      (sliceArguments segment (streamSelector track stream) destination)
  match segment.body with
  | .audio stream => copy .audio stream
  | .video stream => copy .video stream
  | .frame .. => throw (.stillNotRendered segment.number)

/-- Copy the end of a clip to the scratch file. -/
def copyTail (media scratch : Path) : Action FileProbe Unit := do
  let info ← FileProbe.inspect media
  let start := (info.duration.sub? tailLength).getD .zero
  discard <| FileProbe.inWorkspace <| Workspace.capture renderTool "copy last seconds" media
    (tailArguments media start scratch)

/-- The number of frames in the scratch file. -/
def countFrames (scratch : Path) : Action FileProbe Nat := do
  let info ← FileProbe.inspect scratch
  match info.videoFrames with
  | some frames => pure frames
  | none => throw (.tool probeTool "count frames" scratch .uncountedFrames)

/-- Take the frame `index` of `source`, which is part of `media`, as an image. -/
def takeFrame (media source : Path) (index : Nat) (destination : Path) :
    Action FileProbe Unit :=
  discard <| FileProbe.inWorkspace <| Workspace.capture renderTool "extract frame" media
    (frameArguments source index destination)

/-- Remove the scratch file, if there is one. -/
def discardScratch (scratch : Path) (probe : FileProbe) : FileProbe :=
  { probe with workspace := probe.workspace.remove scratch }

/-- Take the last frame of a clip as an image. -/
def lastFrame (media destination : Path) : Action FileProbe Unit :=
  let scratch := scratchPath media
  let search : Action FileProbe Unit := do
    copyTail media scratch
    let frames ← countFrames scratch
    takeFrame media scratch (frames - 1) destination
  search.andFinally (discardScratch scratch)

/-- Take a frame of a clip as an image. -/
def extractFrame (media : Path) (frame : FrameNumber) (destination : Path) :
    Action FileProbe Unit := do
  FileProbe.inWorkspace (Workspace.makeParent destination)
  match frame with
  | .index n => takeFrame media media n.toNat destination
  | .last => lastFrame media destination

/-- The image tool: by its older name if it can be found under that name. -/
def imageTool (workspace : Workspace) : String :=
  if workspace.isOnPath "convert" then "convert" else "magick"

/-- Turn a page of a document into an image. -/
def rasterize (document : Path) (page : FrameNumber) (size : FrameSize) (destination : Path) :
    Action Workspace Unit := do
  let workspace ← get
  if workspace.tree.contains document then
    Workspace.makeParent destination
    let workspace ← get
    discard <| Workspace.capture (imageTool workspace) "rasterize" document
      (pageArguments document page size destination)
  else
    throw (.tool "convert" "rasterize" document .missingFile)

/-- Carry out an order. -/
def perform : FrameOrder → Action FileProbe Unit
  | .render segment destination => FileProbe.inWorkspace (renderSegment segment destination)
  | .extract media frame destination => extractFrame media frame destination
  | .rasterize document page size destination =>
    FileProbe.inWorkspace (rasterize document page size destination)

end EpisodeCut.FileMaterializer
