import EpisodeCut.Frame.Basic
import EpisodeCut.Failure

/-!
# Segments

A segment is a slice of one input. The image of a frame segment may still have to be produced, in
which case the segment knows its source (`FrameState`); only a segment whose image exists is
resolved (`Segment.isResolved`).
-/

set_option autoImplicit false

namespace EpisodeCut

/-- What the image of a frame segment is made from. -/
inductive FrameSource where
  | previousSegment
  | document (path : String) (page : FrameNumber)
  deriving DecidableEq, Repr

namespace FrameSource

/-- Extensions of files that have pages to rasterize. -/
def documentExtensions : List String :=
  ["pdf", "ps", "eps", "tif", "tiff"]

/-- Whether a file has pages to rasterize, as its extension says in whatever case. -/
def isDocument (file : String) : Bool :=
  match Path.extension? file with
  | some extension => documentExtensions.contains (extension.map Char.toLower)
  | none => false

/-- The source that a file is for a frame; `none` for a file that is an image itself. -/
def ofFile? (file : String) (page : FrameNumber) : Option FrameSource :=
  if isDocument file then some (.document file page) else none

end FrameSource

/-- The life of a frame segment's image. -/
inductive FrameState where
  | pending (source : FrameSource)
  | materializing (source : FrameSource)
  | resolved (image : String)
  deriving DecidableEq, Repr

/-- What a segment plays. -/
inductive SegmentBody where
  | audio (stream : UInt32)
  | video (stream : UInt32)
  | frame (number : FrameNumber) (state : FrameState)
  deriving DecidableEq, Repr

/-- The slice of an input between two points. -/
structure Segment where
  number : Nat
  punchIn : Timecode
  punchOut : Timecode
  /-- The path under which the input is registered. -/
  input : String
  body : SegmentBody
  deriving DecidableEq, Repr

/-- The kind of media that a body plays. -/
def SegmentBody.kind : SegmentBody → MediaKind
  | .audio _ => .audio
  | .video _ => .video
  | .frame .. => .frame

namespace Segment

/-- The kind of media that a segment plays. -/
def kind (segment : Segment) : MediaKind :=
  segment.body.kind

/-- The length of a segment; nothing when it ends before it begins. -/
def duration (segment : Segment) : Timecode :=
  (segment.punchOut.sub? segment.punchIn).getD .zero

/-- The stream of an audio or video segment. -/
def stream? (segment : Segment) : Option UInt32 :=
  match segment.body with
  | .audio stream | .video stream => some stream
  | .frame .. => none

/-- The frame of a frame segment and the state of its image. -/
def frame? (segment : Segment) : Option (FrameNumber × FrameState) :=
  match segment.body with
  | .frame number state => some (number, state)
  | _ => none

/-- What the image of a frame segment has to be made from, if it does not exist yet. -/
def pendingSource? (segment : Segment) : Option FrameSource :=
  match segment.body with
  | .frame _ (.pending source) => some source
  | _ => none

/-- Whether everything that the segment plays exists. -/
def isResolved (segment : Segment) : Bool :=
  match segment.body with
  | .frame _ (.resolved _) => true
  | .frame .. => false
  | _ => true

/-- The segment with the state of its image replaced. -/
def withState (segment : Segment) (state : FrameState) : Segment :=
  match segment.body with
  | .frame number _ => { segment with body := .frame number state }
  | _ => segment

end Segment

end EpisodeCut
