/-!
# Kinds of media

An input is an audio stream, a video stream or a still frame (`MediaKind`). In the finished episode
there are two tracks only, since a still frame is shown on the video track (`MediaKind.track`).
-/

set_option autoImplicit false

namespace EpisodeCut

/-- Tracks of the finished episode. -/
inductive Track where
  | audio
  | video
  deriving DecidableEq, Repr

namespace Track

/-- The letter of the track in stream specifiers and labels. -/
def letter : Track → String
  | .audio => "a"
  | .video => "v"

end Track

/-- What an input or a segment consists of. -/
inductive MediaKind where
  | audio
  | video
  | frame
  deriving DecidableEq, Repr

namespace MediaKind

/-- The kinds in the order in which default inputs are used. -/
def all : List MediaKind :=
  [.audio, .video, .frame]

/-- The name of the kind in messages and in names of generated files. -/
def name : MediaKind → String
  | .audio => "audio"
  | .video => "video"
  | .frame => "frame"

/-- The track on which the kind is heard or seen. -/
def track : MediaKind → Track
  | .audio => .audio
  | .video => .video
  | .frame => .video

/-- The extension of a generated file of this kind. -/
def extension : MediaKind → String
  | .audio => "wav"
  | .video => "mov"
  | .frame => "jpg"

end MediaKind

end EpisodeCut
