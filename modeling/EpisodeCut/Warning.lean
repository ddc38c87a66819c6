import EpisodeCut.Failure

/-!
# Warnings

Oddities that do not stop a run, with the message and the named values that are shown for each.
-/

set_option autoImplicit false

namespace EpisodeCut

/-- Something odd about a run. -/
inductive Warning where
  | durationsDiffer (audio picture : Timecode)
  | emptyStream (segment : Nat) (kind : MediaKind)
  | rangeDropped (segment : Nat) (kind : MediaKind) (point : Timecode)
  | stillReused (segment : Nat) (image : String) (previous now : List String)
  | artifactNotRemoved (path : Path) (cause : OsError)
  deriving DecidableEq, Repr

namespace Warning

/-- The wording of a warning. -/
def message : Warning → String
  | .durationsDiffer .. => "total audio and video durations differ"
  | .emptyStream .. => "whole-stream segment has zero length"
  | .rangeDropped .. => "dropping zero-length segment"
  | .stillReused .. =>
    "still image reused with a different duration; all uses loop for the last one"
  | .artifactNotRemoved .. => "cannot remove temporary file"

/-- The values shown with a warning. -/
def fields : Warning → List (String × String)
  | .durationsDiffer audio picture => [("audio", audio.clock), ("video", picture.clock)]
  | .emptyStream segment kind =>
    [("segment", Text.Numeral.text segment), ("kind", kind.name)]
  | .rangeDropped segment kind point =>
    [("segment", Text.Numeral.text segment), ("kind", kind.name), ("at", point.clock)]
  | .stillReused segment image previous now =>
    [("segment", Text.Numeral.text segment), ("image", image),
     ("previous", " ".intercalate previous), ("now", " ".intercalate now)]
  | .artifactNotRemoved path cause => [("path", path), ("error", cause.text)]

end Warning

end EpisodeCut
