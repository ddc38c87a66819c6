import EpisodeCut.Registry
import EpisodeCut.Segment
import EpisodeCut.Warning

/-!
# Drafts

A draft is what is fixed of an episode while its segments are being made: the registered inputs
and the number of the next segment. Making a segment numbers it and registers its input
(`Draft.create`). A still image is looped for the duration of its segment; the options for that
belong to the file, so all segments that show one file share them.
-/

set_option autoImplicit false

namespace EpisodeCut

/-- The inputs registered so far and the number of the next segment. -/
structure Draft where
  registry : Registry
  next : Nat
  deriving DecidableEq, Repr

/-- The input options that loop a still image for `duration`. -/
def stillOptions (duration : Timecode) : List String :=
  ["-loop", "1", "-t", duration.seconds]

namespace Draft

/-- The draft in which nothing is fixed yet. -/
def empty : Draft := ⟨.empty, 0⟩

instance : Inhabited Draft := ⟨empty⟩

/-- A new segment, the draft with it, and what is odd about it. -/
structure Creation where
  segment : Segment
  draft : Draft
  warnings : List Warning
  deriving DecidableEq, Repr

/-- The warning due when the image of segment `number` is already looped for another duration. -/
def reuseWarnings (registry : Registry) (number : Nat) (image : String) (now : List String) :
    List Warning :=
  match registry.optionsOf? image with
  | some previous =>
    -- A file without options has not been shown as a still image before.
    if previous.isEmpty || previous == now then []
    else [.stillReused number image previous now]
  | none => []

/-- Number a new segment and register its input, with the options of a still image if its image
exists. -/
def create (draft : Draft) (punchIn punchOut : Timecode) (input : String) (body : SegmentBody) :
    Creation :=
  let segment : Segment := ⟨draft.next, punchIn, punchOut, input, body⟩
  match body with
  | .frame _ (.resolved _) =>
    let options := stillOptions segment.duration
    ⟨segment, ⟨draft.registry.registerWithOptions input options, draft.next + 1⟩,
      reuseWarnings draft.registry draft.next input options⟩
  | _ => ⟨segment, ⟨draft.registry.register input, draft.next + 1⟩, []⟩

end Draft

end EpisodeCut
