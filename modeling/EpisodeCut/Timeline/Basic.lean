import EpisodeCut.Segment

/-!
# Timelines

The segments of an episode in the order in which they are played (`Timeline`), and the timelines
in which every image exists (`ResolvedTimeline`). Only the latter can be rendered.
-/

set_option autoImplicit false

namespace EpisodeCut

/-- Segments in playing order. -/
structure Timeline where
  segments : List Segment
  deriving DecidableEq, Repr, Inhabited

namespace Timeline

/-- The summed durations of all segments of a kind, held at the greatest timecode. -/
def totalDuration (timeline : Timeline) (kind : MediaKind) : Timecode :=
  (timeline.segments.filter (·.kind = kind)).foldl (fun sum segment => sum.add segment.duration)
    .zero

/-- The summed durations of everything on the video track. -/
def pictureDuration (timeline : Timeline) : Timecode :=
  (timeline.totalDuration .video).add (timeline.totalDuration .frame)

/-- Whether there is nothing to play. -/
def isEmpty (timeline : Timeline) : Bool :=
  timeline.segments.isEmpty

end Timeline

/-- Segments in playing order, of which every image exists. -/
structure ResolvedTimeline where
  segments : List Segment
  resolved : ∀ segment ∈ segments, segment.isResolved = true
  deriving DecidableEq, Repr

namespace ResolvedTimeline

/-- Accept a timeline in which every image exists. -/
def ofTimeline (timeline : Timeline) : Except Failure ResolvedTimeline :=
  match h : timeline.segments.find? (!·.isResolved) with
  | some segment => .error (.frameNotMaterialized segment.number)
  | none => .ok ⟨timeline.segments, by simpa using List.find?_eq_none.1 h⟩

/-- The segments that are played on a track. -/
def onTrack (timeline : ResolvedTimeline) (track : Track) : List Segment :=
  timeline.segments.filter (·.kind.track = track)

/-- Whether there is nothing to render. -/
def isEmpty (timeline : ResolvedTimeline) : Bool :=
  timeline.segments.isEmpty

end ResolvedTimeline

end EpisodeCut
