import EpisodeCut.Frame.Order
import EpisodeCut.Run
import EpisodeCut.Timeline.Basic

/-!
# Materializing frames

Every pending frame of a timeline gets its image, in playing order. A frame of the previous segment
is taken from a copy of that segment, which has to be video; a page of a document is rasterized.
All links to previous segments are checked before anything is done outside (`checkLinks`). Every
file is recorded before it is ordered, and once the image exists it takes the place of the segment's
input in the registry (`Timeline.materialize`).
-/

set_option autoImplicit false

namespace EpisodeCut.Timeline

variable {σ : Type}

/-- The video segment that is numbered immediately before `segment`. -/
def predecessor (segments : List Segment) (segment : Segment) : Except Failure Segment :=
  match segment.number with
  | 0 => .error (.noPredecessor segment.number)
  | wanted + 1 =>
    match segments.find? (·.number = wanted) with
    | none => .error (.noPredecessor segment.number)
    | some previous =>
      if previous.kind = .video then .ok previous
      else .error (.predecessorNotVideo segment.number previous.number previous.kind)

/-- Check the link of a frame that shows the previous segment. -/
def checkLink (segments : List Segment) (segment : Segment) : Except Failure Unit :=
  if segment.pendingSource? = some .previousSegment then
    (predecessor segments segment).map fun _ => ()
  else
    .ok ()

/-- Check all links; the first broken one in playing order is reported. -/
def checkLinks (timeline : Timeline) : Except Failure Unit :=
  timeline.segments.forM (checkLink timeline.segments)

/-- The frame of its source that a frame segment shows. -/
def frameNumber (segment : Segment) : FrameNumber :=
  match segment.frame? with
  | some (number, _) => number
  | none => .last

/-- The orders that produce the image of `segment` at `image` from its source. -/
def orders (names : ArtifactNames) (size : FrameSize) (segments : List Segment)
    (segment : Segment) (image : Path) : FrameSource → Except Failure (List FrameOrder)
  | .previousSegment =>
    (predecessor segments segment).map fun previous =>
      let media := names.path previous.kind previous.number
      [.render previous media, .extract media (frameNumber segment) image]
  | .document path page => .ok [.rasterize path page size image]

/-- Record and carry out the orders for segment `number`, up to the first one that fails. -/
def performAll (materializer : Materializer σ) (number : Nat) :
    List FrameOrder → Action (Run σ) Unit
  | [] => pure ()
  | order :: rest => do
    Run.record order.destination
    (Run.inWorld (materializer.perform order)).mapFailure (.frameFailed number)
    performAll materializer number rest

/-- Let the image of `segment` take the place of its input, looped for its duration. -/
def adoptImage (segment : Segment) (image : Path) : Action (Run σ) Unit := do
  let run ← get
  let registry ← Action.ofExcept
    (run.draft.registry.rename segment.input image (some (stillOptions segment.duration)))
  set { run with draft := { run.draft with registry := registry } }

/-- Produce the image of one segment, if it is pending. -/
def materializeOne (names : ArtifactNames) (size : FrameSize) (materializer : Materializer σ)
    (segments : List Segment) (segment : Segment) : Action (Run σ) Segment := do
  match segment.pendingSource? with
  | none => pure segment
  | some source =>
    let image := names.path .frame segment.number
    let started := segment.withState (.materializing source)
    let work ← Action.ofExcept (orders names size segments started image source)
    performAll materializer started.number work
    adoptImage started image
    pure ({ started with input := image }.withState (.resolved image))

/-- Produce the images of the segments `left` after the segments `done`. -/
def materializeFrom (names : ArtifactNames) (size : FrameSize) (materializer : Materializer σ)
    (done : List Segment) : List Segment → Action (Run σ) (List Segment)
  | [] => pure done
  | segment :: left => do
    let segment ← materializeOne names size materializer (done ++ segment :: left) segment
    materializeFrom names size materializer (done ++ [segment]) left

/-- Produce the images of all pending frames; pages of documents are rasterized at `size`. -/
def materialize (timeline : Timeline) (names : ArtifactNames) (size : FrameSize)
    (materializer : Materializer σ) : Action (Run σ) ResolvedTimeline := do
  Action.ofExcept timeline.checkLinks
  let segments ← materializeFrom names size materializer [] timeline.segments
  Action.ofExcept (ResolvedTimeline.ofTimeline ⟨segments⟩)

end EpisodeCut.Timeline
