import EpisodeCut.Proofs.Frame.Script
import EpisodeCut.Proofs.Timeline.Renamed

/-!
# Images under other names

Which images are made, and what links they need, depends on the numbers and the kinds of segments
and not on what their inputs are called. For two timelines whose segments match, materializers that
never fail therefore make the same images, and these take the same places in the registries
(`Timeline.lockstep_materialize`).
-/

set_option autoImplicit false

namespace EpisodeCut

open EpisodeCut.Action Relator

/-! ## Lists of matching segments -/

section Lists

variable {α β : Type} {R : α → β → Prop} {xs : List α} {ys : List β}

theorem find?_of_forall₂ (related : List.Forall₂ R xs ys) {p : α → Bool} {q : β → Bool}
    (same : ∀ x y, R x y → p x = q y) : Option.Rel R (xs.find? p) (ys.find? q) := by
  induction related with
  | nil => exact .none
  | @cons x y xs ys head _ ih =>
    rw [List.find?_cons, List.find?_cons, same x y head]
    cases q y with
    | true => exact .some head
    | false => exact ih

theorem forall_mem_iff_of_forall₂ (related : List.Forall₂ R xs ys) {P : α → Prop} {Q : β → Prop}
    (same : ∀ x y, R x y → (P x ↔ Q y)) : (∀ x ∈ xs, P x) ↔ ∀ y ∈ ys, Q y := by
  induction related with
  | nil => simp
  | @cons x y xs ys head _ ih => rw [List.forall_mem_cons, List.forall_mem_cons, same x y head, ih]

end Lists

variable {K : String → String → Prop}

namespace Segment.Matches

variable {segment other : Segment}

theorem duration (matched : segment.Matches K other) : other.duration = segment.duration := by
  rw [Segment.duration, Segment.duration, matched.punchIn, matched.punchOut]

/-- What segments that match play, and what of it exists, is the same. -/
theorem plays (matched : segment.Matches K other) :
    other.kind = segment.kind ∧ other.stream? = segment.stream? ∧
      other.isResolved = segment.isResolved ∧
      (other.pendingSource? = some .previousSegment ↔
        segment.pendingSource? = some .previousSegment) := by
  obtain ⟨number, punchIn, punchOut, input, body⟩ := segment
  obtain ⟨otherNumber, otherPunchIn, otherPunchOut, otherInput, otherBody⟩ := other
  have hbody : body.Matches otherBody := matched.body
  cases hbody with
  | audio stream => exact ⟨rfl, rfl, rfl, Iff.rfl⟩
  | video stream => exact ⟨rfl, rfl, rfl, Iff.rfl⟩
  | still frame => exact ⟨rfl, rfl, rfl, Iff.rfl⟩
  | page frame page path otherPath =>
    refine ⟨rfl, rfl, rfl, ?_⟩
    constructor <;> (intro h; cases h)
  | shown frame image otherImage => exact ⟨rfl, rfl, rfl, Iff.rfl⟩

theorem kind (matched : segment.Matches K other) : other.kind = segment.kind :=
  matched.plays.1

theorem stream (matched : segment.Matches K other) : other.stream? = segment.stream? :=
  matched.plays.2.1

theorem resolved (matched : segment.Matches K other) : other.isResolved = segment.isResolved :=
  matched.plays.2.2.1

theorem previous_iff (matched : segment.Matches K other) :
    other.pendingSource? = some .previousSegment ↔
      segment.pendingSource? = some .previousSegment :=
  matched.plays.2.2.2

end Segment.Matches

namespace Timeline

variable {segments others : List Segment} {segment other : Segment}

/-! ## Links -/

theorem concur_predecessor (matched : List.Forall₂ (Segment.Matches K) segments others)
    (number : other.number = segment.number) :
    Concur (Segment.Matches K) (predecessor segments segment) (predecessor others other) := by
  unfold predecessor
  rw [number]
  cases segment.number with
  | zero => exact .error _ _
  | succ wanted =>
    -- Segments are looked up by their numbers, which are the same.
    have hfind : Option.Rel (Segment.Matches K) (segments.find? (·.number = wanted))
        (others.find? (·.number = wanted)) := by
      apply find?_of_forall₂ matched
      intro first second hmatched
      rw [hmatched.number]
    simp only
    generalize segments.find? (·.number = wanted) = found at hfind ⊢
    generalize others.find? (·.number = wanted) = otherFound at hfind ⊢
    cases hfind with
    | none => exact .error _ _
    | @some previous otherPrevious hmatched =>
      simp only [hmatched.kind]
      by_cases hvideo : previous.kind = .video
      · rw [if_pos hvideo, if_pos hvideo]
        exact .ok hmatched
      · rw [if_neg hvideo, if_neg hvideo]
        exact .error _ _

theorem concur_checkLink (matched : List.Forall₂ (Segment.Matches K) segments others)
    (same : segment.Matches K other) :
    Concur (fun _ _ => True) (checkLink segments segment) (checkLink others other) := by
  unfold checkLink
  by_cases hprevious : segment.pendingSource? = some .previousSegment
  · rw [if_pos hprevious, if_pos (same.previous_iff.2 hprevious)]
    exact (concur_predecessor matched same.number).map fun _ _ _ => trivial
  · rw [if_neg hprevious, if_neg (mt same.previous_iff.1 hprevious)]
    exact .ok trivial

theorem concur_checkLinks {timeline otherTimeline : Timeline}
    (matched : List.Forall₂ (Segment.Matches K) timeline.segments otherTimeline.segments) :
    Concur (fun _ _ => True) timeline.checkLinks otherTimeline.checkLinks := by
  -- The links of any part of the timeline are looked up in all of it.
  have hpart : ∀ {part otherPart : List Segment},
      List.Forall₂ (Segment.Matches K) part otherPart →
        Concur (fun _ _ => True) (part.forM (checkLink timeline.segments))
          (otherPart.forM (checkLink otherTimeline.segments)) := by
    intro part otherPart hmatched
    induction hmatched with
    | nil => exact .ok trivial
    | cons head _ ih => exact (concur_checkLink matched head).bind fun _ _ _ => ih
  exact hpart matched

/-! ## One image -/

section Runs

variable {σ τ : Type} {names : ArtifactNames} {size otherSize : FrameSize}
  {materializer : Materializer σ} {otherMaterializer : Materializer τ}

/-- The drafts of two runs match, whatever their worlds. -/
abbrev DraftsMatch (K : String → String → Prop) : Run σ → Run τ → Prop :=
  Run.Related (Draft.Matches K) fun _ _ => True

theorem performAll_of_obliging (obliging : materializer.Obliging) (number : Nat)
    (work : List FrameOrder) (run : Run σ) :
    ∃ later, performAll materializer number work run = .ok () later ∧
      later.draft = run.draft := by
  induction work generalizing run with
  | nil => exact ⟨run, rfl, rfl⟩
  | cons order rest ih =>
    obtain ⟨world, hperform⟩ := obliging order run.world
    rw [performAll_cons_of_ok hperform]
    obtain ⟨later, hall, hdraft⟩ := ih
      { run with artifacts := run.artifacts.push order.destination, world := world }
    exact ⟨later, hall, hdraft⟩

theorem lockstep_performAll (obliging : materializer.Obliging)
    (otherObliging : otherMaterializer.Obliging) (number otherNumber : Nat)
    (work otherWork : List FrameOrder) :
    Lockstep (DraftsMatch K) (fun _ _ => True) (performAll materializer number work)
      (performAll otherMaterializer otherNumber otherWork) := by
  rintro run otherRun ⟨drafts, -⟩
  obtain ⟨later, hall, hdraft⟩ := performAll_of_obliging obliging number work run
  obtain ⟨otherLater, hotherAll, hotherDraft⟩ :=
    performAll_of_obliging otherObliging otherNumber otherWork otherRun
  rw [hall, hotherAll]
  refine .ok ⟨trivial, ?_, trivial⟩
  rw [hdraft, hotherDraft]
  exact drafts

theorem lockstep_adoptImage (unique : BiUnique K) (input : K segment.input other.input)
    (duration : other.duration = segment.duration) {image : Path} (same : K image image) :
    Lockstep (DraftsMatch K) (fun _ _ => True) (adoptImage segment image : Action (Run σ) Unit)
      (adoptImage other image : Action (Run τ) Unit) := by
  apply lockstep_get_bind
  rintro run otherRun ⟨drafts, -⟩
  rw [duration]
  apply (lockstep_ofExcept (drafts.registry.rename unique input same _)).bind
  intro registry otherRegistry registries _ _ _
  exact .ok ⟨trivial, ⟨registries, drafts.next⟩, trivial⟩

/-- A pending segment gets its image if the orders for it can be given. -/
theorem lockstep_materializeOne_pending (unique : BiUnique K)
    (images : ∀ number, K (names.path .frame number) (names.path .frame number))
    (obliging : materializer.Obliging) (otherObliging : otherMaterializer.Obliging)
    {number : Nat} {punchIn punchOut : Timecode} {input otherInput : String} {frame : FrameNumber}
    {source otherSource : FrameSource} (related : K input otherInput)
    (ordered : ∀ started otherStarted : Segment, otherStarted.number = started.number →
      Concur (fun _ _ => True)
        (orders names size segments started (names.path .frame number) source)
        (orders names otherSize others otherStarted (names.path .frame number) otherSource)) :
    Lockstep (DraftsMatch K) (Segment.Matches K)
      (materializeOne names size materializer segments
        ⟨number, punchIn, punchOut, input, .frame frame (.pending source)⟩)
      (materializeOne names otherSize otherMaterializer others
        ⟨number, punchIn, punchOut, otherInput, .frame frame (.pending otherSource)⟩) := by
  apply (lockstep_ofExcept (ordered _ _ rfl)).bind
  intro work otherWork _
  apply (lockstep_performAll obliging otherObliging _ _ work otherWork).bind
  intro _ _ _
  refine (lockstep_adoptImage unique ?_ ?_ (images number)).bind ?_
  · exact related
  · rfl
  · intro _ _ _
    exact lockstep_pure ⟨rfl, rfl, rfl, images number, .shown frame _ _⟩

theorem lockstep_materializeOne (unique : BiUnique K)
    (images : ∀ number, K (names.path .frame number) (names.path .frame number))
    (obliging : materializer.Obliging) (otherObliging : otherMaterializer.Obliging)
    (all : List.Forall₂ (Segment.Matches K) segments others) (same : segment.Matches K other) :
    Lockstep (DraftsMatch K) (Segment.Matches K)
      (materializeOne names size materializer segments segment)
      (materializeOne names otherSize otherMaterializer others other) := by
  obtain ⟨number, punchIn, punchOut, input, body⟩ := segment
  obtain ⟨otherNumber, otherPunchIn, otherPunchOut, otherInput, otherBody⟩ := other
  obtain ⟨rfl, rfl, rfl, hinput, hbody⟩ :
      otherNumber = number ∧ otherPunchIn = punchIn ∧ otherPunchOut = punchOut ∧
        K input otherInput ∧ body.Matches otherBody :=
    ⟨same.number, same.punchIn, same.punchOut, same.input, same.body⟩
  cases hbody with
  -- Nothing has to be done unless an image is pending.
  | audio stream => exact lockstep_pure same
  | video stream => exact lockstep_pure same
  | shown frame image otherImage => exact lockstep_pure same
  -- A frame of the previous segment can be ordered if that segment is video.
  | still frame =>
    apply lockstep_materializeOne_pending unique images obliging otherObliging hinput
    intro started otherStarted hnumber
    exact (concur_predecessor all hnumber).map fun _ _ _ => trivial
  -- A page can always be ordered, whatever its document is called.
  | page frame page path otherPath =>
    apply lockstep_materializeOne_pending unique images obliging otherObliging hinput
    intro started otherStarted _
    exact .ok trivial

/-! ## All images -/

theorem lockstep_materializeFrom (unique : BiUnique K)
    (images : ∀ number, K (names.path .frame number) (names.path .frame number))
    (obliging : materializer.Obliging) (otherObliging : otherMaterializer.Obliging)
    {done otherDone left otherLeft : List Segment}
    (made : List.Forall₂ (Segment.Matches K) done otherDone)
    (matched : List.Forall₂ (Segment.Matches K) left otherLeft) :
    Lockstep (DraftsMatch K) (List.Forall₂ (Segment.Matches K))
      (materializeFrom names size materializer done left)
      (materializeFrom names otherSize otherMaterializer otherDone otherLeft) := by
  induction matched generalizing done otherDone with
  | nil => exact lockstep_pure made
  | cons head tail ih =>
    -- The images that are made already match as well, so links may lead to them.
    have hall := List.rel_append made (List.Forall₂.cons head tail)
    apply (lockstep_materializeOne unique images obliging otherObliging hall head).bind
    intro image otherImage himage
    exact ih (List.rel_append made (.cons himage .nil))

theorem exists_ofTimeline_iff (timeline : Timeline) :
    (∃ resolved, ResolvedTimeline.ofTimeline timeline = .ok resolved) ↔
      ∀ segment ∈ timeline.segments, segment.isResolved = true := by
  constructor
  · rintro ⟨resolved, h⟩
    rw [← segments_of_ofTimeline h]
    exact resolved.resolved
  · intro h
    have hnone : timeline.segments.find? (!·.isResolved) = none := by
      apply List.find?_eq_none.2
      intro segment hsegment
      simp [h segment hsegment]
    unfold ResolvedTimeline.ofTimeline
    split
    · next found hfound =>
      rw [hnone] at hfound
      cases hfound
    · exact ⟨_, rfl⟩

theorem concur_ofTimeline {timeline otherTimeline : Timeline}
    (matched : List.Forall₂ (Segment.Matches K) timeline.segments otherTimeline.segments) :
    Concur (fun resolved otherResolved =>
        List.Forall₂ (Segment.Matches K) resolved.segments otherResolved.segments)
      (ResolvedTimeline.ofTimeline timeline) (ResolvedTimeline.ofTimeline otherTimeline) := by
  apply Concur.of_iff
  · rw [exists_ofTimeline_iff, exists_ofTimeline_iff]
    apply forall_mem_iff_of_forall₂ matched
    intro segment other same
    rw [same.resolved]
  · intro resolved otherResolved hresolved hother
    rw [segments_of_ofTimeline hresolved, segments_of_ofTimeline hother]
    exact matched

/-- Where segments match, materializers that never fail make the same images, and the drafts match
again. -/
theorem lockstep_materialize (unique : BiUnique K)
    (images : ∀ number, K (names.path .frame number) (names.path .frame number))
    (obliging : materializer.Obliging) (otherObliging : otherMaterializer.Obliging)
    {timeline otherTimeline : Timeline}
    (matched : List.Forall₂ (Segment.Matches K) timeline.segments otherTimeline.segments) :
    Lockstep (DraftsMatch K)
      (fun resolved otherResolved =>
        List.Forall₂ (Segment.Matches K) resolved.segments otherResolved.segments)
      (timeline.materialize names size materializer)
      (otherTimeline.materialize names otherSize otherMaterializer) := by
  apply (lockstep_ofExcept (concur_checkLinks matched)).bind
  intro _ _ _
  apply (lockstep_materializeFrom unique images obliging otherObliging .nil matched).bind
  intro segments otherSegments hsegments
  exact lockstep_ofExcept (concur_ofTimeline hsegments)

end Runs

end Timeline

end EpisodeCut
