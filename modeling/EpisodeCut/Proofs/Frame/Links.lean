import EpisodeCut.Proofs.Frame.Calls

/-!
# Links to the segment before

A frame that shows the segment before is linked to it by its number. If a link is broken, a run ends
with the first broken one before anything is done, whatever the materializer would do. If none is,
the images made on the way break none either. Whenever a run comes to such a frame, the segment that
is found is the one that was found when the links were checked, and the run goes on with the orders
for a copy of that segment and a frame of the copy; however it ends, it does not end with a broken
link (`materialize_links`).
-/

set_option autoImplicit false

namespace EpisodeCut

/-- A failure reports a broken link. -/
def Failure.breaksLink : Failure → Bool
  | .noPredecessor .. | .predecessorNotVideo .. => true
  | _ => false

namespace Timeline

variable {σ : Type} {timeline : Timeline} {names : ArtifactNames} {size : FrameSize}
  {materializer : Materializer σ}

/-! ## Broken links -/

/-- A frame shows the segment before it, but there is none, or the first one with its number is no
video. -/
structure BrokenLink (timeline : Timeline) (segment : Segment) : Prop where
  pending : segment.pendingSource? = some .previousSegment
  broken : segment.number = 0 ∨
    (∀ other ∈ timeline.segments, other.number + 1 ≠ segment.number) ∨
    ∃ front previous rest, timeline.segments = front ++ previous :: rest ∧
      (∀ other ∈ front, other.number + 1 ≠ segment.number) ∧
      previous.number + 1 = segment.number ∧ previous.kind ≠ .video

theorem previous?_eq_none_iff {segment : Segment} :
    timeline.previous? segment = none ↔
      segment.number = 0 ∨ ∀ other ∈ timeline.segments, other.number + 1 ≠ segment.number := by
  rw [previous?]
  cases segment.number with
  | zero => simp
  | succ wanted => simp

theorem previous?_eq_some_iff {segment previous : Segment} :
    timeline.previous? segment = some previous ↔
      ∃ front rest, timeline.segments = front ++ previous :: rest ∧
        (∀ other ∈ front, other.number + 1 ≠ segment.number) ∧
        previous.number + 1 = segment.number := by
  rw [previous?]
  cases segment.number with
  | zero => simp
  | succ wanted =>
    simp only [List.find?_eq_some_iff_append, decide_eq_true_eq, Bool.not_eq_true',
      decide_eq_false_iff_not, ne_eq, Nat.add_right_cancel_iff]
    constructor
    · rintro ⟨hwanted, front, rest, hsplit, hfront⟩
      exact ⟨front, rest, hsplit, hfront, hwanted⟩
    · rintro ⟨front, rest, hsplit, hfront, hwanted⟩
      exact ⟨hwanted, front, rest, hsplit, hfront⟩

/-- The link of a frame is broken if and only if no video segment is found before it. -/
theorem brokenLink_iff {segment : Segment}
    (pending : segment.pendingSource? = some .previousSegment) :
    timeline.BrokenLink segment ↔
      ∀ previous, timeline.previous? segment = some previous → previous.kind ≠ .video := by
  constructor
  · rintro ⟨-, hbroken⟩ previous hprevious hvideo
    rcases hbroken with hzero | hnone | ⟨front, other, rest, hsplit, hfront, hnumber, hkind⟩
    · rw [previous?_eq_none_iff.2 (.inl hzero)] at hprevious
      cases hprevious
    · rw [previous?_eq_none_iff.2 (.inr hnone)] at hprevious
      cases hprevious
    · rw [previous?_eq_some_iff.2 ⟨front, rest, hsplit, hfront, hnumber⟩] at hprevious
      cases hprevious
      exact hkind hvideo
  · intro h
    refine ⟨pending, ?_⟩
    cases hprevious : timeline.previous? segment with
    | none =>
      rcases previous?_eq_none_iff.1 hprevious with hzero | hnone
      · exact .inl hzero
      · exact .inr (.inl hnone)
    | some previous =>
      obtain ⟨front, rest, hsplit, hfront, hnumber⟩ := previous?_eq_some_iff.1 hprevious
      exact .inr (.inr ⟨front, previous, rest, hsplit, hfront, hnumber, h previous hprevious⟩)

/-! ## The check of all links -/

/-- A failure in the chain of frames, that reports a broken link for segment `number`. -/
structure ReportsLink (number : Nat) (failure : Failure) : Prop where
  category : failure.category = .chain
  breaksLink : failure.breaksLink = true
  message : ∃ text, failure.message = Failure.chainText number text

/-- A search for the segment before that fails is reported for the frame itself. -/
theorem reportsLink_of_predecessor {segments : List Segment} {segment : Segment}
    {failure : Failure} (h : predecessor segments segment = .error failure) :
    ReportsLink segment.number failure := by
  unfold predecessor at h
  split at h
  · cases h
    exact ⟨rfl, rfl, _, rfl⟩
  · split at h
    · cases h
      exact ⟨rfl, rfl, _, rfl⟩
    · split at h
      · cases h
      · cases h
        exact ⟨rfl, rfl, _, rfl⟩

/-- A broken link is reported for its frame. -/
theorem BrokenLink.checkLink_eq_error {segment : Segment} (h : timeline.BrokenLink segment) :
    ∃ failure, checkLink timeline.segments segment = .error failure ∧
      ReportsLink segment.number failure := by
  cases hfound : predecessor timeline.segments segment with
  | error failure =>
    refine ⟨failure, ?_, reportsLink_of_predecessor hfound⟩
    rw [checkLink, if_pos h.pending, hfound]
    rfl
  | ok previous =>
    obtain ⟨hprevious, hvideo⟩ := predecessor_eq_ok_iff.1 hfound
    exact absurd hvideo ((brokenLink_iff h.pending).1 h previous hprevious)

/-- A link is found in order if and only if it is not broken. -/
theorem checkLink_eq_ok_iff {segment : Segment} :
    checkLink timeline.segments segment = .ok () ↔ ¬timeline.BrokenLink segment := by
  constructor
  · intro hok hbroken
    obtain ⟨failure, hcheck, -⟩ := hbroken.checkLink_eq_error
    rw [hok] at hcheck
    cases hcheck
  · intro sound
    rw [checkLink]
    split
    · next hpending =>
      rw [brokenLink_iff hpending] at sound
      push Not at sound
      obtain ⟨previous, hprevious, hvideo⟩ := sound
      rw [predecessor_eq_ok_iff.2 ⟨hprevious, hvideo⟩]
      rfl
    · rfl

/-- Whether a link is broken can be found out by checking it. -/
instance (timeline : Timeline) (segment : Segment) : Decidable (timeline.BrokenLink segment) :=
  decidable_of_iff (checkLink timeline.segments segment ≠ .ok ())
    (not_iff_comm.1 checkLink_eq_ok_iff.symm)

/-- All links are found in order if and only if none is broken. -/
theorem checkLinks_eq_ok_iff :
    timeline.checkLinks = .ok () ↔ ∀ segment ∈ timeline.segments, ¬timeline.BrokenLink segment := by
  simp only [← checkLink_eq_ok_iff]
  exact forM_eq_ok_iff

/-- The first broken link in playing order is reported. -/
theorem checkLinks_eq_error {before after : List Segment} {segment : Segment}
    (hsegments : timeline.segments = before ++ segment :: after)
    (sound : ∀ other ∈ before, ¬timeline.BrokenLink other) (broken : timeline.BrokenLink segment) :
    ∃ failure, timeline.checkLinks = .error failure ∧ ReportsLink segment.number failure := by
  obtain ⟨failure, hcheck, hreports⟩ := broken.checkLink_eq_error
  refine ⟨failure, ?_, hreports⟩
  have hfirst : (segment :: after).forM (checkLink timeline.segments) = .error failure := by
    rw [List.forM, hcheck]
    rfl
  rw [← hfirst, ← forM_append_of_ok (fun other hother =>
    checkLink_eq_ok_iff.2 (sound other hother)) (segment :: after), ← hsegments]
  rfl

/-! ## Links that hold throughout a run -/

/-- From `run` on, the making of images comes to a point where the segments `done` have been dealt
with, the segments `left` have not, and the state of the run is `now`. -/
inductive Passes (timeline : Timeline) (names : ArtifactNames) (size : FrameSize)
    (materializer : Materializer σ) (run : Run σ) :
    List Segment → List Segment → Run σ → Prop
  | start : Passes timeline names size materializer run [] timeline.segments run
  | next {done left : List Segment} {segment made : Segment} {now later : Run σ} :
      Passes timeline names size materializer run done (segment :: left) now →
      materializeOne names size materializer (done ++ segment :: left) segment now =
        .ok made later →
      Passes timeline names size materializer run (done ++ [made]) left later

/-- The making of images goes on from every point to which it comes. -/
theorem Passes.materializeFrom_eq {done left : List Segment} {run now : Run σ}
    (h : timeline.Passes names size materializer run done left now) :
    materializeFrom names size materializer [] timeline.segments run =
      materializeFrom names size materializer done left now := by
  induction h with
  | start => rfl
  | next _ hone ih =>
    rw [ih, materializeFrom, Action.bind_eq_of_ok hone]

/-- What has been dealt with are the segments before with their images. -/
theorem Passes.segments_eq {done left : List Segment} {run now : Run σ}
    (h : timeline.Passes names size materializer run done left now) :
    ∃ passed, done = passed.map (·.withImage names) ∧ timeline.segments = passed ++ left := by
  induction h with
  | start => exact ⟨[], rfl, rfl⟩
  | @next done left segment made now later _ hone ih =>
    obtain ⟨passed, rfl, hsegments⟩ := ih
    obtain ⟨rfl, -⟩ := materializeOne_eq_ok hone
    refine ⟨passed ++ [segment], ?_, ?_⟩
    · rw [List.map_append, List.map_singleton]
    · rw [hsegments, List.append_assoc]
      rfl

theorem predecessor_withState (segments : List Segment) (segment : Segment) (state : FrameState) :
    predecessor segments (segment.withState state) = predecessor segments segment := by
  obtain ⟨number, punchIn, punchOut, input, body⟩ := segment
  cases body <;> rfl

/-- A making of images that fails comes to a point where the image of one segment fails. -/
theorem Passes.exists_of_error {done left : List Segment} {run now later : Run σ}
    {failure : Failure} (h : timeline.Passes names size materializer run done left now)
    (fails : materializeFrom names size materializer done left now = .error failure later) :
    ∃ made segment rest before, timeline.Passes names size materializer run made (segment :: rest)
        before ∧
      materializeOne names size materializer (made ++ segment :: rest) segment before =
        .error failure later := by
  induction left generalizing done now with
  | nil => cases fails
  | cons segment left ih =>
    rcases Action.bind_eq_error fails with hone | ⟨image, middle, hone, hrest⟩
    · exact ⟨done, segment, left, now, h, hone⟩
    · exact ih (h.next hone) hrest

/-- The orders for a frame of the segment before: a copy of that segment, and a frame of the copy. -/
def linkOrders (names : ArtifactNames) (previous segment : Segment) : List FrameOrder :=
  let media := names.path previous.kind previous.number
  [.render previous media,
    .extract media (frameNumber segment) (names.path .frame segment.number)]

/-- Among the segments `around` it, the link of a frame leads to the video segment `previous` to
which it leads in the timeline, and its orders are found. -/
structure LinkHolds (timeline : Timeline) (names : ArtifactNames) (size : FrameSize)
    (around : List Segment) (segment previous : Segment) : Prop where
  member : previous ∈ timeline.segments
  video : previous.kind = .video
  checked : predecessor timeline.segments segment = .ok previous
  found : predecessor around (segment.withState (.materializing .previousSegment)) = .ok previous
  ordered : orders names size around (segment.withState (.materializing .previousSegment))
    (names.path .frame segment.number) .previousSegment = .ok (linkOrders names previous segment)

/-- At every point the link of a frame leads where it led when the links were checked. -/
theorem Passes.linkHolds {done left : List Segment} {segment : Segment} {run now : Run σ}
    (h : timeline.Passes names size materializer run done (segment :: left) now)
    (sound : ¬timeline.BrokenLink segment)
    (pending : segment.pendingSource? = some .previousSegment) :
    ∃ previous, timeline.LinkHolds names size (done ++ segment :: left) segment previous := by
  obtain ⟨passed, rfl, hsegments⟩ := h.segments_eq
  -- Images change neither numbers nor videos, so the search passes the same segments.
  have hlink := checkLink_eq_ok_iff.2 sound
  obtain ⟨previous, hprevious, hvideo⟩ := previous?_of_checkLink hlink pending
  obtain ⟨front, rest, hsplit, -, -⟩ := previous?_eq_some_iff.1 hprevious
  have hmember : previous ∈ timeline.segments := by
    rw [hsplit]
    simp
  have hfound : predecessor (passed.map (·.withImage names) ++ segment :: left)
      (segment.withState (.materializing .previousSegment)) = .ok previous := by
    rw [predecessor_withState, predecessor_eq_ok_iff]
    refine ⟨previous?_images hvideo ?_, hvideo⟩
    rw [← hsegments]
    exact hprevious
  have hneeded : timeline.imageOrders names size segment = linkOrders names previous segment := by
    rw [imageOrders, pending, hprevious]
    rfl
  have hordered : orders names size (passed.map (·.withImage names) ++ segment :: left)
      (segment.withState (.materializing .previousSegment)) (names.path .frame segment.number)
      .previousSegment = .ok (linkOrders names previous segment) := by
    rw [← hneeded]
    exact orders_eq_ok hsegments hlink pending
  exact ⟨previous, hmember, hvideo, predecessor_eq_ok_iff.2 ⟨hprevious, hvideo⟩, hfound, hordered⟩

/-- With all links in order, a run goes on from every point to which it comes. -/
theorem Passes.materialize_eq {done left : List Segment} {run now : Run σ}
    (h : timeline.Passes names size materializer run done left now)
    (sound : ∀ segment ∈ timeline.segments, ¬timeline.BrokenLink segment) :
    timeline.materialize names size materializer run = (do
      let made ← materializeFrom names size materializer done left
      Action.ofExcept (ResolvedTimeline.ofTimeline ⟨made⟩)) now := by
  have hchecked : Action.ofExcept timeline.checkLinks run = .ok () run := by
    rw [checkLinks_eq_ok_iff.2 sound]
    rfl
  rw [materialize, Action.bind_eq_of_ok hchecked]
  exact Action.bind_eq_bind h.materializeFrom_eq _

/-- An image that cannot take the place of an input breaks no link. -/
theorem breaksLink_of_rename {registry : Registry} {old new : String}
    {options : Option (List String)} {failure : Failure}
    (h : registry.rename old new options = .error failure) : failure.breaksLink = false := by
  have hanswer : (InputTable.rename old new options).answer registry.toInputTable =
      .error failure := by
    rw [Registry.rename] at h
    cases hrename : (InputTable.rename old new options).answer registry.toInputTable with
    | ok place =>
      rw [hrename] at h
      cases h
    | error refusal =>
      rw [hrename] at h
      cases h
      rfl
  cases hold : registry.toInputTable.indexOf? old with
  | none =>
    rw [Action.answer_of_error (InputTable.rename_of_none hold)] at hanswer
    cases hanswer
    rfl
  | some place =>
    by_cases hsame : old = new
    · subst hsame
      rw [Action.answer_of_ok (InputTable.rename_self hold)] at hanswer
      cases hanswer
    · cases hnew : registry.toInputTable.indexOf? new with
      | none =>
        rw [Action.answer_of_ok (InputTable.rename_of_fresh hold hsame hnew)] at hanswer
        cases hanswer
      | some other =>
        rw [Action.answer_of_error (InputTable.rename_of_taken hold hsame hnew)] at hanswer
        cases hanswer
        rfl

theorem breaksLink_of_ofTimeline {made : Timeline} {failure : Failure}
    (h : ResolvedTimeline.ofTimeline made = .error failure) : failure.breaksLink = false := by
  unfold ResolvedTimeline.ofTimeline at h
  split at h
  · cases h
    rfl
  · cases h

/-- A segment whose orders are found does not fail with a broken link. -/
theorem breaksLink_of_orders {segments : List Segment} {segment : Segment} {source : FrameSource}
    {work : List FrameOrder} {run later : Run σ} {failure : Failure}
    (pending : segment.pendingSource? = some source)
    (ordered : orders names size segments (segment.withState (.materializing source))
      (names.path .frame segment.number) source = .ok work)
    (fails : materializeOne names size materializer segments segment run = .error failure later) :
    failure.breaksLink = false := by
  rw [materializeOne_of_orders pending ordered] at fails
  rcases Action.bind_eq_error fails with hperform | ⟨done, middle, -, hrest⟩
  · -- An order that fails is reported as the failure of its frame.
    rcases performAll_cases materializer segment.number work run with
      ⟨other, hall, -⟩ | ⟨_, _, _, _, other, -, hfail, -⟩
    · rw [hperform] at hall
      cases hall
    · rw [hperform] at hfail
      cases hfail
      rfl
  · rcases Action.bind_eq_error hrest with hadopt | ⟨adopted, last, -, hmade⟩
    · rw [adoptImage_eq] at hadopt
      split at hadopt
      · cases hadopt
      · next refusal hrename =>
        cases hadopt
        exact breaksLink_of_rename hrename
    · cases hmade

/-- With all links in order, no run ends with a broken one. -/
theorem breaksLink_of_materialize {run later : Run σ} {failure : Failure}
    (sound : ∀ segment ∈ timeline.segments, ¬timeline.BrokenLink segment)
    (fails : timeline.materialize names size materializer run = .error failure later) :
    failure.breaksLink = false := by
  have hstart : timeline.Passes names size materializer run [] timeline.segments run := .start
  -- Either the image of some segment fails, or the timeline with all images is refused.
  rw [hstart.materialize_eq sound] at fails
  rcases Action.bind_eq_error fails with hmaking | ⟨made, middle, -, haccept⟩
  · obtain ⟨done, segment, left, now, hpasses, hone⟩ := hstart.exists_of_error hmaking
    obtain ⟨passed, rfl, hsegments⟩ := hpasses.segments_eq
    cases hpending : segment.pendingSource? with
    | none =>
      have hready : segment.isPending = false := by
        rw [Segment.isPending, hpending]
        rfl
      rw [materializeOne_of_ready hready] at hone
      cases hone
    | some source =>
      have hmember : segment ∈ timeline.segments := by
        rw [hsegments]
        simp
      have hlink := checkLink_eq_ok_iff.2 (sound segment hmember)
      exact breaksLink_of_orders hpending (orders_eq_ok hsegments hlink hpending) hone
  · have hrefused := Action.answer_of_error haccept
    rw [Action.answer_ofExcept] at hrefused
    exact breaksLink_of_ofTimeline hrefused

/-- A broken link ends a run before anything is done: the first one in playing order is reported, and
the run is as it was, with all that the materializer could have changed. If no link is broken, none
breaks on the way: whenever the run comes to a frame of the segment before, the search finds the
video segment that was found by the check, and the run goes on by having that segment copied and the
frame taken from the copy. It never ends with a broken link. -/
theorem materialize_links (timeline : Timeline) (names : ArtifactNames) (size : FrameSize)
    (materializer : Materializer σ) (run : Run σ) :
    (∀ before segment after, timeline.segments = before ++ segment :: after →
      (∀ other ∈ before, ¬timeline.BrokenLink other) → timeline.BrokenLink segment →
        ∃ failure, timeline.materialize names size materializer run = .error failure run ∧
          ReportsLink segment.number failure) ∧
    ((∀ segment ∈ timeline.segments, ¬timeline.BrokenLink segment) →
      (∀ done segment left now,
        timeline.Passes names size materializer run done (segment :: left) now →
        segment.pendingSource? = some .previousSegment →
          ∃ previous, timeline.LinkHolds names size (done ++ segment :: left) segment previous ∧
            timeline.materialize names size materializer run = (do
              performAll materializer segment.number (linkOrders names previous segment)
              adoptImage segment (names.path .frame segment.number)
              let made ← materializeFrom names size materializer
                (done ++ [segment.withImage names]) left
              Action.ofExcept (ResolvedTimeline.ofTimeline ⟨made⟩)) now) ∧
      ∀ failure later, timeline.materialize names size materializer run = .error failure later →
        failure.breaksLink = false) := by
  constructor
  · intro before segment after hsegments hsound hbroken
    obtain ⟨failure, hchecked, hreports⟩ := checkLinks_eq_error hsegments hsound hbroken
    refine ⟨failure, ?_, hreports⟩
    have herror : Action.ofExcept timeline.checkLinks run = .error failure run := by
      rw [hchecked]
      rfl
    rw [materialize, Action.bind_eq_of_error herror]
  · intro hsound
    refine ⟨?_, fun failure later => breaksLink_of_materialize hsound⟩
    intro done segment left now hpasses hpending
    obtain ⟨passed, -, hsegments⟩ := hpasses.segments_eq
    have hmember : segment ∈ timeline.segments := by
      rw [hsegments]
      simp
    obtain ⟨previous, hholds⟩ := hpasses.linkHolds (hsound segment hmember) hpending
    refine ⟨previous, hholds, ?_⟩
    rw [hpasses.materialize_eq hsound, materializeFrom, bind_assoc,
      Action.bind_eq_bind (materializeOne_of_orders hpending hholds.ordered now)]
    simp only [bind_assoc, pure_bind]

/-- A frame of the segment before, which should be segment 2. -/
def strayFrame : Segment :=
  ⟨3, .zero, .ofSeconds 2, placeholder "^" 3, .frame .last (.pending .previousSegment)⟩

/-- A film with its last frame, and music, of which there is no frame. -/
def musicShow : Timeline where
  segments := [
    ⟨0, .zero, .ofSeconds 5, "film.mov", .video 0⟩,
    ⟨1, .zero, .ofSeconds 3, placeholder "^" 1, .frame .last (.pending .previousSegment)⟩,
    ⟨2, .zero, .ofSeconds 4, "music.wav", .audio 0⟩,
    strayFrame]

theorem links_shows :
    (∃ failure, musicShow.materialize (.ofOutput "out/show.mov") .standard copier
        (slideshowRun ()) = .error failure (slideshowRun ()) ∧
      ReportsLink strayFrame.number failure) ∧
    (∃ film frame left, slideshow.segments = film :: frame :: left ∧
      ∃ previous, slideshow.LinkHolds (.ofOutput "out/show.mov") .standard ([film] ++ frame :: left)
          frame previous ∧
        slideshow.materialize (.ofOutput "out/show.mov") .standard copier (slideshowRun ()) = (do
          performAll copier frame.number (linkOrders (.ofOutput "out/show.mov") previous frame)
          adoptImage frame ((ArtifactNames.ofOutput "out/show.mov").path .frame frame.number)
          let made ← materializeFrom (.ofOutput "out/show.mov") .standard copier
            ([film] ++ [frame.withImage (.ofOutput "out/show.mov")]) left
          Action.ofExcept (ResolvedTimeline.ofTimeline ⟨made⟩)) (slideshowRun ())) ∧
    ∃ failure later, slideshow.materialize (.ofOutput "out/show.mov") .standard copier
        (slideshowRun ()) = .error failure later ∧ failure.breaksLink = false := by
  have hsound : ∀ segment ∈ slideshow.segments, ¬slideshow.BrokenLink segment := by decide
  refine ⟨?_, ?_, ?_⟩
  · have hsegments : musicShow.segments = musicShow.segments.take 3 ++ strayFrame :: [] := rfl
    have hbefore : ∀ other ∈ musicShow.segments.take 3, ¬musicShow.BrokenLink other := by decide
    have hbroken : musicShow.BrokenLink strayFrame := by decide
    exact (materialize_links musicShow _ .standard copier _).1 _ _ _ hsegments hbefore hbroken
  · refine ⟨_, _, _, rfl, ?_⟩
    have hstart : slideshow.Passes (.ofOutput "out/show.mov") .standard copier (slideshowRun ()) []
        slideshow.segments (slideshowRun ()) := .start
    have hpasses := hstart.next (materializeOne_of_ready rfl _)
    exact ((materialize_links slideshow _ .standard copier _).2 hsound).1 _ _ _ _ hpasses rfl
  · have hfails : (slideshow.materialize (.ofOutput "out/show.mov") .standard copier).answer
        (slideshowRun ()) =
          .error (.frameFailed 1 (.tool "ffmpeg" "extract" "out/temp_video_show_000.mov"
            .missingFile)) := by
      decide +kernel
    have hended := Action.eq_error_of_answer hfails
    exact ⟨_, _, hended, ((materialize_links slideshow _ .standard copier _).2 hsound).2 _ _ hended⟩

end Timeline

end EpisodeCut
