import EpisodeCut.Proofs.Frame.Images

/-!
# The calls of a materializer

Which orders a timeline needs for its images follows from its segments alone
(`Timeline.imageOrders`). Once all links have been checked, exactly these orders are given, segment
by segment, up to the first one that fails or the first image that cannot take the place of its
input (`Timeline.Ends`), and the destination of every order given is on record
(`Timeline.chained_materialize`).
-/

set_option autoImplicit false

namespace EpisodeCut.Timeline

variable {σ : Type} {timeline : Timeline} {names : ArtifactNames} {size : FrameSize}
  {materializer : Materializer σ}

/-! ## The orders that a timeline needs -/

/-- The segment that is numbered immediately before `segment`. -/
def previous? (timeline : Timeline) (segment : Segment) : Option Segment :=
  match segment.number with
  | 0 => none
  | wanted + 1 => timeline.segments.find? (·.number = wanted)

/-- The orders that the image of a segment needs. A frame of the segment before is taken from a copy
of that segment, and a page of a document from the document. -/
def imageOrders (timeline : Timeline) (names : ArtifactNames) (size : FrameSize)
    (segment : Segment) : List FrameOrder :=
  match segment.pendingSource? with
  | none => []
  | some .previousSegment =>
    match timeline.previous? segment with
    | none => []
    | some previous =>
      let media := names.path previous.kind previous.number
      [.render previous media,
        .extract media (frameNumber segment) (names.path .frame segment.number)]
  | some (.document path page) =>
    [.rasterize path page size (names.path .frame segment.number)]

theorem imageOrders_of_ready {segment : Segment} (ready : segment.isPending = false) :
    timeline.imageOrders names size segment = [] := by
  have hsource : segment.pendingSource? = none := by
    simpa [Segment.isPending] using ready
  rw [imageOrders, hsource]

/-- How the orders for the segments `left` end, when `calls` are the orders given, `outcome` is that
of the last one, and `result` that of the whole. In the end the inputs are those of `registry`. -/
inductive Ends (timeline : Timeline) (names : ArtifactNames) (size : FrameSize)
    (registry : Registry) :
    List Segment → List FrameOrder → Except Failure Unit → Except Failure Unit → Prop
  /-- All orders were carried out, and all images took their places. -/
  | finished (left : List Segment) :
      Ends timeline names size registry left (left.flatMap (timeline.imageOrders names size))
        (.ok ()) (.ok ())
  /-- An order failed, and so did the frame that needs it. -/
  | orderFailed {before after : List Segment} {segment : Segment} {first rest : List FrameOrder}
      {order : FrameOrder} {cause failure : Failure} :
      timeline.imageOrders names size segment = first ++ order :: rest →
      failure.category = .chain →
      failure.message = Failure.chainText segment.number cause.message →
      Ends timeline names size registry (before ++ segment :: after)
        (before.flatMap (timeline.imageOrders names size) ++ first ++ [order])
        (.error cause) (.error failure)
  /-- The image of a segment was made, but could not take the place of the input. -/
  | renameRefused {before after : List Segment} {segment : Segment} {failure : Failure} :
      segment.isPending = true →
      registry.rename segment.input (names.path .frame segment.number)
        (some (stillOptions segment.duration)) = .error failure →
      Ends timeline names size registry (before ++ segment :: after)
        ((before ++ [segment]).flatMap (timeline.imageOrders names size)) (.ok ()) (.error failure)

/-- The orders for one more segment in front come before all others. -/
theorem Ends.cons {registry : Registry} {left : List Segment} {calls : List FrameOrder}
    {outcome result : Except Failure Unit} (segment : Segment)
    (rest : timeline.Ends names size registry left calls outcome result) :
    timeline.Ends names size registry (segment :: left)
      (timeline.imageOrders names size segment ++ calls) outcome result := by
  cases rest with
  | finished => exact .finished (segment :: left)
  | @orderFailed before after failed first others order cause failure horders hcategory hmessage =>
    have h : timeline.Ends names size registry ((segment :: before) ++ failed :: after)
        ((segment :: before).flatMap (timeline.imageOrders names size) ++ first ++ [order])
        (.error cause) (.error failure) := .orderFailed horders hcategory hmessage
    simpa only [List.flatMap_cons, List.cons_append, List.append_assoc] using h
  | @renameRefused before after refused failure hpending hrename =>
    have h : timeline.Ends names size registry ((segment :: before) ++ refused :: after)
        (((segment :: before) ++ [refused]).flatMap (timeline.imageOrders names size))
        (.ok ()) (.error failure) := .renameRefused hpending hrename
    simpa only [List.flatMap_cons, List.cons_append] using h

/-- The orders given are the first ones of those needed. -/
theorem Ends.isPrefix {registry : Registry} {left : List Segment} {calls : List FrameOrder}
    {outcome result : Except Failure Unit}
    (ends : timeline.Ends names size registry left calls outcome result) :
    calls <+: left.flatMap (timeline.imageOrders names size) := by
  cases ends with
  | finished => exact List.prefix_rfl
  | @orderFailed before after segment first rest order cause failure horders =>
    refine ⟨rest ++ after.flatMap (timeline.imageOrders names size), ?_⟩
    simp [horders]
  | @renameRefused before after segment failure =>
    refine ⟨after.flatMap (timeline.imageOrders names size), ?_⟩
    simp

theorem Ends.eq_of_ok {registry : Registry} {left : List Segment} {calls : List FrameOrder}
    {outcome : Except Failure Unit}
    (ends : timeline.Ends names size registry left calls outcome (.ok ())) :
    calls = left.flatMap (timeline.imageOrders names size) := by
  cases ends
  rfl

/-! ## Links -/

/-- Checks that pass before the first one that fails do not matter. -/
theorem forM_append_of_ok {α : Type} {check : α → Except Failure Unit} {before : List α}
    (passed : ∀ x ∈ before, check x = .ok ()) (after : List α) :
    (before ++ after).forM check = after.forM check := by
  induction before with
  | nil => rfl
  | cons x before ih =>
    rw [List.cons_append, List.forM, passed x List.mem_cons_self]
    exact ih fun y hy => passed y (List.mem_cons_of_mem x hy)

theorem forM_eq_ok_iff {α : Type} {check : α → Except Failure Unit} {things : List α} :
    things.forM check = .ok () ↔ ∀ x ∈ things, check x = .ok () := by
  constructor
  · intro h
    induction things with
    | nil => simp
    | cons x things ih =>
      cases hx : check x with
      | error failure =>
        rw [List.forM, hx] at h
        cases h
      | ok done =>
        rw [List.forM, hx] at h
        exact List.forall_mem_cons.2 ⟨hx, ih h⟩
  · intro h
    have hall := forM_append_of_ok h []
    rw [List.append_nil] at hall
    exact hall

theorem checkLink_of_checkLinks (linked : timeline.checkLinks = .ok ()) {segment : Segment}
    (h : segment ∈ timeline.segments) : checkLink timeline.segments segment = .ok () :=
  forM_eq_ok_iff.1 linked segment h

/-- The predecessor of a segment is the video segment that is numbered before it. -/
theorem predecessor_eq_ok_iff {segments : List Segment} {segment previous : Segment} :
    predecessor segments segment = .ok previous ↔
      (⟨segments⟩ : Timeline).previous? segment = some previous ∧ previous.kind = .video := by
  simp only [predecessor, previous?]
  cases segment.number with
  | zero => simp
  | succ wanted =>
    dsimp only
    split
    · next hnone => simp [hnone]
    · next found hfind =>
      rw [hfind, Option.some.injEq]
      split
      · next hkind =>
        rw [Except.ok.injEq]
        constructor
        · rintro rfl
          exact ⟨rfl, hkind⟩
        · exact And.left
      · next hkind =>
        constructor
        · intro h
          cases h
        · rintro ⟨rfl, hvideo⟩
          exact absurd hvideo hkind

/-- A frame whose link has been checked has a video segment before it. -/
theorem previous?_of_checkLink {segment : Segment}
    (linked : checkLink timeline.segments segment = .ok ())
    (pending : segment.pendingSource? = some .previousSegment) :
    ∃ previous, timeline.previous? segment = some previous ∧ previous.kind = .video := by
  rw [checkLink, if_pos pending] at linked
  cases hlink : predecessor timeline.segments segment with
  | error failure =>
    rw [hlink] at linked
    cases linked
  | ok previous => exact ⟨previous, predecessor_eq_ok_iff.1 hlink⟩

/-- A video segment has no image, so it is found before a frame also when the images of other
segments have been made. -/
theorem previous?_images {done left : List Segment} {segment previous : Segment}
    (video : previous.kind = .video)
    (h : (⟨done ++ left⟩ : Timeline).previous? segment = some previous) :
    (⟨done.map (·.withImage names) ++ left⟩ : Timeline).previous? segment = some previous := by
  have hready : previous.isPending = false := by
    apply Segment.isPending_eq_false
    rw [video]
    decide
  simp only [previous?] at h ⊢
  cases hnumber : segment.number with
  | zero =>
    rw [hnumber] at h
    cases h
  | succ wanted =>
    -- Images keep the numbers of their segments, so the same segment is found first.
    simp only [hnumber, List.find?_append, List.find?_map, Function.comp_def,
      Segment.number_withImage] at h ⊢
    cases hdone : done.find? (·.number = wanted) with
    | none =>
      rw [hdone] at h
      exact h
    | some found =>
      rw [hdone] at h
      cases h
      rw [Option.map_some, Segment.withImage_of_ready hready]
      rfl

/-- Once the links have been checked, the orders for an image are those that the timeline needs,
whatever images have been made before. -/
theorem orders_eq_ok {done left : List Segment} {segment : Segment} {source : FrameSource}
    (hsegments : timeline.segments = done ++ left)
    (linked : checkLink timeline.segments segment = .ok ())
    (pending : segment.pendingSource? = some source) :
    orders names size (done.map (·.withImage names) ++ left)
        (segment.withState (.materializing source)) (names.path .frame segment.number) source =
      .ok (timeline.imageOrders names size segment) := by
  cases source with
  | document path page =>
    rw [imageOrders, pending]
    rfl
  | previousSegment =>
    obtain ⟨previous, hprevious, hvideo⟩ := previous?_of_checkLink linked pending
    have hfound : predecessor (done.map (·.withImage names) ++ left) segment = .ok previous := by
      rw [predecessor_eq_ok_iff]
      refine ⟨previous?_images hvideo ?_, hvideo⟩
      rw [← hsegments]
      exact hprevious
    rw [imageOrders, pending]
    simp only [hprevious]
    obtain ⟨number, punchIn, punchOut, input, body⟩ := segment
    obtain ⟨frame, rfl⟩ := Segment.pendingSource?_eq_some_iff.1 pending
    -- The state of its image is not looked at, neither for the link nor for the frame.
    exact congrArg (Except.map _) hfound

/-! ## Making images -/

/-- From one state of a run to another the orders for the segments `left` were given until they
ended, and the answer is as they ended. -/
def Concludes (timeline : Timeline) (names : ArtifactNames) (size : FrameSize)
    (materializer : Materializer σ) (left : List Segment) (run later : Run σ)
    (answer : Except Failure (List Segment)) : Prop :=
  ∃ calls outcome result, run.Ordered materializer calls outcome later ∧
    timeline.Ends names size later.draft.registry left calls outcome result ∧
    answer = result.map fun _ => timeline.segments.map (·.withImage names)

theorem Concludes.cons {segment : Segment} {left : List Segment} {run middle later : Run σ}
    {answer : Except Failure (List Segment)}
    (first : run.Ordered materializer (timeline.imageOrders names size segment) (.ok ()) middle)
    (rest : timeline.Concludes names size materializer left middle later answer) :
    timeline.Concludes names size materializer (segment :: left) run later answer := by
  obtain ⟨calls, outcome, result, hordered, hends, hanswer⟩ := rest
  exact ⟨_, outcome, result, first.append hordered, hends.cons segment, hanswer⟩

/-- A failed order for the next segment is the end of all orders. -/
theorem concludes_of_orderFailed {segment : Segment} {left : List Segment}
    {first rest : List FrameOrder} {order : FrameOrder} {cause : Failure} {run later : Run σ}
    (needed : timeline.imageOrders names size segment = first ++ order :: rest)
    (ordered : run.Ordered materializer (first ++ [order]) (.error cause) later) :
    timeline.Concludes names size materializer (segment :: left) run later
      (.error (.frameFailed segment.number cause)) := by
  refine ⟨first ++ [order], .error cause, .error _, ordered, ?_, rfl⟩
  have h : timeline.Ends names size later.draft.registry ([] ++ segment :: left)
      ([].flatMap (timeline.imageOrders names size) ++ first ++ [order]) (.error cause)
      (.error (.frameFailed segment.number cause)) := .orderFailed needed rfl rfl
  exact h

/-- An image of the next segment that cannot take the place of the input is the end of all orders. -/
theorem concludes_of_renameRefused {segment : Segment} {left : List Segment} {failure : Failure}
    {run later : Run σ} (pending : segment.isPending = true)
    (ordered : run.Ordered materializer (timeline.imageOrders names size segment) (.ok ()) later)
    (refused : later.draft.registry.rename segment.input (names.path .frame segment.number)
      (some (stillOptions segment.duration)) = .error failure) :
    timeline.Concludes names size materializer (segment :: left) run later (.error failure) := by
  refine ⟨timeline.imageOrders names size segment, .ok (), .error failure, ordered, ?_, rfl⟩
  have h : timeline.Ends names size later.draft.registry ([] ++ segment :: left)
      (([] ++ [segment]).flatMap (timeline.imageOrders names size)) (.ok ()) (.error failure) :=
    .renameRefused pending refused
  simpa using h

/-- The next segment either has its image once its orders are carried out, or it is the last one
that is dealt with. -/
theorem materializeOne_cases {done left : List Segment} {segment : Segment}
    (hsegments : timeline.segments = done ++ segment :: left)
    (linked : checkLink timeline.segments segment = .ok ()) (run : Run σ) :
    let making := materializeOne names size materializer
      (done.map (·.withImage names) ++ segment :: left) segment
    (∃ later, making run = .ok (segment.withImage names) later ∧
      run.Ordered materializer (timeline.imageOrders names size segment) (.ok ()) later) ∨
    ∃ failure later, making run = .error failure later ∧
      timeline.Concludes names size materializer (segment :: left) run later (.error failure) := by
  intro making
  cases hpending : segment.isPending with
  | false =>
    left
    refine ⟨run, ?_, ?_⟩
    · rw [Segment.withImage_of_ready hpending]
      exact materializeOne_of_ready hpending run
    · rw [imageOrders_of_ready hpending]
      exact .refl materializer run
  | true =>
    obtain ⟨source, hsource⟩ := Option.isSome_iff_exists.1 hpending
    have hmaking : making run = (do
        performAll materializer segment.number (timeline.imageOrders names size segment)
        adoptImage segment (names.path .frame segment.number)
        pure (segment.withImage names)) run :=
      materializeOne_of_orders hsource (orders_eq_ok hsegments linked hsource) run
    rcases performAll_cases materializer segment.number
        (timeline.imageOrders names size segment) run with
      ⟨later, hall, -, hordered⟩ | ⟨first, order, rest, cause, later, hwork, hfail, -, hordered⟩
    · rw [Action.bind_eq_of_ok hall] at hmaking
      cases hrename : later.draft.registry.rename segment.input (names.path .frame segment.number)
          (some (stillOptions segment.duration)) with
      | ok registry =>
        have hadopt : adoptImage segment (names.path .frame segment.number) later =
            .ok () { later with draft := { later.draft with registry := registry } } := by
          rw [adoptImage_eq, hrename]
        rw [Action.bind_eq_of_ok hadopt] at hmaking
        left
        exact ⟨_, hmaking, hordered.performed, hordered.recorded⟩
      | error failure =>
        have hadopt : adoptImage segment (names.path .frame segment.number) later =
            .error failure later := by
          rw [adoptImage_eq, hrename]
        rw [Action.bind_eq_of_error hadopt] at hmaking
        right
        exact ⟨failure, later, hmaking, concludes_of_renameRefused hpending hordered hrename⟩
    · rw [Action.bind_eq_of_error hfail] at hmaking
      right
      exact ⟨_, later, hmaking, concludes_of_orderFailed hwork hordered⟩

/-- The orders for all segments that are left are given one after another. -/
theorem concludes_materializeFrom {done left : List Segment}
    (hsegments : timeline.segments = done ++ left) (linked : timeline.checkLinks = .ok ())
    (run : Run σ) :
    let making := materializeFrom names size materializer (done.map (·.withImage names)) left
    timeline.Concludes names size materializer left run (making.after run) (making.answer run) := by
  -- Induction on the segments left; those before have their images already.
  induction left generalizing done run with
  | nil =>
    refine ⟨[], .ok (), .ok (), .refl materializer run, .finished [], ?_⟩
    rw [hsegments, List.append_nil]
    rfl
  | cons segment left ih =>
    intro making
    have hmaking : making = (do
        let made ← materializeOne names size materializer
          (done.map (·.withImage names) ++ segment :: left) segment
        materializeFrom names size materializer (done.map (·.withImage names) ++ [made]) left) := rfl
    have hlinked : checkLink timeline.segments segment = .ok () := by
      apply checkLink_of_checkLinks linked
      simp [hsegments]
    rcases materializeOne_cases hsegments hlinked run with
      ⟨middle, hone, hfirst⟩ | ⟨failure, later, hone, hends⟩
    · have hsplit : timeline.segments = (done ++ [segment]) ++ left := by
        simp [hsegments]
      have hrest := ih hsplit middle
      rw [List.map_append, List.map_singleton] at hrest
      rw [hmaking, Action.after_bind_of_ok hone, Action.answer_bind_of_ok hone]
      exact hrest.cons hfirst
    · rw [hmaking, Action.after_bind_of_error hone, Action.answer_bind_of_error hone]
      exact hends

/-- Once the links have been checked, the orders for all segments are given, and in the end every
image has to exist. -/
theorem concludes_materialize (names : ArtifactNames) (size : FrameSize)
    (materializer : Materializer σ) (linked : timeline.checkLinks = .ok ()) (run : Run σ) :
    ∃ answer, timeline.Concludes names size materializer timeline.segments run
        ((timeline.materialize names size materializer).after run) answer ∧
      (timeline.materialize names size materializer).answer run =
        answer.bind fun segments => ResolvedTimeline.ofTimeline ⟨segments⟩ := by
  have hmaking : timeline.materialize names size materializer = (do
      Action.ofExcept timeline.checkLinks
      let segments ← materializeFrom names size materializer [] timeline.segments
      Action.ofExcept (ResolvedTimeline.ofTimeline ⟨segments⟩)) := rfl
  have hchecked : Action.ofExcept timeline.checkLinks run = .ok () run := by
    rw [linked]
    rfl
  refine ⟨(materializeFrom names size materializer [] timeline.segments).answer run, ?_, ?_⟩
  · rw [hmaking, Action.after_bind_of_ok hchecked, Action.after_bind_ofExcept]
    have hsplit : timeline.segments = [] ++ timeline.segments := rfl
    exact concludes_materializeFrom hsplit linked run
  · rw [hmaking, Action.answer_bind_of_ok hchecked, Action.answer_bind_ofExcept]

/-! ## The calls on record -/

/-- What is known of the calls of a materializer for a timeline, from the states of a run before and
after it and from the answer. -/
structure Chained (timeline : Timeline) (names : ArtifactNames) (size : FrameSize)
    (materializer : Materializer σ) (run later : Run (σ × List FrameOrder))
    (answer : Except Failure ResolvedTimeline) (calls : List FrameOrder) : Prop where
  listed : later.world.2 = run.world.2 ++ calls
  inOrder : calls <+: timeline.segments.flatMap (timeline.imageOrders names size)
  complete : ∀ resolved, answer = .ok resolved →
    calls = timeline.segments.flatMap (timeline.imageOrders names size)
  recorded : later.artifacts.paths = run.artifacts.paths ++
    Artifacts.fresh run.artifacts.paths (calls.map FrameOrder.destination)
  ending : ∃ outcome result, materializer.Performs run.world.1 calls outcome later.world.1 ∧
    timeline.Ends names size later.draft.registry timeline.segments calls outcome result ∧
    answer = result.bind fun _ =>
      ResolvedTimeline.ofTimeline ⟨timeline.segments.map (·.withImage names)⟩

/-- A materializer that cannot take frames from clips. -/
def copier : Materializer Unit where
  perform
    | .extract media _ _ => throw (.tool "ffmpeg" "extract" media .missingFile)
    | _ => pure ()

/-- The copy of the film and the failed order for its last frame are on record; the page of the
slides is not ordered any more. -/
example : ((slideshow.materialize (.ofOutput "out/show.mov") .standard copier).after
    (slideshowRun ())).artifacts.paths =
      ["out/temp_video_show_000.mov", "out/temp_frame_show_001.jpg"] := by
  decide +kernel

end EpisodeCut.Timeline
