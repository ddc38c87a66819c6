import EpisodeCut.Proofs.Frame.Orders
import EpisodeCut.Proofs.Timeline.Placeholder
import Mathlib.Data.List.Pairwise

/-!
# Images in the place of placeholders

Materialization gives every pending segment its image (`Segment.withImage`) and leaves the others as
they are. In the registry the image takes the place of the segment's input, looped for the duration
of the segment, and every other entry stays as it is (`Registry.TakesImages`). For this no input
may be called like an image, or one image could take the place of another
(`changes_of_materialize`). Where no pending segment shares its input, every segment is then found
where its source was registered (`Registry.Adopts`).
-/

set_option autoImplicit false

namespace EpisodeCut

/-- The segment with its image, if the image had still to be made. -/
def Segment.withImage (names : ArtifactNames) (segment : Segment) : Segment :=
  match segment.body with
  | .frame number (.pending _) =>
    { segment with
      input := names.path .frame segment.number
      body := .frame number (.resolved (names.path .frame segment.number)) }
  | _ => segment

theorem Segment.number_withImage (names : ArtifactNames) (segment : Segment) :
    (segment.withImage names).number = segment.number := by
  unfold withImage
  split <;> rfl

theorem Segment.withImage_of_ready {segment : Segment} (ready : segment.isPending = false)
    (names : ArtifactNames) : segment.withImage names = segment := by
  obtain ⟨number, punchIn, punchOut, input, body⟩ := segment
  cases body with
  | audio stream => rfl
  | video stream => rfl
  | frame frame state =>
    cases state with
    | pending source => cases ready
    | materializing source => rfl
    | resolved image => rfl

theorem Segment.input_withImage_of_pending {segment : Segment} (pending : segment.isPending = true)
    (names : ArtifactNames) :
    (segment.withImage names).input = names.path .frame segment.number := by
  obtain ⟨number, punchIn, punchOut, input, body⟩ := segment
  cases body with
  | audio stream => cases pending
  | video stream => cases pending
  | frame frame state =>
    cases state with
    | pending source => rfl
    | materializing source => cases pending
    | resolved image => cases pending

/-- What becomes of a segment when all images are made. Only a pending segment changes, and nothing
of it but its input and the state of its image. -/
structure Segment.Completed (names : ArtifactNames) (source made : Segment) : Prop where
  number : made.number = source.number
  punchIn : made.punchIn = source.punchIn
  punchOut : made.punchOut = source.punchOut
  kind : made.kind = source.kind
  stream : made.stream? = source.stream?
  frame : made.frame?.map Prod.fst = source.frame?.map Prod.fst
  ready : source.isPending = false → made = source
  input : source.isPending = true → made.input = names.path .frame source.number
  image : source.isPending = true →
    made.frame?.map Prod.snd = some (.resolved (names.path .frame source.number))
  resolved : made.isResolved = true

theorem Segment.completed_withImage {names : ArtifactNames} {segment : Segment}
    (resolved : (segment.withImage names).isResolved = true) :
    segment.Completed names (segment.withImage names) := by
  cases hpending : segment.isPending with
  | false =>
    rw [withImage_of_ready hpending] at resolved ⊢
    refine ⟨rfl, rfl, rfl, rfl, rfl, rfl, fun _ => rfl, ?_, ?_, resolved⟩
    · intro h
      rw [hpending] at h
      cases h
    · intro h
      rw [hpending] at h
      cases h
  | true =>
    obtain ⟨number, punchIn, punchOut, input, body⟩ := segment
    obtain ⟨source, hsource⟩ := Option.isSome_iff_exists.1 hpending
    obtain ⟨frame, rfl⟩ := pendingSource?_eq_some_iff.1 hsource
    refine ⟨rfl, rfl, rfl, rfl, rfl, rfl, ?_, fun _ => rfl, fun _ => rfl, rfl⟩
    intro h
    rw [hpending] at h
    cases h

/-! ## The registry -/

namespace Registry

variable {names : ArtifactNames} {before middle after : Registry}

/-- In `after` the images of the pending segments among `sources` stand where the inputs of these
segments stood in `before`, and all else is as it was. -/
structure TakesImages (names : ArtifactNames) (sources : List Segment) (before after : Registry) :
    Prop where
  size : after.size = before.size
  image : ∀ segment ∈ sources, segment.isPending = true →
    ∃ place, before.indexOf? segment.input = some place ∧
      after.entries[place]? =
        some ⟨names.path .frame segment.number, stillOptions segment.duration⟩
  kept : ∀ {place : Nat} {entry : InputEntry}, before.entries[place]? = some entry →
    (∀ segment ∈ sources, segment.isPending = true → segment.input ≠ entry.path) →
      after.entries[place]? = some entry

theorem TakesImages.refl (names : ArtifactNames) (registry : Registry) :
    registry.TakesImages names [] registry :=
  ⟨rfl, fun _ hsegment => absurd hsegment List.not_mem_nil, fun h _ => h⟩

theorem TakesImages.cons_ready {segment : Segment} {left : List Segment}
    (rest : before.TakesImages names left after) (ready : segment.isPending = false) :
    before.TakesImages names (segment :: left) after := by
  refine ⟨rest.size, ?_, ?_⟩
  · intro other hother hpending
    rcases List.mem_cons.1 hother with rfl | hother
    · rw [ready] at hpending
      cases hpending
    · exact rest.image other hother hpending
  · intro place entry hplace hapart
    apply rest.kept hplace
    intro other hother
    exact hapart other (List.mem_cons_of_mem segment hother)

/-- The image of one more segment takes the place of its input. It stays there, since no segment
that is left has it for its input. -/
theorem TakesImages.cons_pending {segment : Segment} {left : List Segment}
    (pending : segment.isPending = true)
    (renamed : before.rename segment.input (names.path .frame segment.number)
      (some (stillOptions segment.duration)) = .ok middle)
    (rest : middle.TakesImages names left after)
    (unmade : ∀ other ∈ left, other.isPending = true →
      other.input ≠ names.path .frame segment.number) :
    before.TakesImages names (segment :: left) after := by
  obtain ⟨hregistered, -, hentries⟩ := rename_eq_ok renamed
  have hmiddle : ∀ {place : Nat} {entry : InputEntry}, before.entries[place]? = some entry →
      middle.entries[place]? = some (if entry.path = segment.input then
        ⟨names.path .frame segment.number, stillOptions segment.duration⟩ else entry) := by
    intro place entry hplace
    rw [hentries, List.getElem?_map, hplace]
    rfl
  refine ⟨?_, ?_, ?_⟩
  · have hsize : middle.size = before.size := by
      rw [Registry.size, hentries, List.length_map, Registry.size]
    exact rest.size.trans hsize
  · intro other hother hpending
    rcases List.mem_cons.1 hother with rfl | hother
    · obtain ⟨place, hindex⟩ := exists_indexOf?_of_mem hregistered
      refine ⟨place, hindex, rest.kept ?_ unmade⟩
      rw [hmiddle (entries_of_indexOf? hindex), if_pos rfl]
    · -- The input of a segment that is left was not renamed, so it stood there before.
      obtain ⟨place, hindex, himage⟩ := rest.image other hother hpending
      refine ⟨place, ?_, himage⟩
      rw [indexOf?_eq_some_iff, paths_of_rename renamed, List.getElem?_map,
        Option.map_eq_some_iff] at hindex
      obtain ⟨path, hplace, hpath⟩ := hindex
      rw [indexOf?_eq_some_iff, hplace]
      split at hpath
      · exact absurd hpath.symm (unmade other hother hpending)
      · rw [hpath]
  · intro place entry hplace hapart
    have hkept := hmiddle hplace
    rw [if_neg (hapart segment List.mem_cons_self pending).symm] at hkept
    apply rest.kept hkept
    intro other hother
    exact hapart other (List.mem_cons_of_mem segment hother)

/-- No input of a pending segment is registered any more. -/
theorem TakesImages.input_ne_of_mem {sources : List Segment}
    (takes : before.TakesImages names sources after)
    (unmade : ∀ segment ∈ sources, segment.isPending = true →
      ∀ number, segment.input ≠ names.path .frame number)
    {path : String} (registered : path ∈ after.paths) :
    ∀ segment ∈ sources, segment.isPending = true → segment.input ≠ path := by
  intro segment hsegment hpending heq
  obtain ⟨place, hplace⟩ := exists_indexOf?_of_mem registered
  have hafter := entries_of_indexOf? hplace
  -- Something stood at this place before: an input that was renamed, or one that was kept.
  have hlength : place < before.entries.length := by
    have hsize : after.entries.length = before.entries.length := takes.size
    rw [← hsize]
    exact (List.getElem?_eq_some_iff.1 hafter).1
  have hbefore := List.getElem?_eq_getElem hlength
  by_cases hrenamed : ∃ other ∈ sources, other.isPending = true ∧
      other.input = before.entries[place].path
  · obtain ⟨other, hother, hotherPending, hinput⟩ := hrenamed
    obtain ⟨found, hfound, himage⟩ := takes.image other hother hotherPending
    have hindex : before.indexOf? other.input = some place := by
      rw [indexOf?_eq_some_iff, paths, List.getElem?_map, hbefore, hinput]
      rfl
    have hsame : found = place := Option.some.inj (hfound.symm.trans hindex)
    rw [hsame, hafter] at himage
    apply unmade segment hsegment hpending other.number
    rw [heq]
    exact congrArg InputEntry.path (Option.some.inj himage)
  · have hkept := takes.kept hbefore fun other hother hotherPending hinput =>
      hrenamed ⟨other, hother, hotherPending, hinput⟩
    rw [hafter] at hkept
    apply hrenamed
    refine ⟨segment, hsegment, hpending, ?_⟩
    rw [heq]
    exact congrArg InputEntry.path (Option.some.inj hkept)

/-- No image is called like a file that was registered before. -/
theorem TakesImages.image_not_mem {sources : List Segment}
    (takes : before.TakesImages names sources after)
    (unmade : ∀ segment ∈ sources, segment.isPending = true →
      ∀ number, segment.input ≠ names.path .frame number)
    {segment : Segment} (hsegment : segment ∈ sources) (pending : segment.isPending = true) :
    names.path .frame segment.number ∉ before.paths := by
  intro hmem
  obtain ⟨place, hplace⟩ := exists_indexOf?_of_mem hmem
  have hkept := takes.kept (entries_of_indexOf? hplace) fun other hother hotherPending =>
    unmade other hother hotherPending segment.number
  obtain ⟨found, hfound, himage⟩ := takes.image segment hsegment pending
  -- The file would stand at its own place and at that of the input, which are then the same.
  have hfirst : after.indexOf? (names.path .frame segment.number) = some place := by
    rw [indexOf?_eq_some_iff, paths, List.getElem?_map, hkept]
    rfl
  have hsecond : after.indexOf? (names.path .frame segment.number) = some found := by
    rw [indexOf?_eq_some_iff, paths, List.getElem?_map, himage]
    rfl
  have hsame : place = found := Option.some.inj (hfirst.symm.trans hsecond)
  rw [hsame, indexOf?_eq_some_iff] at hplace
  rw [indexOf?_eq_some_iff, hplace] at hfound
  exact unmade segment hsegment pending segment.number (Option.some.inj hfound).symm

/-- In `after` the images of the pending segments among `left` have taken the places of their
placeholders in `before`. -/
structure Adopts (names : ArtifactNames) (left : List Segment) (before after : Registry) :
    Prop where
  size : after.paths.length = before.paths.length
  kept : ∀ {place : Nat} {path : String}, before.paths[place]? = some path →
    (∀ segment ∈ left, segment.isPending = true → segment.input ≠ path) →
      after.paths[place]? = some path
  images : ∀ {place : Nat}, ∀ segment ∈ left, before.paths[place]? = some segment.input →
    after.paths[place]? = some (segment.withImage names).input

/-- Where no pending segment shares its input, the place of an input is that of the segment. -/
theorem TakesImages.adopts {sources : List Segment} (takes : before.TakesImages names sources after)
    (distinct : sources.Pairwise fun segment other =>
      segment.isPending = true ∨ other.isPending = true → segment.input ≠ other.input) :
    before.Adopts names sources after := by
  have hkept : ∀ {place : Nat} {path : String}, before.paths[place]? = some path →
      (∀ segment ∈ sources, segment.isPending = true → segment.input ≠ path) →
        after.paths[place]? = some path := by
    intro place path hplace hapart
    rw [paths, List.getElem?_map, Option.map_eq_some_iff] at hplace ⊢
    obtain ⟨entry, hentry, rfl⟩ := hplace
    exact ⟨entry, takes.kept hentry hapart, rfl⟩
  refine ⟨?_, hkept, ?_⟩
  · rw [paths, paths, List.length_map, List.length_map]
    exact takes.size
  · intro place segment hsegment hplace
    cases hcase : segment.isPending with
    | true =>
      obtain ⟨other, hindex, himage⟩ := takes.image segment hsegment hcase
      have hsame : other = place :=
        Option.some.inj (hindex.symm.trans (indexOf?_eq_some_iff.2 hplace))
      rw [← hsame, paths, List.getElem?_map, himage,
        Segment.input_withImage_of_pending hcase]
      rfl
    | false =>
      rw [Segment.withImage_of_ready hcase]
      apply hkept hplace
      intro other hother hpending
      have hne : segment ≠ other := by
        intro heq
        rw [heq, hpending] at hcase
        cases hcase
      -- The inputs of two segments are apart whichever of the two comes first.
      have hsymm : Std.Symm fun segment other : Segment =>
          segment.isPending = true ∨ other.isPending = true → segment.input ≠ other.input :=
        ⟨fun first second hapart hcase => (hapart hcase.symm).symm⟩
      exact (distinct.forall hsegment hother hne (Or.inr hpending)).symm

end Registry

/-! ## Materialization -/

namespace Timeline

variable {σ : Type} {names : ArtifactNames} {size : FrameSize} {materializer : Materializer σ}
  {segments : List Segment} {segment : Segment}

theorem adoptImage_eq (segment : Segment) (image : Path) (run : Run σ) :
    adoptImage segment image run =
      match run.draft.registry.rename segment.input image
          (some (stillOptions segment.duration)) with
      | .ok registry => .ok () { run with draft := { run.draft with registry := registry } }
      | .error failure => .error failure run := by
  rw [adoptImage, Action.get_bind]
  cases run.draft.registry.rename segment.input image (some (stillOptions segment.duration)) <;> rfl

theorem materializeOne_of_ready (ready : segment.isPending = false) (run : Run σ) :
    materializeOne names size materializer segments segment run = .ok segment run := by
  have hsource : segment.pendingSource? = none := by
    simpa [Segment.isPending] using ready
  rw [materializeOne, hsource]
  rfl

/-- Given the orders for its image, a pending segment is dealt with in three steps: the orders are
carried out, the image takes the place of the input, and the segment is resolved. -/
theorem materializeOne_of_orders {source : FrameSource} {work : List FrameOrder}
    (pending : segment.pendingSource? = some source)
    (ordered : orders names size segments (segment.withState (.materializing source))
      (names.path .frame segment.number) source = .ok work) (run : Run σ) :
    materializeOne names size materializer segments segment run = (do
      performAll materializer segment.number work
      adoptImage segment (names.path .frame segment.number)
      pure (segment.withImage names)) run := by
  obtain ⟨number, punchIn, punchOut, input, body⟩ := segment
  obtain ⟨frame, hbody⟩ := Segment.pendingSource?_eq_some_iff.1 pending
  subst hbody
  rw [materializeOne, pending]
  exact Action.bind_eq_of_ok (congrArg (fun result => Action.ofExcept result run) ordered)

/-- A segment that is not pending is left alone; a pending one gets its image, and the image its
place in the registry. -/
theorem materializeOne_eq_ok {made : Segment} {run later : Run σ}
    (h : materializeOne names size materializer segments segment run = .ok made later) :
    made = segment.withImage names ∧ later.draft.next = run.draft.next ∧
      (segment.isPending = false ∧ later.draft.registry = run.draft.registry ∨
        segment.isPending = true ∧ run.draft.registry.rename segment.input
          (names.path .frame segment.number) (some (stillOptions segment.duration)) =
            .ok later.draft.registry) := by
  cases hpending : segment.isPending with
  | false =>
    rw [materializeOne_of_ready hpending] at h
    cases h
    exact ⟨(Segment.withImage_of_ready hpending names).symm, rfl, Or.inl ⟨rfl, rfl⟩⟩
  | true =>
    obtain ⟨source, hsource⟩ := Option.isSome_iff_exists.1 hpending
    cases hwork : orders names size segments (segment.withState (.materializing source))
        (names.path .frame segment.number) source with
    | error failure =>
      rw [materializeOne, hsource] at h
      obtain ⟨work, first, hordered, -⟩ := Action.bind_eq_ok h
      rw [(Action.ofExcept_eq_ok hordered).1] at hwork
      cases hwork
    | ok work =>
      rw [materializeOne_of_orders hsource hwork] at h
      obtain ⟨done, middle, hperform, hrest⟩ := Action.bind_eq_ok h
      obtain ⟨adopted, last, hadopt, hmade⟩ := Action.bind_eq_ok hrest
      cases hmade
      have hdraft : middle.draft = run.draft := by
        rcases performAll_cases materializer segment.number work run with
          ⟨other, hall, hdraft, -⟩ | ⟨_, _, _, _, other, -, hfail, -⟩
        · rw [hperform] at hall
          cases hall
          exact hdraft
        · rw [hperform] at hfail
          cases hfail
      rw [adoptImage_eq, hdraft] at hadopt
      split at hadopt
      · next registry hrename =>
        cases hadopt
        exact ⟨rfl, rfl, Or.inr ⟨rfl, hrename⟩⟩
      · cases hadopt

/-- Every segment that is left gets its image, and every image the place of an input. -/
theorem materializeFrom_eq_ok {done left made : List Segment} {run later : Run σ}
    (h : materializeFrom names size materializer done left run = .ok made later) :
    made = done ++ left.map (·.withImage names) ∧ later.draft.next = run.draft.next ∧
      ((∀ segment ∈ left, segment.isPending = true →
          ∀ number, segment.input ≠ names.path .frame number) →
        run.draft.registry.TakesImages names left later.draft.registry) := by
  -- Induction on the segments left, of which the first one is dealt with in one step.
  induction left generalizing done run with
  | nil =>
    cases h
    exact ⟨by simp, rfl, fun _ => .refl names _⟩
  | cons segment left ih =>
    rw [materializeFrom] at h
    obtain ⟨image, middle, hone, hrest⟩ := Action.bind_eq_ok h
    obtain ⟨rfl, hnext, hcase⟩ := materializeOne_eq_ok hone
    obtain ⟨hmade, hlast, htakes⟩ := ih hrest
    refine ⟨?_, hlast.trans hnext, ?_⟩
    · rw [hmade, List.append_assoc]
      rfl
    · intro unmade
      have hleft := htakes fun other hother => unmade other (List.mem_cons_of_mem segment hother)
      rcases hcase with ⟨hready, hregistry⟩ | ⟨hpending, hrename⟩
      · rw [hregistry] at hleft
        exact hleft.cons_ready hready
      · refine .cons_pending hpending hrename hleft ?_
        intro other hother hother'
        exact unmade other (List.mem_cons_of_mem segment hother) hother' segment.number

theorem segments_of_ofTimeline {timeline : Timeline} {resolved : ResolvedTimeline}
    (h : ResolvedTimeline.ofTimeline timeline = .ok resolved) :
    resolved.segments = timeline.segments := by
  unfold ResolvedTimeline.ofTimeline at h
  split at h
  · cases h
  · cases h
    rfl

/-- A timeline whose images are made has the segments of the timeline before with their images, and
each image is registered in the place of an input. -/
theorem materialize_eq_ok {timeline : Timeline} {resolved : ResolvedTimeline} {run later : Run σ}
    (h : timeline.materialize names size materializer run = .ok resolved later) :
    resolved.segments = timeline.segments.map (·.withImage names) ∧
      later.draft.next = run.draft.next ∧
      ((∀ segment ∈ timeline.segments, segment.isPending = true →
          ∀ number, segment.input ≠ names.path .frame number) →
        run.draft.registry.TakesImages names timeline.segments later.draft.registry) := by
  rw [materialize] at h
  obtain ⟨checked, first, hcheck, hmake⟩ := Action.bind_eq_ok h
  obtain ⟨-, rfl⟩ := Action.ofExcept_eq_ok hcheck
  obtain ⟨segments, second, hsegments, haccept⟩ := Action.bind_eq_ok hmake
  obtain ⟨hresolved, rfl⟩ := Action.ofExcept_eq_ok haccept
  rw [segments_of_ofTimeline hresolved]
  exact materializeFrom_eq_ok hsegments

/-- Making all images changes only what it must. Every segment keeps its place, and all of it that
has nothing to do with an image; in the registry nothing changes but the entries of the pending
segments, and the numbering of segments goes on as before. -/
theorem changes_of_materialize {timeline : Timeline} {resolved : ResolvedTimeline}
    {run later : Run σ}
    (unmade : ∀ segment ∈ timeline.segments, segment.isPending = true →
      ∀ number, segment.input ≠ names.path .frame number)
    (h : timeline.materialize names size materializer run = .ok resolved later) :
    List.Forall₂ (Segment.Completed names) timeline.segments resolved.segments ∧
      run.draft.registry.TakesImages names timeline.segments later.draft.registry ∧
      later.draft.next = run.draft.next := by
  obtain ⟨hsegments, hnext, htakes⟩ := materialize_eq_ok h
  refine ⟨?_, htakes unmade, hnext⟩
  rw [hsegments, List.forall₂_map_right_iff, List.forall₂_same]
  intro segment hsegment
  apply Segment.completed_withImage
  apply resolved.resolved
  rw [hsegments]
  exact List.mem_map_of_mem hsegment

/-! ## A timeline with frames of all sources -/

/-- A film, its last frame, a page of slides, and a photograph. -/
def slideshow : Timeline where
  segments := [
    ⟨0, .zero, .ofSeconds 5, "film.mov", .video 0⟩,
    ⟨1, .zero, .ofSeconds 3, placeholder "^" 1, .frame .last (.pending .previousSegment)⟩,
    ⟨2, .zero, .ofSeconds 4, placeholder "slides.pdf" 2,
      .frame (.index 6) (.pending (.document "slides.pdf" (.index 6)))⟩,
    ⟨3, .zero, .ofSeconds 2, "photo.jpg", .frame (.index 0) (.resolved "photo.jpg")⟩]

/-- The run in which the segments of the slideshow were made. -/
def slideshowRun (world : σ) : Run σ :=
  { Run.start world with draft := Draft.empty.replay slideshow.segments }

theorem materialize_slideshow : ∃ resolved later, slideshow.materialize (.ofOutput "out/show.mov")
    .standard .idle (slideshowRun ()) = .ok resolved later := by
  apply Action.exists_eq_ok
  decide +kernel

theorem changes_slideshow :
    (∀ segment ∈ slideshow.segments, segment.isPending = true →
      ∀ number, segment.input ≠ (ArtifactNames.ofOutput "out/show.mov").path .frame number) ∧
    ∃ resolved later, slideshow.materialize (.ofOutput "out/show.mov") .standard .idle
        (slideshowRun ()) = .ok resolved later ∧
      List.Forall₂ (Segment.Completed (.ofOutput "out/show.mov")) slideshow.segments
        resolved.segments ∧
      (slideshowRun ()).draft.registry.TakesImages (.ofOutput "out/show.mov")
        slideshow.segments later.draft.registry ∧
      later.draft.next = (slideshowRun ()).draft.next := by
  have hunmade : ∀ segment ∈ slideshow.segments, segment.isPending = true →
      ∀ number, segment.input ≠ (ArtifactNames.ofOutput "out/show.mov").path .frame number := by
    intro segment hsegment hpending number
    simp only [slideshow, List.mem_cons, List.not_mem_nil, or_false] at hsegment
    rcases hsegment with rfl | rfl | rfl | rfl
    · cases hpending
    · exact placeholder_ne_path _ _ _ _ _
    · exact placeholder_ne_path _ _ _ _ _
    · cases hpending
  obtain ⟨resolved, later, h⟩ := materialize_slideshow
  exact ⟨hunmade, resolved, later, h, changes_of_materialize hunmade h⟩

end Timeline

end EpisodeCut
