import EpisodeCut.Proofs.Artifacts.Names
import EpisodeCut.Proofs.Episode.Inputs
import EpisodeCut.Proofs.Frame.Calls

/-!
# Generated files and the files of the user

The files that a plan generates are the images of pending frames and copies of the films before
them, and all of them stand beside the output (`adds_plan`). A file that the user names can only be
one of them if it stands there under the name that is generated for a frame or for such a film, and
a document never can (`spares_of_plan`). This holds whether planning fails or not. Nothing keeps the
user from such a name, though: a film that is called like its own copy is written over
(`recorded_sequel`).
-/

set_option autoImplicit false

namespace EpisodeCut

/-! ## What is generated for a timeline -/

namespace Timeline

variable {σ : Type} {timeline : Timeline} {names : ArtifactNames} {size : FrameSize}

/-- The kinds and numbers of the files that are generated for a timeline: an image for every pending
frame, and a copy of the film before it, if the image shows a frame of that film. -/
inductive Generates (timeline : Timeline) : MediaKind → Nat → Prop
  | image {segment : Segment} : segment ∈ timeline.segments → segment.isPending = true →
      Generates timeline .frame segment.number
  | copy {segment film : Segment} : segment ∈ timeline.segments →
      segment.pendingSource? = some .previousSegment → timeline.previous? segment = some film →
      film.kind = .video → Generates timeline .video film.number

/-- Orders write nothing but generated files. -/
theorem generates_of_mem_imageOrders (linked : timeline.checkLinks = .ok ()) {segment : Segment}
    (hsegment : segment ∈ timeline.segments) {order : FrameOrder}
    (h : order ∈ timeline.imageOrders names size segment) :
    ∃ kind number, timeline.Generates kind number ∧
      order.destination = names.path kind number := by
  cases hsource : segment.pendingSource? with
  | none =>
    rw [imageOrders, hsource] at h
    cases h
  | some source =>
    have hpending : segment.isPending = true := by
      rw [Segment.isPending, hsource]
      rfl
    cases source with
    | document path page =>
      rw [imageOrders, hsource] at h
      rw [List.mem_singleton.1 h]
      exact ⟨.frame, segment.number, .image hsegment hpending, rfl⟩
    | previousSegment =>
      obtain ⟨film, hfilm, hvideo⟩ :=
        previous?_of_checkLink (checkLink_of_checkLinks linked hsegment) hsource
      rw [imageOrders, hsource] at h
      simp only [hfilm, List.mem_cons, List.not_mem_nil, or_false] at h
      rcases h with rfl | rfl
      · refine ⟨.video, film.number, .copy hsegment hsource hfilm hvideo, ?_⟩
        rw [← hvideo]
        rfl
      · exact ⟨.frame, segment.number, .image hsegment hpending, rfl⟩

end Timeline

/-! ## What is recorded -/

namespace Run

variable {σ α β : Type}

/-- In a state of a run an action records no files but those with a property, whether it fails or
not. -/
def Adds (P : Path → Prop) (action : Action (Run σ) α) (run : Run σ) : Prop :=
  ∀ artifact ∈ (action.after run).artifacts.paths, artifact ∈ run.artifacts.paths ∨ P artifact

theorem adds_of_kept {P : Path → Prop} {action : Action (Run σ) α} {run : Run σ}
    (kept : (action.after run).artifacts = run.artifacts) : Adds P action run := by
  intro artifact hartifact
  rw [kept] at hartifact
  exact Or.inl hartifact

/-- What comes after a step that records nothing. -/
theorem adds_bind {P : Path → Prop} {f : Action (Run σ) α} {g : α → Action (Run σ) β} {run : Run σ}
    (kept : (f.after run).artifacts = run.artifacts)
    (rest : ∀ a later, f run = .ok a later → Adds P (g a) later) : Adds P (f >>= g) run := by
  cases hf : f run with
  | ok a later =>
    rw [Action.after_of_ok hf] at kept
    intro artifact hartifact
    rw [Action.after_bind_of_ok hf] at hartifact
    rw [← kept]
    exact rest a later hf artifact hartifact
  | error failure later =>
    rw [Action.after_of_error hf] at kept
    apply adds_of_kept
    rw [Action.after_bind_of_error hf, kept]

/-- What comes before steps that record nothing. -/
theorem Adds.bind_asks {P : Path → Prop} {f : Action (Run σ) α} {g : α → Action (Run σ) β}
    {run : Run σ} (first : Adds P f run) (asks : ∀ a, Asks (g a)) : Adds P (f >>= g) run := by
  intro artifact hartifact
  cases hf : f run with
  | ok a later =>
    rw [Action.after_bind_of_ok hf, (asks a).kept later] at hartifact
    apply first
    rw [Action.after_of_ok hf]
    exact hartifact
  | error failure later =>
    rw [Action.after_bind_of_error hf] at hartifact
    apply first
    rw [Action.after_of_error hf]
    exact hartifact

end Run

namespace Timeline

variable {σ : Type} {timeline : Timeline} {names : ArtifactNames} {size : FrameSize}

/-- Making the images of a timeline records nothing but generated files. -/
theorem adds_materialize (materializer : Materializer σ) (run : Run σ) :
    Run.Adds (fun artifact => ∃ kind number, timeline.Generates kind number ∧
      artifact = names.path kind number) (timeline.materialize names size materializer) run := by
  cases hlinks : timeline.checkLinks with
  | error failure =>
    -- Nothing is done before all links are known to be whole.
    have hfirst : Action.ofExcept timeline.checkLinks run = .error failure run := by
      rw [hlinks]
      rfl
    apply Run.adds_of_kept
    rw [materialize, Action.after_bind_of_error hfirst]
  | ok done =>
    obtain ⟨answer, ⟨calls, outcome, result, hordered, hends, -⟩, -⟩ :=
      concludes_materialize names size materializer hlinks run
    intro artifact hartifact
    rw [hordered.recorded, Artifacts.paths_pushAll, List.mem_append] at hartifact
    rcases hartifact with hold | hnew
    · exact Or.inl hold
    · right
      obtain ⟨order, horder, rfl⟩ := List.mem_map.1 (Artifacts.mem_of_mem_fresh hnew)
      obtain ⟨segment, hsegment, hneeded⟩ := List.mem_flatMap.1 (hends.isPrefix.subset horder)
      exact generates_of_mem_imageOrders hlinks hsegment hneeded

end Timeline

namespace Episode

open Run Timeline

variable {σ : Type} {studio : Studio σ} {options : EpisodeOptions} {interrupted : Bool}
  {config : Option String}

/-- The specifications of an episode are read, and a run whose draft begins anew resolves them into
`timeline`. -/
def Resolves (studio : Studio σ) (options : EpisodeOptions) (config : Option String) (run : Run σ)
    (specs : List InputSpec) (timeline : Timeline) : Prop :=
  specsOf options.defaults config = .ok specs ∧
    ∃ drafted, Timeline.resolve options.defaults studio.probe specs
      { run with draft := .empty } = .ok timeline drafted

/-- Planning records nothing but files that are generated for the timeline that it has resolved. -/
theorem adds_plan (studio : Studio σ) (options : EpisodeOptions) (interrupted : Bool)
    (config : Option String) (run : Run σ) :
    Adds (fun artifact => ∃ specs timeline, Resolves studio options config run specs timeline ∧
      ∃ kind number, timeline.Generates kind number ∧
        artifact = (ArtifactNames.ofOutput options.output).path kind number)
      (plan studio options interrupted config) run := by
  rw [plan]
  -- No stage before the images records anything, so the stages are passed one by one.
  refine adds_bind rfl fun _ started hstarted => ?_
  cases hstarted
  refine adds_bind ((asks_ofExcept _).kept _) fun specs first hfirst => ?_
  obtain ⟨hspecs, rfl⟩ := Action.ofExcept_eq_ok hfirst
  obtain ⟨made, hmade⟩ :=
    made_resolve options.defaults studio.probe specs { run with draft := .empty }
  refine adds_bind hmade.artifacts fun timeline drafted hdrafted => ?_
  cases timeline.isEmpty with
  | true => exact adds_of_kept rfl
  | false =>
    simp only [Bool.false_eq_true, if_false]
    refine adds_bind ((asks_ofExcept _).kept _) fun checked passed hpassed => ?_
    refine adds_bind ((asks_frameSize _ _ _).kept _) fun size sized hsized => ?_
    refine Adds.bind_asks ?_ fun resolved => asks_get.bind fun _ => asks_ofExcept _
    intro artifact hartifact
    rcases adds_materialize studio.materializer sized artifact hartifact with hold | hnew
    · exact Or.inl hold
    · exact Or.inr ⟨specs, timeline, ⟨hspecs, drafted, hdrafted⟩, hnew⟩

/-! ## The files of the user -/

/-- The file stands in the directory of the generated files under the name of one of them. -/
def Reserved (names : ArtifactNames) (timeline : Timeline) (file : Path) : Prop :=
  ∃ kind number, timeline.Generates kind number ∧
    file.components = names.directory.components ++ [.name (names.fileName kind number)]

/-- If planning succeeds, no image is called like an input. -/
theorem input_ne_image_of_plan {run : Run σ} {specs : List InputSpec} {timeline : Timeline}
    (resolves : Resolves studio options config run specs timeline)
    (planned : (plan studio options interrupted config).succeeds run = true) :
    ∀ image ∈ timeline.segments, image.isPending = true → ∀ segment ∈ timeline.segments,
      segment.input ≠ (ArtifactNames.ofOutput options.output).path .frame image.number := by
  obtain ⟨made, later, hplan⟩ := Action.exists_eq_ok planned
  rw [plan_eq] at hplan
  obtain ⟨prepared, middle, hprepare, -⟩ := Action.bind_eq_ok hplan
  obtain ⟨hspecs, resolved, sized, hresolve, hregistered, -⟩ := prepare_eq_ok hprepare
  -- The timeline is the one that the plan was made from.
  obtain ⟨hread, drafted, hdrafted⟩ := resolves
  rw [hread] at hspecs
  cases hspecs
  rw [hdrafted] at hresolve
  cases hresolve
  obtain ⟨-, htakes⟩ := takesImages_of_prepare hprepare
  obtain ⟨-, hpaths⟩ := drafted_of_resolve rfl hdrafted
  intro image himage hpending segment hsegment heq
  apply htakes.image_not_mem (input_ne_path_of_resolve hdrafted _ .frame) himage hpending
  rw [← heq, hregistered, hpaths]
  exact List.mem_map_of_mem hsegment

/-- A recorded file spares the files of the user. It is none of the documents that are rasterized,
and no other file unless that one has the name of a generated file beside the output. Once planning
has succeeded, no image is called like an input. -/
structure Spares (names : ArtifactNames) (timeline : Timeline) (planned : Bool) (artifact : Path) :
    Prop where
  document : ∀ segment ∈ timeline.segments, ∀ file page,
    segment.pendingSource? = some (.document file page) → artifact.same file = false
  reserved : ∀ file, artifact.same file = true → Reserved names timeline file
  image : planned = true → ∀ image ∈ timeline.segments, image.isPending = true →
    ∀ segment ∈ timeline.segments, segment.input ≠ names.path .frame image.number

/-- Whether planning succeeds or fails, it records files only for a timeline that it has resolved,
and they spare the files of the user. -/
theorem spares_of_plan {run : Run σ} {artifact : Path}
    (recorded : artifact ∈ ((plan studio options interrupted config).after run).artifacts.paths)
    (new : artifact ∉ run.artifacts.paths) :
    ∃ specs timeline, Resolves studio options config run specs timeline ∧
      Spares (.ofOutput options.output) timeline
        ((plan studio options interrupted config).succeeds run) artifact := by
  rcases adds_plan studio options interrupted config run artifact recorded with
    hold | ⟨specs, timeline, hresolves, kind, number, hgenerates, rfl⟩
  · exact absurd hold new
  · have hstem := ArtifactNames.undivided_stem_ofOutput options.output
    refine ⟨specs, timeline, hresolves, ?_, ?_, input_ne_image_of_plan hresolves⟩
    · intro segment hsegment file page hsource
      obtain ⟨-, drafted, hdrafted⟩ := hresolves
      have hdocument := ((resolve_eq_ok hdrafted).1.holds segment hsegment).isDocument hsource
      exact ArtifactNames.same_path_of_isDocument hstem kind number hdocument
    · intro file hsame
      refine ⟨kind, number, hgenerates, ?_⟩
      rw [← ArtifactNames.components_path hstem]
      exact (beq_iff_eq.1 hsame).symm

theorem spares_lecture :
    "temp_frame_lecture_002.jpg" ∈ ((plan quietStudio lectureOptions false (some lectureText)).after
        (.start quietWorkspace)).artifacts.paths ∧
      "temp_frame_lecture_002.jpg" ∉ (Run.start quietWorkspace).artifacts.paths ∧
      ∃ specs timeline, Resolves quietStudio lectureOptions (some lectureText)
          (.start quietWorkspace) specs timeline ∧
        Spares (.ofOutput lectureOptions.output) timeline
          ((plan quietStudio lectureOptions false (some lectureText)).succeeds
            (.start quietWorkspace)) "temp_frame_lecture_002.jpg" := by
  have hrecorded : "temp_frame_lecture_002.jpg" ∈
      ((plan quietStudio lectureOptions false (some lectureText)).after
        (.start quietWorkspace)).artifacts.paths := by
    decide +kernel
  exact ⟨hrecorded, List.not_mem_nil, spares_of_plan hrecorded List.not_mem_nil⟩

/-! ## A film with the name of a copy -/

/-- Options of an episode without defaults. -/
def sequelOptions : EpisodeOptions where
  output := "ep.mov"
  defaults := default
  flags := .standard
  frameSize := none
  keep := false

/-- A film that is called like the copy of which its last frame is taken. -/
def sequelText : String :=
  "[v:temp_video_ep_000.mov] 0:0 0:5 [f:^] 0:0 0:3"

/-- The film is played from the file over which its copy is written. -/
theorem recorded_sequel :
    (plan quietStudio sequelOptions false (some sequelText)).succeeds (.start quietWorkspace) =
        true ∧
      ∃ specs timeline, Resolves quietStudio sequelOptions (some sequelText)
          (.start quietWorkspace) specs timeline ∧
        ∃ film ∈ timeline.segments, film.kind = .video ∧
          ∃ artifact ∈ ((plan quietStudio sequelOptions false (some sequelText)).after
              (.start quietWorkspace)).artifacts.paths, artifact.same film.input = true := by
  have hspecs : specsOf sequelOptions.defaults (some sequelText) = .ok [
      ⟨.video, some (.file "temp_video_ep_000.mov"), none,
        [.timestamp .zero, .timestamp ⟨0, 0, 5, 0⟩]⟩,
      ⟨.frame, some .previousSegment, none, [.timestamp .zero, .timestamp ⟨0, 0, 3, 0⟩]⟩] := by
    decide +kernel
  have hanswer : (Timeline.resolve sequelOptions.defaults quietStudio.probe [
      ⟨.video, some (.file "temp_video_ep_000.mov"), none,
        [.timestamp .zero, .timestamp ⟨0, 0, 5, 0⟩]⟩,
      ⟨.frame, some .previousSegment, none, [.timestamp .zero, .timestamp ⟨0, 0, 3, 0⟩]⟩]).answer
        (.start quietWorkspace) = .ok ⟨[
      ⟨0, .zero, .ofSeconds 5, "temp_video_ep_000.mov", .video 0⟩,
      ⟨1, .zero, .ofSeconds 3, placeholder "^" 1,
        .frame (.index 0) (.pending .previousSegment)⟩]⟩ := by
    decide +kernel
  refine ⟨by decide +kernel, _, _, ⟨hspecs, _, Action.eq_ok_of_answer hanswer⟩, _,
    List.mem_cons_self, rfl, "temp_video_ep_000.mov", ?_, ?_⟩
  · decide +kernel
  · decide +kernel

end Episode

end EpisodeCut
