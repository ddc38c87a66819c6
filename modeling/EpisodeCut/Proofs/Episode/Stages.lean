import EpisodeCut.Proofs.Episode.Inputs
import EpisodeCut.Proofs.Run.Keeps

/-!
# Invariants of planning

Planning reaches the world through the probe and the materializer alone, and what it records are
generated files that are about to be ordered. So a property of runs is kept by all of planning,
wherever it ends, if it is kept by every question to the probe and by every order for a generated
file, and does not depend on the draft and the warnings (`Episode.keeps_plan`).
-/

set_option autoImplicit false

namespace EpisodeCut

open EpisodeCut.Action

variable {σ : Type}

/-- What keeps a property of runs while an episode is planned whose generated files have these
names. -/
structure Studio.Maintains (studio : Studio σ) (names : ArtifactNames) (I : Run σ → Prop) :
    Prop where
  books : ∀ run later : Run σ, later.world = run.world → later.artifacts = run.artifacts →
    I run → I later
  duration : ∀ path, Keeps I (Run.inWorld (studio.probe.duration path))
  videoSize : ∀ path, Keeps I (Run.inWorld (studio.probe.videoSize path))
  /-- The file is recorded first. -/
  perform : ∀ order kind number, order.destination = names.path kind number → ∀ run, I run →
    I ((Run.inWorld (studio.materializer.perform order)).after
      { run with artifacts := run.artifacts.push order.destination })

/-- An action that leaves the world and the recorded files alone. -/
theorem Studio.Maintains.keeps_aside {α : Type} {studio : Studio σ} {names : ArtifactNames}
    {I : Run σ → Prop} (maintains : studio.Maintains names I) {action : Action (Run σ) α}
    (hworld : ∀ run, (action.after run).world = run.world)
    (hartifacts : ∀ run, (action.after run).artifacts = run.artifacts) : Keeps I action :=
  fun run h => maintains.books run _ (hworld run) (hartifacts run) h

namespace Timeline

variable {studio : Studio σ} {names : ArtifactNames} {I : Run σ → Prop}

/-! ## Resolution -/

theorem keeps_warn (maintains : studio.Maintains names I) (warnings : List Warning) :
    Keeps I (Run.warn warnings) :=
  maintains.keeps_aside (fun _ => rfl) fun _ => rfl

theorem keeps_streamDuration (maintains : studio.Maintains names I) (kind : MediaKind)
    (source : SourceRef) : Keeps I (streamDuration studio.probe kind source) := by
  cases source with
  | previousSegment => exact keeps_pure _
  | file file =>
    refine keeps_get_bind fun run hrun => ?_
    split
    · exact maintains.duration file run hrun
    · exact hrun

theorem keeps_feedOf (maintains : studio.Maintains names I) (defaults : Defaults)
    (spec : InputSpec) : Keeps I (feedOf defaults studio.probe spec) := by
  refine keeps_get_bind fun run hrun => ?_
  refine Keeps.bind (keeps_ofExcept _) (fun source => ?_) run hrun
  exact (keeps_streamDuration maintains spec.kind source).bind fun _ => keeps_pure _

theorem keeps_place (maintains : studio.Maintains names I) (feed : Feed)
    (punchIn punchOut : Timecode) : Keeps I (place feed punchIn punchOut) := by
  refine keeps_get_bind fun run hrun => ?_
  refine Keeps.bind (keeps_ofExcept _) (fun content => ?_) run hrun
  exact maintains.keeps_aside (fun _ => rfl) fun _ => rfl

theorem keeps_accept (maintains : studio.Maintains names I) (feed : Feed)
    (punchIn punchOut : Timecode) : Keeps I (accept feed punchIn punchOut) := by
  refine keeps_get_bind fun run hrun => ?_
  split
  · exact hrun
  · split
    · exact (keeps_warn maintains _).bind (fun _ => keeps_pure []) run hrun
    · exact (keeps_place maintains feed punchIn punchOut).bind (fun _ => keeps_pure _) run hrun

theorem keeps_referencedDuration (maintains : studio.Maintains names I) (file : String) :
    Keeps I (referencedDuration studio.probe file) := by
  refine keeps_get_bind fun run hrun => ?_
  split
  · exact (maintains.duration file).mapFailure _ run hrun
  · exact hrun

theorem keeps_punchOutOf (maintains : studio.Maintains names I) (punchIn : Timecode)
    (token : TimeToken) : Keeps I (punchOutOf studio.probe punchIn token) := by
  cases token with
  | timestamp clock => exact keeps_ofExcept _
  | durationOf file =>
    exact (keeps_referencedDuration maintains file).bind fun _ => keeps_pure _

theorem keeps_resolveTimes (maintains : studio.Maintains names I) (feed : Feed)
    (tokens : List TimeToken) : Keeps I (resolveTimes studio.probe feed tokens) := by
  -- The tokens are taken two by two, so the induction follows the function.
  induction tokens using resolveTimes.induct with
  | case1 => exact keeps_pure []
  | case2 tail => exact (keeps_ofExcept _).bind fun _ => keeps_accept maintains feed _ _
  | case3 first second rest ih =>
    refine (keeps_ofExcept _).bind fun punchIn => ?_
    refine (keeps_punchOutOf maintains punchIn second).bind fun punchOut => ?_
    refine (keeps_accept maintains feed punchIn punchOut).bind fun made => ?_
    exact ih.bind fun others => keeps_pure _

theorem keeps_resolveWhole (maintains : studio.Maintains names I) (feed : Feed) :
    Keeps I (resolveWhole feed : Action (Run σ) (List Segment)) := by
  refine keeps_get_bind fun run hrun => ?_
  have hplace : Keeps I (do
      let segment ← (place feed .zero feed.duration : Action (Run σ) Segment)
      pure [segment]) :=
    (keeps_place maintains feed .zero feed.duration).bind fun _ => keeps_pure _
  split
  · exact (keeps_warn maintains _).bind (fun _ => hplace) run hrun
  · exact hplace run hrun

theorem keeps_resolveSpec (maintains : studio.Maintains names I) (defaults : Defaults)
    (spec : InputSpec) : Keeps I (resolveSpec defaults studio.probe spec) := by
  refine (keeps_feedOf maintains defaults spec).bind fun feed => ?_
  split
  · exact keeps_resolveWhole maintains feed
  · exact keeps_resolveTimes maintains feed spec.times

theorem keeps_resolveSpecs (maintains : studio.Maintains names I) (defaults : Defaults)
    (specs : List InputSpec) : Keeps I (resolveSpecs defaults studio.probe specs) := by
  induction specs with
  | nil => exact keeps_pure []
  | cons spec rest ih =>
    refine (keeps_resolveSpec maintains defaults spec).bind fun made => ?_
    exact ih.bind fun others => keeps_pure _

theorem keeps_resolve (maintains : studio.Maintains names I) (defaults : Defaults)
    (specs : List InputSpec) : Keeps I (resolve defaults studio.probe specs) := by
  refine (keeps_resolveSpecs maintains defaults specs).bind fun segments => ?_
  exact (keeps_warn maintains _).bind fun _ => keeps_pure _

/-! ## Images -/

/-- Every file that is ordered for a segment is a generated one. -/
theorem destination_of_orders {size : FrameSize} {segments : List Segment} {segment : Segment}
    {source : FrameSource} {work : List FrameOrder} {number : Nat}
    (h : orders names size segments segment (names.path .frame number) source = .ok work) :
    ∀ order ∈ work, ∃ kind number, order.destination = names.path kind number := by
  intro order horder
  cases source with
  | document path page =>
    cases h
    rw [List.mem_singleton.1 horder]
    exact ⟨.frame, number, rfl⟩
  | previousSegment =>
    rw [orders] at h
    cases hprevious : predecessor segments segment with
    | error failure =>
      rw [hprevious] at h
      cases h
    | ok previous =>
      rw [hprevious] at h
      cases h
      simp only [List.mem_cons, List.not_mem_nil, or_false] at horder
      rcases horder with rfl | rfl
      · exact ⟨previous.kind, previous.number, rfl⟩
      · exact ⟨.frame, number, rfl⟩

theorem keeps_performAll (maintains : studio.Maintains names I) (number : Nat)
    {work : List FrameOrder}
    (h : ∀ order ∈ work, ∃ kind number, order.destination = names.path kind number) :
    Keeps I (performAll studio.materializer number work) := by
  induction work with
  | nil => exact keeps_pure ()
  | cons order rest ih =>
    obtain ⟨kind, written, hdestination⟩ := h order List.mem_cons_self
    have hrest := ih fun other hother => h other (List.mem_cons_of_mem order hother)
    -- Only both together keep the property: the file is ordered when it is on record.
    have hone : Keeps I (do
        Run.record order.destination
        (Run.inWorld (studio.materializer.perform order)).mapFailure (.frameFailed number)) := by
      intro run hrun
      have hperformed := maintains.perform order kind written hdestination run hrun
      rw [← after_mapFailure (.frameFailed number)] at hperformed
      exact hperformed
    have hsteps : performAll studio.materializer number (order :: rest) = (do
        Run.record order.destination
        (Run.inWorld (studio.materializer.perform order)).mapFailure (.frameFailed number)) >>=
          fun _ => performAll studio.materializer number rest := rfl
    rw [hsteps]
    exact hone.bind fun _ => hrest

theorem keeps_adoptImage (maintains : studio.Maintains names I) (segment : Segment)
    (image : Path) : Keeps I (adoptImage segment image : Action (Run σ) Unit) := by
  refine keeps_get_bind fun run hrun => ?_
  cases hrename : run.draft.registry.rename segment.input image
    (some (stillOptions segment.duration)) with
  | error cause => exact hrun
  | ok registry => exact maintains.books run _ rfl rfl hrun

theorem keeps_materializeOne (maintains : studio.Maintains names I) (size : FrameSize)
    (segments : List Segment) (segment : Segment) :
    Keeps I (materializeOne names size studio.materializer segments segment) := by
  rw [materializeOne]
  split
  · exact keeps_pure _
  · next source _ =>
    refine (keeps_ofExcept _).bind_of_ok fun run work later horders hlater => ?_
    obtain ⟨hwork, rfl⟩ := ofExcept_eq_ok horders
    refine Keeps.bind ?_ (fun _ => ?_) later hlater
    · exact keeps_performAll maintains _ (destination_of_orders hwork)
    · exact (keeps_adoptImage maintains _ _).bind fun _ => keeps_pure _

theorem keeps_materializeFrom (maintains : studio.Maintains names I) (size : FrameSize)
    (done left : List Segment) :
    Keeps I (materializeFrom names size studio.materializer done left) := by
  induction left generalizing done with
  | nil => exact keeps_pure done
  | cons segment left ih =>
    exact (keeps_materializeOne maintains size _ segment).bind fun made => ih (done ++ [made])

theorem keeps_materialize (maintains : studio.Maintains names I) (size : FrameSize)
    (timeline : Timeline) :
    Keeps I (timeline.materialize names size studio.materializer) := by
  refine (keeps_ofExcept _).bind fun _ => ?_
  refine (keeps_materializeFrom maintains size [] timeline.segments).bind fun segments => ?_
  exact keeps_ofExcept _

end Timeline

namespace Episode

variable {studio : Studio σ} {names : ArtifactNames} {I : Run σ → Prop}

theorem keeps_pictureSize (maintains : studio.Maintains names I) (segments : List Segment) :
    Keeps I (pictureSize studio.probe segments) := by
  induction segments with
  | nil => exact keeps_pure _
  | cons segment rest ih =>
    refine keeps_get_bind fun run hrun => ?_
    split
    · refine Keeps.bind (maintains.videoSize segment.input) (fun size => ?_) run hrun
      cases size with
      | none => exact ih
      | some size => exact keeps_pure size
    · exact ih run hrun

theorem keeps_frameSize (maintains : studio.Maintains names I) (options : EpisodeOptions)
    (timeline : Timeline) : Keeps I (frameSize options studio.probe timeline) := by
  rw [frameSize]
  split
  · exact keeps_pure _
  · split
    · exact keeps_pictureSize maintains timeline.segments
    · exact keeps_pure _

/-- What is kept by every question and every order is kept by planning. -/
theorem keeps_plan {options : EpisodeOptions}
    (maintains : studio.Maintains (.ofOutput options.output) I) (interrupted : Bool)
    (config : Option String) : Keeps I (plan studio options interrupted config) := by
  refine .bind (maintains.keeps_aside (fun _ => rfl) fun _ => rfl) fun _ => ?_
  refine (keeps_ofExcept _).bind fun specs => ?_
  refine (Timeline.keeps_resolve maintains options.defaults specs).bind fun timeline => ?_
  cases timeline.isEmpty with
  | true => exact keeps_throw _
  | false =>
    refine .bind (keeps_ofExcept _) fun _ => ?_
    refine (keeps_frameSize maintains options timeline).bind fun size => ?_
    refine (Timeline.keeps_materialize maintains size timeline).bind fun resolved => ?_
    exact keeps_get_bind fun run hrun => keeps_ofExcept _ run hrun

/-- A plan is one for the output that was asked for. -/
theorem output_of_plan {options : EpisodeOptions} {interrupted : Bool} {config : Option String}
    {run later : Run σ} {made : RenderPlan}
    (h : plan studio options interrupted config run = .ok made later) :
    made.command.output = options.output := by
  rw [plan_eq] at h
  obtain ⟨prepared, middle, -, hplan⟩ := Action.bind_eq_ok h
  rw [get_bind] at hplan
  obtain ⟨hmade, -⟩ := ofExcept_eq_ok hplan
  rw [planOf] at hmade
  cases hgraph : FilterGraph.compile prepared.resolved middle.draft.registry options.flags with
  | error failure =>
    rw [hgraph] at hmade
    cases hmade
  | ok graph =>
    rw [hgraph] at hmade
    cases hmade
    rfl

end Episode

end EpisodeCut
