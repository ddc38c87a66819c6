import EpisodeCut.Episode.Basic
import EpisodeCut.Proofs.Config.WellFormed
import EpisodeCut.Proofs.FilterGraph.Specifiers
import EpisodeCut.Proofs.Frame.Images

/-!
# The inputs of a plan

Once all images exist nothing is left that can fail in planning, and the program of the plan reads
every stream from the right input (`Episode.plan_of_prepare`): the label through which it reads a
segment names the place at which the source of the segment was registered when the timeline was
resolved, and there stands its own file or its image. No input stands twice among the inputs of a
plan, and none is left unread.
-/

set_option autoImplicit false

namespace EpisodeCut.Episode

open Run Timeline

variable {σ : Type} {studio : Studio σ} {options : EpisodeOptions} {interrupted : Bool}
  {config : Option String}

/-! ## The stages before compilation -/

/-- What the stages before compilation leave: the specifications, the timeline and the registry
before any image was made, and the timeline with all images. -/
structure Prepared where
  specs : List InputSpec
  drafted : Timeline
  registered : Registry
  resolved : ResolvedTimeline

/-- The stages of planning before compilation. -/
def prepare (studio : Studio σ) (options : EpisodeOptions) (interrupted : Bool)
    (config : Option String) : Action (Run σ) Prepared := do
  modify fun run => { run with draft := .empty }
  let specs ← Action.ofExcept (specsOf options.defaults config)
  let timeline ← Timeline.resolve options.defaults studio.probe specs
  let drafted ← get
  if timeline.isEmpty then throw .nothingLeft
  Action.ofExcept (checkInterrupt interrupted .materialization)
  let size ← frameSize options studio.probe timeline
  let resolved ← timeline.materialize (.ofOutput options.output) size studio.materializer
  pure ⟨specs, timeline, drafted.draft.registry, resolved⟩

/-- A plan is prepared and then compiled. -/
theorem plan_eq (studio : Studio σ) (options : EpisodeOptions) (interrupted : Bool)
    (config : Option String) :
    plan studio options interrupted config = (do
      let prepared ← prepare studio options interrupted config
      let run ← get
      Action.ofExcept (planOf options prepared.resolved run.draft.registry)) := by
  simp only [plan, prepare, bind_assoc]
  refine bind_congr fun _ => bind_congr fun specs => bind_congr fun timeline => ?_
  -- What is read of the run in between does not change it.
  funext run
  cases timeline.isEmpty with
  | true => rfl
  | false =>
    simp only [Bool.false_eq_true, if_false, bind_assoc, pure_bind]
    rfl

theorem asks_pictureSize (probe : Probe σ) (segments : List Segment) :
    Asks (pictureSize probe segments) := by
  induction segments with
  | nil => exact .pure _
  | cons segment rest ih =>
    refine asks_get.bind fun run => ?_
    split
    · refine (asks_inWorld _).bind fun size => ?_
      cases size with
      | some size => exact .pure _
      | none => exact ih
    · exact ih

theorem asks_frameSize (options : EpisodeOptions) (probe : Probe σ) (timeline : Timeline) :
    Asks (frameSize options probe timeline) := by
  unfold frameSize
  split
  · exact .pure _
  · split
    · exact asks_pictureSize probe timeline.segments
    · exact .pure _

/-- What the stages before compilation have done when they succeed. -/
theorem prepare_eq_ok {run later : Run σ} {prepared : Prepared}
    (h : prepare studio options interrupted config run = .ok prepared later) :
    specsOf options.defaults config = .ok prepared.specs ∧
      ∃ resolved sized : Run σ,
        Timeline.resolve options.defaults studio.probe prepared.specs
          { run with draft := .empty } = .ok prepared.drafted resolved ∧
        prepared.registered = resolved.draft.registry ∧ sized.draft = resolved.draft ∧
        ∃ size, prepared.drafted.materialize (.ofOutput options.output) size studio.materializer
          sized = .ok prepared.resolved later := by
  rw [prepare] at h
  obtain ⟨done, started, hstart, h1⟩ := Action.bind_eq_ok h
  cases hstart
  obtain ⟨specs, first, hread, h2⟩ := Action.bind_eq_ok h1
  obtain ⟨hspecs, rfl⟩ := Action.ofExcept_eq_ok hread
  obtain ⟨timeline, resolved, hresolve, h3⟩ := Action.bind_eq_ok h2
  obtain ⟨drafted, second, hget, h4⟩ := Action.bind_eq_ok h3
  cases hget
  cases hempty : timeline.isEmpty with
  | true =>
    rw [hempty] at h4
    cases h4
  | false =>
    rw [hempty] at h4
    obtain ⟨passed, third, hcheck, h5⟩ := Action.bind_eq_ok h4
    obtain ⟨-, rfl⟩ := Action.ofExcept_eq_ok hcheck
    obtain ⟨size, sized, hsize, h6⟩ := Action.bind_eq_ok h5
    obtain ⟨images, last, himages, h7⟩ := Action.bind_eq_ok h6
    cases h7
    exact ⟨hspecs, _, sized, hresolve, rfl, (asks_frameSize _ _ _).draft hsize, size,
      himages⟩

/-! ## Own inputs -/

/-- The default files have names without hash signs. -/
def UnmarkedDefaults (defaults : Defaults) : Prop :=
  ∀ kind file, (defaults.get kind).file = some file → '#' ∉ file.toList

theorem unmarked_wholeFiles {defaults : Defaults} (unmarked : UnmarkedDefaults defaults) :
    Unmarked defaults defaults.wholeFiles := by
  intro spec hspec file hfile
  obtain ⟨kind, -, hwhole⟩ := List.mem_filterMap.1 hspec
  obtain ⟨name, hname, rfl⟩ := Option.map_eq_some_iff.1 hwhole
  cases hfile
  exact unmarked kind file hname

/-- Neither the configuration nor the defaults put hash signs into names. -/
theorem unmarked_specsOf {defaults : Defaults} (unmarked : UnmarkedDefaults defaults)
    {specs : List InputSpec} (h : specsOf defaults config = .ok specs) :
    Unmarked defaults specs := by
  have hchoice : ∀ written : List InputSpec,
      (∀ spec ∈ written, Config.NamedSource spec.source) →
      (if !written.isEmpty then .ok written
        else if !defaults.wholeFiles.isEmpty then .ok defaults.wholeFiles
        else .error .noInput : Except Failure (List InputSpec)) = .ok specs →
      Unmarked defaults specs := by
    intro written hnamed hchosen
    split at hchosen
    · cases hchosen
      intro spec hspec file hfile
      -- A source that is left out is the default file; one that is written was parsed.
      cases hsource : spec.source with
      | none =>
        rw [sourceOf?, hsource, Option.none_or] at hfile
        obtain ⟨name, hname, heq⟩ := Option.map_eq_some_iff.1 hfile
        cases heq
        exact unmarked spec.kind file hname
      | some source =>
        rw [sourceOf?, hsource, Option.some_or] at hfile
        exact Config.hash_not_mem_of_named (hnamed spec hspec file (hsource.trans hfile))
    · split at hchosen
      · cases hchosen
        exact unmarked_wholeFiles unmarked
      · cases hchosen
  cases config with
  | none => exact hchoice [] (fun spec hspec => absurd hspec List.not_mem_nil) h
  | some text =>
    obtain ⟨written, hwritten, hchosen⟩ := bind_eq_ok h
    exact hchoice written (Config.parse_named hwritten) hchosen

/-- The input that segment `number` of a specification should have: the file of the specification
or of the defaults, or the image that is made for the segment. -/
def ownInput? (names : ArtifactNames) (defaults : Defaults) (spec : InputSpec) (number : Nat) :
    Option Path :=
  match sourceOf? defaults spec with
  | some .previousSegment => some (names.path .frame number)
  | some (.file file) =>
    if spec.kind = .frame ∧ FrameSource.isDocument file = true then
      some (names.path .frame number)
    else some file
  | none => none

theorem ownInput?_of_drawnFrom {names : ArtifactNames} {defaults : Defaults} {spec : InputSpec}
    {segment : Segment} (drawn : DrawnFrom defaults spec segment) :
    ownInput? names defaults spec segment.number = some (segment.withImage names).input := by
  obtain ⟨feed, hkind, hsource, hfed⟩ := drawn
  rw [ownInput?, hsource]
  rcases FedBy.pending_or_file hfed with
    ⟨hpending, hframe, name, -, ⟨hprevious, -⟩ | ⟨hfile, hdocument⟩⟩ | ⟨hready, hfile, hplain⟩
  · rw [hprevious, Segment.input_withImage_of_pending hpending]
  · simp only [hfile, Segment.input_withImage_of_pending hpending]
    rw [if_pos ⟨hkind ▸ hframe, hdocument⟩]
  · simp only [hfile, Segment.withImage_of_ready hready]
    rw [if_neg fun hframe => hplain ⟨hkind.trans hframe.1, hframe.2⟩]

/-- The segments come from the specifications in turn, each with its own input. -/
def OwnInputs (names : ArtifactNames) (defaults : Defaults) (specs : List InputSpec)
    (segments : List Segment) : Prop :=
  ∃ parts : List (List Segment), segments = parts.flatten ∧
    List.Forall₂ (fun spec part => ∀ segment ∈ part,
      ownInput? names defaults spec segment.number = some segment.input) specs parts

theorem ownInputs_of_drawnInTurn {defaults : Defaults} {specs : List InputSpec}
    {segments : List Segment} (drawn : DrawnInTurn defaults specs segments)
    (names : ArtifactNames) :
    OwnInputs names defaults specs (segments.map (·.withImage names)) := by
  obtain ⟨parts, rfl, hparts⟩ := drawn
  refine ⟨parts.map (List.map (·.withImage names)), List.map_flatten, ?_⟩
  rw [List.forall₂_map_right_iff]
  refine hparts.imp fun spec part hdrawn segment hsegment => ?_
  obtain ⟨source, hmem, rfl⟩ := List.mem_map.1 hsegment
  rw [Segment.number_withImage]
  exact ownInput?_of_drawnFrom (hdrawn source hmem)

/-! ## Places -/

/-- The inputs of a plan, for the segments that were drafted and the program that the plan applies
to its inputs. -/
structure InputsInPlace (options : EpisodeOptions) (prepared : Prepared)
    (program : List Program.Statement) (plan : RenderPlan) : Prop where
  own : OwnInputs (.ofOutput options.output) options.defaults prepared.specs plan.timeline.segments
  /-- Every segment is read through some label. -/
  named : ∀ position < plan.timeline.segments.length,
    ∃ label, Program.ReadAs program plan.timeline.segments position label
  /-- A label through which a segment is read names the place where the segment's own input stands,
  and where its source was registered before any image was made. -/
  places : ∀ {position : Nat} {segment : Segment} {label : String},
    plan.timeline.segments[position]? = some segment →
    Program.ReadAs program plan.timeline.segments position label →
      ∃ source place entry, prepared.drafted.segments[position]? = some source ∧
        Program.readInput? label =
          some (place, segment.kind.track, (segment.stream?.getD 0).toNat) ∧
        plan.inputs[place]? = some entry ∧ entry.path = segment.input ∧
        prepared.registered.indexOf? source.input = some place
  /-- Nothing else is read from the inputs. -/
  only : ∀ label ∈ Program.labelsRead program, ¬Program.IsLink label →
    ∃ position, Program.ReadAs program plan.timeline.segments position label
  distinct : (plan.inputs.map InputEntry.path).Nodup
  read : ∀ place < plan.inputs.length, ∃ position label track stream,
    Program.ReadAs program plan.timeline.segments position label ∧
      Program.readInput? label = some (place, track, stream)

theorem readInput?_sourcePad {registry : Registry} {segment : Segment} {place : Nat}
    (h : registry.indexOf? segment.input = some place) :
    Program.readInput? (segment.sourcePad registry).label =
      some (place, segment.kind.track, (segment.stream?.getD 0).toNat) := by
  rw [Segment.sourcePad, h]
  exact Pad.readInput?_label _ _ _

/-- Between two registries every source keeps its place when its image is made, and there are no
other places. -/
structure KeepsPlaces (names : ArtifactNames) (sources : List Segment) (before after : Registry) :
    Prop where
  place : ∀ source ∈ sources, ∃ place, before.indexOf? source.input = some place ∧
    after.indexOf? (source.withImage names).input = some place
  read : ∀ place < after.paths.length, ∃ source ∈ sources,
    after.indexOf? (source.withImage names).input = some place

/-- Places are kept when images take the places of their placeholders, if all that was registered
are the sources. -/
theorem KeepsPlaces.of_adopts {names : ArtifactNames} {sources : List Segment}
    {before after : Registry} (adopts : before.Adopts names sources after)
    (registered : ∀ path, path ∈ before.paths ↔ path ∈ sources.map Segment.input) :
    KeepsPlaces names sources before after := by
  have himage : ∀ {place : Nat}, ∀ source ∈ sources,
      before.paths[place]? = some source.input →
        after.indexOf? (source.withImage names).input = some place :=
    fun source hsource hplace =>
      Registry.indexOf?_eq_some_iff.2 (adopts.images source hsource hplace)
  refine ⟨fun source hsource => ?_, fun place hplace => ?_⟩
  · have hmem := (registered source.input).2 (List.mem_map_of_mem hsource)
    obtain ⟨place, hindex⟩ := Registry.exists_indexOf?_of_mem hmem
    exact ⟨place, hindex, himage source hsource (Registry.indexOf?_eq_some_iff.1 hindex)⟩
  · -- No place was added, so a source was registered at this one.
    rw [adopts.size] at hplace
    obtain ⟨source, hsource, hinput⟩ :=
      List.mem_map.1 ((registered _).1 (List.getElem_mem hplace))
    refine ⟨source, hsource, himage source hsource ?_⟩
    rw [List.getElem?_eq_getElem hplace, hinput]

/-- The numbers of drafted segments are all different, and they are what is registered. -/
theorem drafted_of_resolve {defaults : Defaults} {probe : Probe σ} {specs : List InputSpec}
    {timeline : Timeline} {run drafted : Run σ} (fresh : run.draft = .empty)
    (h : Timeline.resolve defaults probe specs run = .ok timeline drafted) :
    (timeline.segments.map Segment.number).Nodup ∧
      ∀ path, path ∈ drafted.draft.registry.paths ↔
        path ∈ timeline.segments.map Segment.input := by
  obtain ⟨hgrows, -⟩ := (resolve_eq_ok h).1
  constructor
  · rw [hgrows.numbers]
    exact List.nodup_range'
  · intro path
    rw [hgrows.paths, fresh]
    simp [Draft.empty, Registry.empty, Registry.paths]

/-- Between the two registries of the stages before compilation, images have taken the places of
placeholders. -/
theorem takesImages_of_prepare {run later : Run σ} {prepared : Prepared}
    (h : prepare studio options interrupted config run = .ok prepared later) :
    prepared.resolved.segments =
        prepared.drafted.segments.map (·.withImage (.ofOutput options.output)) ∧
      prepared.registered.TakesImages (.ofOutput options.output) prepared.drafted.segments
        later.draft.registry := by
  obtain ⟨-, resolved, sized, hresolve, hregistered, hsized, size, hmaterialize⟩ :=
    prepare_eq_ok h
  obtain ⟨hsegments, -, htakes⟩ := materialize_eq_ok hmaterialize
  refine ⟨hsegments, ?_⟩
  rw [hregistered, ← hsized]
  exact htakes (input_ne_path_of_resolve hresolve _ .frame)

/-- What is known of the segments and the two registries once all images exist. -/
theorem places_of_prepare {run later : Run σ} {prepared : Prepared}
    (unmarked : UnmarkedDefaults options.defaults)
    (h : prepare studio options interrupted config run = .ok prepared later) :
    DrawnInTurn options.defaults prepared.specs prepared.drafted.segments ∧
      (prepared.drafted.segments.map Segment.number).Nodup ∧
      prepared.resolved.segments =
        prepared.drafted.segments.map (·.withImage (.ofOutput options.output)) ∧
      KeepsPlaces (.ofOutput options.output) prepared.drafted.segments prepared.registered
        later.draft.registry := by
  obtain ⟨hspecs, resolved, sized, hresolve, hregistered, -⟩ := prepare_eq_ok h
  obtain ⟨hsegments, htakes⟩ := takesImages_of_prepare h
  have hdrawn := (resolve_eq_ok hresolve).2
  obtain ⟨hnumbers, hpaths⟩ := drafted_of_resolve rfl hresolve
  have hadopts := htakes.adopts
    (pairwise_input_ne hdrawn hnumbers (unmarked_specsOf unmarked hspecs))
  refine ⟨hdrawn, hnumbers, hsegments, .of_adopts hadopts ?_⟩
  rw [hregistered]
  exact hpaths

/-! ## Compilation -/

/-- A timeline whose inputs are all registered has a plan, and the program of the command is that of
the compiled graph. -/
theorem exists_plan_of_registered (options : EpisodeOptions) {timeline : ResolvedTimeline}
    {registry : Registry}
    (registered : ∀ segment ∈ timeline.segments, segment.input ∈ registry.paths) :
    ∃ plan program, planOf options timeline registry = .ok plan ∧ plan.timeline = timeline ∧
      plan.inputs = registry.entries ∧ plan.command.inputs = plan.inputs ∧
      plan.command.program = plan.program ∧ Program.read? plan.program = some program ∧
      (FilterGraph.compiled timeline registry options.flags).filters.mapM Filter.statement? =
        some program := by
  have hcompile : FilterGraph.compile timeline registry options.flags =
      .ok (FilterGraph.compiled timeline registry options.flags) :=
    FilterGraph.compile_eq_ok_iff.2 ⟨registered, rfl⟩
  obtain ⟨program, hprogram⟩ := FilterGraph.exists_statements timeline registry options.flags
  rw [planOf, hcompile]
  exact ⟨_, program, rfl, rfl, rfl, rfl, rfl, FilterGraph.read?_program hprogram, hprogram⟩

/-- The inputs of a plan are in place if its segments are the drafted ones with their images, every
source has kept its place, and the program is that of the compiled graph. -/
theorem inputsInPlace_of_keepsPlaces {prepared : Prepared} {registry : Registry} {plan : RenderPlan}
    {program : List Program.Statement}
    (htimeline : plan.timeline = prepared.resolved) (hinputs : plan.inputs = registry.entries)
    (compiled : (FilterGraph.compiled prepared.resolved registry options.flags).filters.mapM
      Filter.statement? = some program)
    (drawn : DrawnInTurn options.defaults prepared.specs prepared.drafted.segments)
    (numbers : (prepared.drafted.segments.map Segment.number).Nodup)
    (images : prepared.resolved.segments =
      prepared.drafted.segments.map (·.withImage (.ofOutput options.output)))
    (keeps : KeepsPlaces (.ofOutput options.output) prepared.drafted.segments prepared.registered
      registry) : InputsInPlace options prepared program plan := by
  have hnumbers : (prepared.resolved.segments.map Segment.number).Nodup := by
    rw [images, List.map_map]
    simpa only [Function.comp_def, Segment.number_withImage] using numbers
  have hread : ∀ {position : Nat} {label : String},
      Program.ReadAs program prepared.resolved.segments position label ↔
        ∃ segment, prepared.resolved.segments[position]? = some segment ∧
          label = (segment.sourcePad registry).label :=
    FilterGraph.readAs_compiled_iff hnumbers compiled
  constructor
  case own =>
    rw [htimeline, images]
    exact ownInputs_of_drawnInTurn drawn _
  case named =>
    rw [htimeline]
    intro position hposition
    exact ⟨_, hread.2 ⟨_, List.getElem?_eq_getElem hposition, rfl⟩⟩
  case places =>
    rw [htimeline]
    intro position segment label hsegment hlabel
    obtain ⟨other, hother, rfl⟩ := hread.1 hlabel
    rw [hsegment, Option.some.injEq] at hother
    subst hother
    rw [images, List.getElem?_map, Option.map_eq_some_iff] at hsegment
    obtain ⟨source, hsource, rfl⟩ := hsegment
    obtain ⟨place, hdrafted, hindex⟩ := keeps.place source (List.mem_of_getElem? hsource)
    have hentry := Registry.entries_of_indexOf? hindex
    rw [← hinputs] at hentry
    exact ⟨source, place, _, hsource, readInput?_sourcePad hindex, hentry, rfl, hdrafted⟩
  case only =>
    rw [htimeline]
    intro label hlabel hinput
    exact FilterGraph.exists_readAs_of_read hnumbers compiled hlabel hinput
  case distinct =>
    rw [hinputs]
    exact registry.distinct
  case read =>
    intro place hplace
    have hlength : registry.paths.length = plan.inputs.length := by
      rw [hinputs, Registry.paths, List.length_map]
    rw [← hlength] at hplace
    obtain ⟨source, hsource, hindex⟩ := keeps.read place hplace
    obtain ⟨position, hposition⟩ := List.mem_iff_getElem?.1 hsource
    have hmade : prepared.resolved.segments[position]? =
        some (source.withImage (.ofOutput options.output)) := by
      rw [images, List.getElem?_map, hposition]
      rfl
    rw [htimeline]
    exact ⟨position, _, _, _, hread.2 ⟨_, hmade, rfl⟩, readInput?_sourcePad hindex⟩

/-- Whenever all images of an episode have been made there is a plan. Its program can be read, and
the streams that the program reads stand in place among the inputs of the plan. -/
theorem plan_of_prepare {run later : Run σ} {prepared : Prepared}
    (unmarked : UnmarkedDefaults options.defaults)
    (h : prepare studio options interrupted config run = .ok prepared later) :
    ∃ plan program, Episode.plan studio options interrupted config run = .ok plan later ∧
      planOf options prepared.resolved later.draft.registry = .ok plan ∧
      plan.command.inputs = plan.inputs ∧ plan.command.program = plan.program ∧
      Program.read? plan.program = some program ∧
      InputsInPlace options prepared program plan := by
  obtain ⟨hdrawn, hnumbers, himages, hkeeps⟩ := places_of_prepare unmarked h
  have hregistered : ∀ segment ∈ prepared.resolved.segments,
      segment.input ∈ later.draft.registry.paths := by
    intro segment hsegment
    rw [himages] at hsegment
    obtain ⟨source, hsource, rfl⟩ := List.mem_map.1 hsegment
    obtain ⟨place, -, hindex⟩ := hkeeps.place source hsource
    exact Registry.mem_paths_of_indexOf? hindex
  obtain ⟨plan, program, hplan, htimeline, hinputs, hopened, hsame, hread, hcompiled⟩ :=
    exists_plan_of_registered options hregistered
  refine ⟨plan, program, ?_, hplan, hopened, hsame, hread,
    inputsInPlace_of_keepsPlaces htimeline hinputs hcompiled hdrawn hnumbers himages hkeeps⟩
  rw [plan_eq, Action.bind_eq_of_ok h]
  change Action.ofExcept (planOf options prepared.resolved later.draft.registry) later = _
  rw [hplan]
  rfl

/-! ## An episode with frames of all sources -/

/-- Options of an episode whose pages come from slides. -/
def lectureOptions : EpisodeOptions where
  output := "lecture.mov"
  defaults := ⟨⟨some "talk.wav", none⟩, ⟨none, none⟩, ⟨some "slides.pdf", none⟩⟩
  flags := .standard
  frameSize := none
  keep := false

/-- A recording over a film, the last frame of the film, and a page of the slides. -/
def lectureText : String :=
  "[a::v:film.mov] 0:1.2 0:2.5 [f:^:last] 0:0 0:3 [f::2] 0:0 0:4"

/-- A studio without files in which every image can be made. -/
def quietStudio : Studio Workspace where
  probe := ⟨fun _ _ => false, fun _ => pure .zero, fun _ => pure none⟩
  materializer := .idle
  workspace := id
  setWorkspace workspace _ := workspace

/-- A workspace in which there is nothing. -/
def quietWorkspace : Workspace :=
  ⟨default, 0, [], .ofList [], [], [], ""⟩

theorem prepare_lecture : ∃ prepared later, prepare quietStudio lectureOptions false
    (some lectureText) (.start quietWorkspace) = .ok prepared later := by
  apply Action.exists_eq_ok
  decide +kernel

theorem plan_lecture : UnmarkedDefaults lectureOptions.defaults ∧
    ∃ prepared later, prepare quietStudio lectureOptions false (some lectureText)
        (.start quietWorkspace) = .ok prepared later ∧
      ∃ plan program, Episode.plan quietStudio lectureOptions false (some lectureText)
          (.start quietWorkspace) = .ok plan later ∧
        planOf lectureOptions prepared.resolved later.draft.registry = .ok plan ∧
        plan.command.inputs = plan.inputs ∧ plan.command.program = plan.program ∧
        Program.read? plan.program = some program ∧
        InputsInPlace lectureOptions prepared program plan := by
  have hunmarked : UnmarkedDefaults lectureOptions.defaults := by
    intro kind file hfile
    cases kind <;> cases hfile <;> decide
  obtain ⟨prepared, later, hprepare⟩ := prepare_lecture
  exact ⟨hunmarked, prepared, later, hprepare, plan_of_prepare hunmarked hprepare⟩

end EpisodeCut.Episode
