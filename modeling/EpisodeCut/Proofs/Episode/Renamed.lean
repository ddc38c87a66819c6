import EpisodeCut.Proofs.Episode.Inputs
import EpisodeCut.Proofs.Frame.Renamed
import EpisodeCut.RenderCommand

/-!
# Episodes under other names

The filter program knows its inputs by their numbers only, so no name that the user chooses gets
into it or has any influence on it. If the files of the user are called otherwise, and the probe
knows them under their new names, then every stage up to compilation succeeds as it did before, the
segments have their numbers, the program is the same to the letter, and the arguments of the
renderer differ in nothing but the names of these files behind `-i` (`Renaming.same_program`).
-/

set_option autoImplicit false

namespace EpisodeCut

open EpisodeCut.Action Relator

/-! ## Compilation -/

section Compilation

variable {K : String → String → Prop} {registry otherRegistry : Registry}

theorem map_eq_of_forall₂ {α β γ : Type} {R : α → β → Prop} {xs : List α} {ys : List β}
    {f : α → γ} {g : β → γ} (related : List.Forall₂ R xs ys) (same : ∀ x y, R x y → f x = g y) :
    xs.map f = ys.map g := by
  rw [← List.forall₂_eq_eq_eq, List.forall₂_map_left_iff, List.forall₂_map_right_iff]
  exact related.imp same

theorem Segment.Matches.sourcePad_eq (unique : BiUnique K)
    (registries : registry.Matches K otherRegistry) {segment other : Segment}
    (matched : segment.Matches K other) :
    segment.sourcePad registry = other.sourcePad otherRegistry := by
  rw [Segment.sourcePad, Segment.sourcePad, registries.indexOf?_eq unique matched.input,
    matched.kind, matched.stream]

theorem Segment.Matches.joinedPad_eq (unique : BiUnique K)
    (registries : registry.Matches K otherRegistry) {segment other : Segment}
    (matched : segment.Matches K other) :
    segment.joinedPad registry = other.joinedPad otherRegistry := by
  rw [Segment.joinedPad, Segment.joinedPad, matched.sourcePad_eq unique registries, matched.kind,
    matched.number]

theorem Segment.Matches.trims_eq (unique : BiUnique K)
    (registries : registry.Matches K otherRegistry) {segment other : Segment}
    (matched : segment.Matches K other) :
    segment.trims registry = other.trims otherRegistry := by
  rw [Segment.trims, Segment.trims, matched.sourcePad_eq unique registries, matched.kind,
    matched.number, matched.punchIn, matched.duration]

variable {timeline otherTimeline : ResolvedTimeline}

theorem onTrack_of_forall₂
    (matched : List.Forall₂ (Segment.Matches K) timeline.segments otherTimeline.segments)
    (track : Track) :
    List.Forall₂ (Segment.Matches K) (timeline.onTrack track) (otherTimeline.onTrack track) := by
  apply List.rel_filter _ matched
  intro segment other same
  simp only [same.kind]

theorem onTrack_eq_nil_iff
    (matched : List.Forall₂ (Segment.Matches K) timeline.segments otherTimeline.segments)
    (track : Track) : timeline.onTrack track = [] ↔ otherTimeline.onTrack track = [] := by
  rw [← List.length_eq_zero_iff, ← List.length_eq_zero_iff,
    (onTrack_of_forall₂ matched track).length_eq]

theorem joins_eq_of_forall₂ (unique : BiUnique K) (registries : registry.Matches K otherRegistry)
    (matched : List.Forall₂ (Segment.Matches K) timeline.segments otherTimeline.segments)
    (track : Track) :
    FilterGraph.joins registry track timeline =
      FilterGraph.joins otherRegistry track otherTimeline := by
  have hpads : (timeline.onTrack track).map (·.joinedPad registry) =
      (otherTimeline.onTrack track).map (·.joinedPad otherRegistry) :=
    map_eq_of_forall₂ (onTrack_of_forall₂ matched track) fun _ _ same =>
      same.joinedPad_eq unique registries
  simp only [FilterGraph.joins, hpads, onTrack_eq_nil_iff matched]

/-- From matching segments and registries one filter graph is compiled. -/
theorem compiled_eq_of_forall₂ (unique : BiUnique K)
    (registries : registry.Matches K otherRegistry)
    (matched : List.Forall₂ (Segment.Matches K) timeline.segments otherTimeline.segments)
    (flags : RenderFlags) :
    FilterGraph.compiled timeline registry flags =
      FilterGraph.compiled otherTimeline otherRegistry flags := by
  have htrims : timeline.segments.flatMap (·.trims registry) =
      otherTimeline.segments.flatMap (·.trims otherRegistry) := by
    rw [List.flatMap_def, List.flatMap_def,
      map_eq_of_forall₂ matched fun _ _ same => same.trims_eq unique registries]
  have hnormalises : FilterGraph.normalises flags timeline =
      FilterGraph.normalises flags otherTimeline := by
    simp only [FilterGraph.normalises, ne_eq, onTrack_eq_nil_iff matched]
  rw [FilterGraph.compiled, FilterGraph.compiled, htrims, hnormalises,
    joins_eq_of_forall₂ unique registries matched .audio,
    joins_eq_of_forall₂ unique registries matched .video]

theorem concur_compile (unique : BiUnique K) (registries : registry.Matches K otherRegistry)
    (matched : List.Forall₂ (Segment.Matches K) timeline.segments otherTimeline.segments)
    (flags : RenderFlags) :
    Concur (fun graph otherGraph => otherGraph = graph)
      (FilterGraph.compile timeline registry flags)
      (FilterGraph.compile otherTimeline otherRegistry flags) := by
  have hregistered : (∀ segment ∈ timeline.segments, segment.input ∈ registry.paths) ↔
      ∀ segment ∈ otherTimeline.segments, segment.input ∈ otherRegistry.paths :=
    forall_mem_iff_of_forall₂ matched fun _ _ same => registries.mem_paths_iff unique same.input
  apply Concur.of_iff
  · simp only [FilterGraph.compile_eq_ok_iff, hregistered, exists_eq_right]
  · intro graph otherGraph hgraph hother
    rw [(FilterGraph.compile_eq_ok_iff.1 hgraph).2, (FilterGraph.compile_eq_ok_iff.1 hother).2,
      compiled_eq_of_forall₂ unique registries matched flags]

end Compilation

/-! ## Inputs in the end -/

/-- The entry with its file under its new name, if the file is one of the user. -/
def InputEntry.renameIn (files : List String) (rename : String → String) (entry : InputEntry) :
    InputEntry :=
  if entry.path ∈ files then { entry with path := rename entry.path } else entry

/-- The command with the files of the user under their new names among its inputs. -/
def RenderCommand.renameInputs (files : List String) (rename : String → String)
    (command : RenderCommand) : RenderCommand :=
  { command with inputs := command.inputs.map (InputEntry.renameIn files rename) }

namespace Timeline

variable {σ : Type} {probe : Probe σ} {defaults : Defaults} {specs : List InputSpec}

theorem mem_userFiles_of_sourceOf? {spec : InputSpec} (hspec : spec ∈ specs) {file : String}
    (h : sourceOf? defaults spec = some (.file file)) : file ∈ userFiles defaults specs := by
  rw [sourceOf?] at h
  cases hsource : spec.source with
  | some source =>
    rw [hsource, Option.some_or] at h
    apply List.mem_append_right
    exact List.mem_flatMap.2 ⟨spec, hspec, InputSpec.mem_files_of_source (hsource.trans h)⟩
  | none =>
    rw [hsource, Option.none_or] at h
    obtain ⟨name, hname, heq⟩ := Option.map_eq_some_iff.1 h
    cases heq
    exact List.mem_append_left _ (Defaults.mem_files_of_get hname)

/-- Once all images are made, nothing is registered but images and names without hash signs. -/
theorem settled_of_materialize {names : ArtifactNames} {size : FrameSize}
    {materializer : Materializer σ} {run drafted sized later : Run σ} {timeline : Timeline}
    {resolved : ResolvedTimeline} (fresh : run.draft = .empty) (unmarked : Unmarked defaults specs)
    (hresolve : resolve defaults probe specs run = .ok timeline drafted)
    (hsized : sized.draft = drafted.draft)
    (hmaterialize : timeline.materialize names size materializer sized = .ok resolved later) :
    ∀ path ∈ later.draft.registry.paths,
      '#' ∉ path.toList ∨ ∃ number, path = names.path .frame number := by
  have hdrawn := (resolve_eq_ok hresolve).2
  obtain ⟨hnumbers, hpaths⟩ := Episode.drafted_of_resolve fresh hresolve
  obtain ⟨-, -, himages⟩ := materialize_eq_ok hmaterialize
  have htakes := himages (input_ne_path_of_resolve hresolve names .frame)
  rw [hsized] at htakes
  have hkeeps : Episode.KeepsPlaces names timeline.segments drafted.draft.registry
      later.draft.registry :=
    .of_adopts (htakes.adopts (pairwise_input_ne hdrawn hnumbers unmarked)) hpaths
  intro path hpath
  obtain ⟨place, hplace⟩ := Registry.exists_indexOf?_of_mem hpath
  have hlookup := Registry.indexOf?_eq_some_iff.1 hplace
  obtain ⟨source, hsource, hread⟩ := hkeeps.read place (List.getElem?_eq_some_iff.1 hlookup).1
  -- What stands at the place is what a segment reads there.
  have hinput : path = (source.withImage names).input := by
    rw [Registry.indexOf?_eq_some_iff, hlookup] at hread
    exact Option.some.inj hread
  cases hpending : source.isPending with
  | true =>
    right
    exact ⟨source.number, hinput.trans (Segment.input_withImage_of_pending hpending names)⟩
  | false =>
    left
    obtain ⟨spec, hspec, hfrom⟩ := hdrawn.exists_spec hsource
    rw [hinput, Segment.withImage_of_ready hpending]
    exact (hfrom.marked (unmarked spec hspec)).ready hpending

end Timeline

namespace Renaming

variable {names : ArtifactNames} {files : List String} {rename : String → String}

theorem renameIn_of_turns (renames : Renaming names files rename) {entry other : InputEntry}
    (matched : entry.Matches (Turns names files rename) other)
    (settled : '#' ∉ entry.path.toList ∨ ∃ number, entry.path = names.path .frame number) :
    other = entry.renameIn files rename := by
  obtain ⟨path, options⟩ := entry
  obtain ⟨otherPath, otherOptions⟩ := other
  obtain ⟨⟨name, hname, hpath, hother⟩, hoptions⟩ := matched
  subst hpath hother hoptions
  cases name with
  | file file =>
    have hfile : file ∈ files := hname
    rw [InputEntry.renameIn]
    exact (if_pos hfile).symm
  | awaited source number =>
    rcases settled with hplain | ⟨next, himage⟩
    · -- A placeholder has a hash sign.
      exfalso
      apply hplain
      simp [InputName.text, Timeline.toList_placeholder]
    · exact absurd himage (Timeline.placeholder_ne_path _ _ _ _ _)
  | image path =>
    -- No file of the user is called like an image, so the entry is left as it is.
    obtain ⟨number, rfl⟩ := hname
    have hforeign : names.path .frame number ∉ files := by
      intro hfile
      exact (renames.before _ hfile).image number rfl
    rw [InputEntry.renameIn]
    exact (if_neg hforeign).symm

theorem entries_eq_of_matches (renames : Renaming names files rename)
    {registry other : Registry} (matched : registry.Matches (Turns names files rename) other)
    (settled : ∀ path ∈ registry.paths,
      '#' ∉ path.toList ∨ ∃ number, path = names.path .frame number) :
    other.entries = registry.entries.map (InputEntry.renameIn files rename) := by
  have hentries : ∀ {entries others : List InputEntry},
      List.Forall₂ (InputEntry.Matches (Turns names files rename)) entries others →
        (∀ entry ∈ entries,
          '#' ∉ entry.path.toList ∨ ∃ number, entry.path = names.path .frame number) →
          others = entries.map (InputEntry.renameIn files rename) := by
    intro entries others hmatched hsettled
    induction hmatched with
    | nil => rfl
    | cons head _ ih =>
      obtain ⟨hhead, htail⟩ := List.forall_mem_cons.1 hsettled
      rw [List.map_cons, ← ih htail, ← renames.renameIn_of_turns head hhead]
  apply hentries matched
  intro entry hentry
  exact settled entry.path (List.mem_map_of_mem hentry)

/-! ## The whole way -/

variable {σ τ : Type}

/-- Both timelines compile or neither does. If they do, it is to one program, and the arguments of
the renderer differ only in the files of the user, which are opened under their new names. -/
def SameProgram (files : List String) (rename : String → String) (flags : RenderFlags)
    (output : Path) (timeline : ResolvedTimeline) (registry : Registry)
    (otherTimeline : ResolvedTimeline) (otherRegistry : Registry) : Prop :=
  Concur (fun graph otherGraph =>
      otherGraph.program = graph.program ∧
        (RenderCommand.ofGraph otherGraph otherRegistry flags output).arguments =
          ((RenderCommand.ofGraph graph registry flags output).renameInputs files rename).arguments)
    (FilterGraph.compile timeline registry flags)
    (FilterGraph.compile otherTimeline otherRegistry flags)

theorem sameProgram_of_matches {output : Path} (renames : Renaming names files rename)
    {timeline otherTimeline : ResolvedTimeline} {registry otherRegistry : Registry}
    (matched : Timeline.SegmentsTurn names files rename timeline.segments otherTimeline.segments)
    (registries : registry.Matches (Turns names files rename) otherRegistry)
    (settled : ∀ path ∈ registry.paths,
      '#' ∉ path.toList ∨ ∃ number, path = names.path .frame number) (flags : RenderFlags) :
    SameProgram files rename flags output timeline registry otherTimeline otherRegistry := by
  have hentries := renames.entries_eq_of_matches registries settled
  refine (concur_compile renames.biUnique registries matched flags).imp ?_
  rintro graph _ rfl
  refine ⟨rfl, ?_⟩
  apply congrArg RenderCommand.arguments
  rw [RenderCommand.ofGraph, hentries]
  rfl

theorem numbers_of_segmentsTurn {segments others : List Segment}
    (matched : Timeline.SegmentsTurn names files rename segments others) :
    others.map Segment.number = segments.map Segment.number :=
  (map_eq_of_forall₂ matched fun _ _ same => same.number.symm).symm

/-- Resolution, the making of images and compilation each succeed for the files under their new
names exactly when they do for the files under their old ones. The segments have the same numbers,
the filter program is the same text, and the arguments of the renderer differ only in the names of
the files of the user. -/
theorem same_program {World : σ → τ → Prop} {probe : Probe σ} {other : Probe τ}
    {defaults : Defaults} {specs : List InputSpec} {output : Path}
    (renames : Renaming (.ofOutput output) (userFiles defaults specs) rename)
    (known : probe.Renamed (userFiles defaults specs) rename World other)
    {materializer : Materializer σ} {otherMaterializer : Materializer τ}
    (obliging : materializer.Obliging) (otherObliging : otherMaterializer.Obliging)
    {run : Run σ} {otherRun : Run τ} (fresh : run.draft = .empty)
    (otherFresh : otherRun.draft = .empty) (worlds : World run.world otherRun.world)
    (size otherSize : FrameSize) (flags : RenderFlags) :
    Alongside (fun timeline drafted otherTimeline otherDrafted =>
        otherTimeline.segments.map Segment.number = timeline.segments.map Segment.number ∧
        ∀ (sized : Run σ) (otherSized : Run τ), sized.draft = drafted.draft →
          otherSized.draft = otherDrafted.draft →
          Alongside (fun resolved later otherResolved otherLater =>
              otherResolved.segments.map Segment.number = resolved.segments.map Segment.number ∧
              SameProgram (userFiles defaults specs) rename flags output resolved
                later.draft.registry otherResolved otherLater.draft.registry)
            (timeline.materialize (.ofOutput output) size materializer sized)
            (otherTimeline.materialize (.ofOutput output) otherSize otherMaterializer otherSized))
      (Timeline.resolve defaults probe specs run)
      (Timeline.resolve (defaults.rename rename) other (specs.map (InputSpec.rename rename))
        otherRun) := by
  -- Both drafts begin empty, and each stage hands matching drafts to the next one.
  have hdrafts : Draft.Matches (Turns (.ofOutput output) (userFiles defaults specs) rename)
      run.draft otherRun.draft := by
    rw [fresh, otherFresh]
    exact ⟨Registry.matches_empty, rfl⟩
  apply (Timeline.lockstep_resolve renames known specs (fun _ h => h) run otherRun
    ⟨hdrafts, worlds⟩).imp
  rintro timeline drafted otherTimeline otherDrafted hresolve - ⟨hsegments, hdrafted, -⟩
  refine ⟨numbers_of_segmentsTurn hsegments, ?_⟩
  intro sized otherSized hsized hotherSized
  rw [← hsized, ← hotherSized] at hdrafted
  apply (Timeline.lockstep_materialize renames.biUnique turns_image obliging otherObliging
    hsegments sized otherSized ⟨hdrafted, trivial⟩).imp
  rintro resolved later otherResolved otherLater hmaterialize - ⟨hresolved, hlater, -⟩
  refine ⟨numbers_of_segmentsTurn hresolved, ?_⟩
  apply renames.sameProgram_of_matches hresolved hlater.registry
  have hunmarked : Timeline.Unmarked defaults specs := by
    intro spec hspec file hfile
    exact (renames.before file (Timeline.mem_userFiles_of_sourceOf? hspec hfile)).unmarked
  exact Timeline.settled_of_materialize fresh hunmarked hresolve hsized hmaterialize

/-! ## Exchanged names -/

/-- A probe that knows the lengths of some files. -/
def lengthsProbe (lengths : List (String × Timecode)) : Probe Unit where
  present path _ := (lengths.lookup path).isSome
  duration path := pure ((lengths.lookup path).getD .zero)
  videoSize _ := pure none

/-- A film for as long as a recording lasts, its last frame, a page of slides, and the recording,
which is the default. -/
def review : List InputSpec := [
  ⟨.video, some (.file "film.mov"), none, [.timestamp .zero, .durationOf "voice.wav"]⟩,
  ⟨.frame, some .previousSegment, some .last, [.timestamp .zero, .timestamp ⟨0, 0, 3, 0⟩]⟩,
  ⟨.frame, some (.file "slides.pdf"), some (.index 6),
    [.timestamp .zero, .timestamp ⟨0, 0, 4, 0⟩]⟩,
  ⟨.audio, none, none, []⟩]

/-- The defaults of the review. -/
def reviewDefaults : Defaults :=
  { (default : Defaults) with audio := ⟨some "voice.wav", none⟩ }

/-- The film and the recording exchange their names, and the slides get another one. -/
def exchange (file : String) : String :=
  if file = "film.mov" then "voice.wav" else if file = "voice.wav" then "film.mov" else "talk.TIFF"

/-- No image beside this output is called like one of these files. -/
theorem spares_review : ∀ file ∈ ["voice.wav", "film.mov", "slides.pdf", "talk.TIFF"],
    (ArtifactNames.ofOutput "review.mov").Spares file := by
  have hbegins : ∀ number,
      ((ArtifactNames.ofOutput "review.mov").path .frame number).toList.take 5 =
        "temp_".toList := by
    intro number
    have hnames : ArtifactNames.ofOutput "review.mov" = ⟨"", "review"⟩ := by decide +kernel
    have hpath : (⟨"", "review"⟩ : ArtifactNames).path .frame number =
        (⟨"", "review"⟩ : ArtifactNames).fileName .frame number := by
      simp [ArtifactNames.path, Path.join]
    rw [hnames, hpath, ArtifactNames.toList_fileName, List.append_assoc]
    exact List.take_left' rfl
  have hother : ∀ file ∈ ["voice.wav", "film.mov", "slides.pdf", "talk.TIFF"],
      '#' ∉ file.toList ∧ file.toList.take 5 ≠ "temp_".toList := by
    decide
  intro file hfile
  obtain ⟨hunmarked, hdiffers⟩ := hother file hfile
  refine ⟨hunmarked, ?_⟩
  intro number heq
  rw [heq, hbegins] at hdiffers
  exact hdiffers rfl

theorem exchange_review :
    Renaming (.ofOutput "review.mov") (userFiles reviewDefaults review) exchange := by
  have hfiles : userFiles reviewDefaults review =
      ["voice.wav", "film.mov", "voice.wav", "slides.pdf"] := by
    decide +kernel
  rw [hfiles]
  refine ⟨by decide, by decide +kernel, ?_, ?_⟩
  · intro file hfile
    apply spares_review
    revert file
    decide
  · intro file hfile
    apply spares_review
    revert file
    decide

/-- Where a film and a recording exchange their names, and the slides get a new one, the program of
the review stays what it was. -/
theorem same_program_exchange :
    let lengths := [("film.mov", Timecode.ofSeconds 10), ("voice.wav", Timecode.ofSeconds 4)]
    let exchanged := [("voice.wav", Timecode.ofSeconds 10), ("film.mov", Timecode.ofSeconds 4)]
    Renaming (.ofOutput "review.mov") (userFiles reviewDefaults review) exchange ∧
      (lengthsProbe lengths).Renamed (userFiles reviewDefaults review) exchange (fun _ _ => True)
        (lengthsProbe exchanged) ∧
      (Materializer.idle : Materializer Unit).Obliging ∧
      ∃ timeline drafted otherTimeline otherDrafted resolved later otherResolved otherLater,
        Timeline.resolve reviewDefaults (lengthsProbe lengths) review (.start ()) =
            .ok timeline drafted ∧
          Timeline.resolve (reviewDefaults.rename exchange) (lengthsProbe exchanged)
            (review.map (InputSpec.rename exchange)) (.start ()) =
              .ok otherTimeline otherDrafted ∧
          timeline.materialize (.ofOutput "review.mov") .standard .idle drafted =
            .ok resolved later ∧
          otherTimeline.materialize (.ofOutput "review.mov") .standard .idle otherDrafted =
            .ok otherResolved otherLater ∧
          otherResolved.segments.map Segment.number = resolved.segments.map Segment.number ∧
          SameProgram (userFiles reviewDefaults review) exchange .standard "review.mov" resolved
            later.draft.registry otherResolved otherLater.draft.registry := by
  intro lengths exchanged
  have hknown : (lengthsProbe lengths).Renamed (userFiles reviewDefaults review) exchange
      (fun _ _ => True) (lengthsProbe exchanged) := by
    have hpresent : ∀ file ∈ userFiles reviewDefaults review,
        (exchanged.lookup (exchange file)).isSome = (lengths.lookup file).isSome := by
      decide +kernel
    have hlengths : ∀ file ∈ userFiles reviewDefaults review,
        (lengths.lookup file).getD .zero = (exchanged.lookup (exchange file)).getD .zero := by
      decide +kernel
    constructor
    · intro file hfile _ _ _
      exact hpresent file hfile
    · intro file hfile
      exact lockstep_pure (hlengths file hfile)
  have hobliging : (Materializer.idle : Materializer Unit).Obliging :=
    Materializer.obliging_idle
  have hmade : (Timeline.resolve reviewDefaults (lengthsProbe lengths) review >>= fun timeline =>
      timeline.materialize (.ofOutput "review.mov") .standard .idle).succeeds (.start ()) =
        true := by
    decide +kernel
  obtain ⟨resolved, later, hboth⟩ := Action.exists_eq_ok hmade
  obtain ⟨timeline, drafted, hresolve, hmaterialize⟩ := Action.bind_eq_ok hboth
  have hfresh : (Run.start ()).draft = .empty := rfl
  have halongside := same_program exchange_review hknown hobliging hobliging hfresh hfresh trivial
    .standard .standard .standard
  -- The stages succeed for the old names, so they do for the new ones.
  rcases halongside.cases with
    ⟨_, _, otherTimeline, otherDrafted, hsame, hother, -, hnext⟩ | ⟨_, _, _, _, hfailed, -⟩
  · rw [hresolve] at hsame
    cases hsame
    rcases (hnext drafted otherDrafted rfl rfl).cases with
      ⟨_, _, otherResolved, otherLater, hsame, hotherMade, hnumbers, hprogram⟩ |
        ⟨_, _, _, _, hfailed, -⟩
    · rw [hmaterialize] at hsame
      cases hsame
      exact ⟨exchange_review, hknown, hobliging, timeline, drafted, otherTimeline, otherDrafted,
        resolved, later, otherResolved, otherLater, hresolve, hother, hmaterialize, hotherMade,
        hnumbers, hprogram⟩
    · rw [hmaterialize] at hfailed
      cases hfailed
  · rw [hresolve] at hfailed
    cases hfailed

end Renaming

end EpisodeCut
