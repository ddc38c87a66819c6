import EpisodeCut.Proofs.FilterGraph.Compiled
import EpisodeCut.Proofs.Frame.Images
import EpisodeCut.Proofs.Registry.Options
import EpisodeCut.RenderCommand
import Mathlib.Data.List.Induction
import Mathlib.Data.List.Nodup

/-!
# Still images and the files they share

The options of an input belong to its file, and all that ever gives a file options is a segment that
shows the file as a still image; of several such segments the last one counts (`loopOptions`). An
audio or video segment therefore reads its file without options, unless a segment of the same
timeline shows that very file as a still image (`Timeline.opens_of_resolve`). Images of other
frames never matter, also when the timeline is rendered.
-/

set_option autoImplicit false

namespace EpisodeCut

/-! ## Options of files -/

/-- Whether a segment shows a file as a still image. -/
def Segment.showsStill (segment : Segment) (file : String) : Bool :=
  match segment.body with
  | .frame _ (.resolved _) => segment.input == file
  | _ => false

theorem Segment.input_eq_of_showsStill {segment : Segment} {file : String}
    (h : segment.showsStill file = true) : segment.input = file := by
  unfold showsStill at h
  split at h
  · exact beq_iff_eq.1 h
  · cases h

/-- The last of the segments that shows a file as a still image. -/
def lastStill? (segments : List Segment) (file : String) : Option Segment :=
  (segments.filter (·.showsStill file)).getLast?

theorem lastStill?_concat (segments : List Segment) (segment : Segment) (file : String) :
    lastStill? (segments ++ [segment]) file =
      if segment.showsStill file then some segment else lastStill? segments file := by
  by_cases hstill : segment.showsStill file = true
  · have hlast : [segment].filter (·.showsStill file) = [segment] := by simp [hstill]
    rw [lastStill?, List.filter_append, hlast, List.getLast?_concat, if_pos hstill]
  · have hlast : [segment].filter (·.showsStill file) = [] := by simp [hstill]
    rw [lastStill?, List.filter_append, hlast, List.append_nil, if_neg hstill, lastStill?]

theorem mem_of_lastStill? {segments : List Segment} {file : String} {segment : Segment}
    (h : lastStill? segments file = some segment) :
    segment ∈ segments ∧ segment.showsStill file = true :=
  List.mem_filter.1 (List.mem_of_getLast? h)

theorem exists_lastStill? {segments : List Segment} {file : String} {segment : Segment}
    (hsegment : segment ∈ segments) (shows : segment.showsStill file = true) :
    ∃ last, lastStill? segments file = some last := by
  cases hlast : lastStill? segments file with
  | some last => exact ⟨last, rfl⟩
  | none =>
    have hmem : segment ∈ segments.filter (·.showsStill file) :=
      List.mem_filter.2 ⟨hsegment, shows⟩
    rw [List.getLast?_eq_none_iff.1 hlast] at hmem
    cases hmem

/-- The options that a file has among the inputs of `segments`: those of the last segment that shows
it as a still image, and none if there is no such segment. -/
def loopOptions (segments : List Segment) (file : String) : List String :=
  match (segments.filter (·.showsStill file)).getLast? with
  | some segment => stillOptions segment.duration
  | none => []

theorem loopOptions_of_lastStill? {segments : List Segment} {file : String} {segment : Segment}
    (h : lastStill? segments file = some segment) :
    loopOptions segments file = stillOptions segment.duration := by
  rw [lastStill?] at h
  rw [loopOptions, h]

theorem loopOptions_of_no_still {segments : List Segment} {file : String}
    (h : lastStill? segments file = none) : loopOptions segments file = [] := by
  rw [lastStill?] at h
  rw [loopOptions, h]

theorem loopOptions_eq_nil {segments : List Segment} {file : String}
    (h : ∀ segment ∈ segments, segment.showsStill file = false) : loopOptions segments file = [] := by
  apply loopOptions_of_no_still
  cases hlast : lastStill? segments file with
  | none => rfl
  | some last =>
    obtain ⟨hmem, hshows⟩ := mem_of_lastStill? hlast
    rw [h last hmem] at hshows
    cases hshows

theorem loopOptions_concat (segments : List Segment) (segment : Segment) (file : String) :
    loopOptions (segments ++ [segment]) file =
      if segment.showsStill file then stillOptions segment.duration
      else loopOptions segments file := by
  have hlast := lastStill?_concat segments segment file
  split
  · next hstill =>
    rw [if_pos hstill] at hlast
    exact loopOptions_of_lastStill? hlast
  · next hstill =>
    rw [if_neg hstill, lastStill?, lastStill?] at hlast
    rw [loopOptions, hlast, loopOptions]

namespace Draft

/-- Making a segment gives no file options but its own input, and that one only as a still image. -/
theorem optionsOf?_withSegment (draft : Draft) (segment : Segment) (file : String) :
    (draft.withSegment segment).registry.optionsOf? file =
      if file = segment.input then
        some (if segment.showsStill file then stillOptions segment.duration
          else (draft.registry.optionsOf? file).getD [])
      else draft.registry.optionsOf? file := by
  obtain ⟨number, punchIn, punchOut, input, body⟩ := segment
  have hregister : (draft.registry.register input).optionsOf? file =
      if file = input then some ((draft.registry.optionsOf? file).getD [])
      else draft.registry.optionsOf? file := Registry.optionsOf?_register _ _ _
  cases body with
  | audio stream => exact hregister
  | video stream => exact hregister
  | frame frame state =>
    cases state with
    | pending source => exact hregister
    | materializing source => exact hregister
    | resolved image =>
      refine (Registry.optionsOf?_registerWithOptions _ _ _ _).trans ?_
      by_cases hfile : file = input
      · subst hfile
        simp [Segment.showsStill, Segment.duration]
      · simp [hfile]

theorem optionsOf?_replay (made : List Segment) (file : String) :
    (empty.replay made).registry.optionsOf? file =
      if file ∈ made.map Segment.input then some (loopOptions made file) else none := by
  -- Induction from the end, where the last segment decides.
  induction made using List.reverseRecOn with
  | nil => rfl
  | append_singleton made segment ih =>
    rw [replay_append, replay_cons, replay_nil, optionsOf?_withSegment, ih, loopOptions_concat]
    by_cases hinput : file = segment.input
    · by_cases hmem : file ∈ made.map Segment.input
      · simp [hinput.symm, hmem]
      · have hnone : loopOptions made file = [] := by
          apply loopOptions_eq_nil
          intro other hother
          rw [Bool.eq_false_iff]
          intro hshows
          rw [← Segment.input_eq_of_showsStill hshows] at hmem
          exact hmem (List.mem_map_of_mem hother)
        simp [hinput.symm, hmem, hnone]
    · have hother : ¬segment.showsStill file = true := by
        intro hshows
        exact hinput (Segment.input_eq_of_showsStill hshows).symm
      simp [hinput, hother]

end Draft

/-! ## Inputs of the rendering command -/

/-- The command opens a file as one input only, and `options` are all that stands between the inputs
before it and the file. -/
def RenderCommand.Opens (command : RenderCommand) (file : String) (options : List String) : Prop :=
  ∃ before after, command.inputs = before ++ ⟨file, options⟩ :: after ∧
    (∀ entry ∈ before ++ after, entry.path ≠ file) ∧
    ∃ rest, command.arguments = ["-y", "-nostdin"] ++ before.flatMap inputArguments ++
      options ++ ["-i", file] ++ rest

theorem RenderCommand.opens_of_mem {graph : FilterGraph} {registry : Registry}
    {flags : RenderFlags} {output : Path} {file : String} {options : List String}
    (h : ⟨file, options⟩ ∈ registry.entries) :
    (ofGraph graph registry flags output).Opens file options := by
  obtain ⟨before, after, hentries⟩ := List.append_of_mem h
  refine ⟨before, after, hentries, ?_, ?_⟩
  · have hdistinct := registry.distinct
    rw [hentries, List.map_append, List.map_cons, List.nodup_middle, List.nodup_cons,
      ← List.map_append] at hdistinct
    intro entry hentry heq
    have hpath := List.mem_map_of_mem (f := InputEntry.path) hentry
    rw [heq] at hpath
    exact hdistinct.1 hpath
  · have hinputs : (ofGraph graph registry flags output).inputs.flatMap inputArguments =
        before.flatMap inputArguments ++ (options ++ ["-i", file] ++
          after.flatMap inputArguments) := by
      rw [ofGraph, hentries, List.flatMap_append, List.flatMap_cons]
      rfl
    rw [arguments, hinputs]
    simp only [List.append_assoc]
    exact ⟨_, rfl⟩

namespace Timeline

variable {σ : Type} {defaults : Defaults} {probe : Probe σ}

/-- An audio or video segment reads its file with the options of the last still image that the same
file is shown as, and without options if there is none; so does the command that renders the
timeline once all images exist. -/
theorem opens_of_resolve {specs : List InputSpec} {run drafted : Run σ} {timeline : Timeline}
    {segment : Segment} (fresh : run.draft = .empty)
    (h : resolve defaults probe specs run = .ok timeline drafted)
    (hsegment : segment ∈ timeline.segments) (stream : segment.kind ≠ .frame) :
    drafted.draft.registry.optionsOf? segment.input =
        some (loopOptions timeline.segments segment.input) ∧
      ((∀ other ∈ timeline.segments, other.showsStill segment.input = false) →
        loopOptions timeline.segments segment.input = []) ∧
      ∀ (names : ArtifactNames) (size : FrameSize) (materializer : Materializer σ)
        (sized later : Run σ) (resolved : ResolvedTimeline) (flags : RenderFlags)
        (graph : FilterGraph) (output : Path), sized.draft = drafted.draft →
        timeline.materialize names size materializer sized = .ok resolved later →
        FilterGraph.compile resolved later.draft.registry flags = .ok graph →
        (RenderCommand.ofGraph graph later.draft.registry flags output).Opens segment.input
          (loopOptions timeline.segments segment.input) := by
  obtain ⟨hmade, -⟩ := resolve_eq_ok h
  have hmem : segment.input ∈ timeline.segments.map Segment.input := List.mem_map_of_mem hsegment
  have hoptions : drafted.draft.registry.optionsOf? segment.input =
      some (loopOptions timeline.segments segment.input) := by
    rw [hmade.replayed, fresh, Draft.optionsOf?_replay, if_pos hmem]
  refine ⟨hoptions, loopOptions_eq_nil, ?_⟩
  intro names size materializer sized later resolved flags graph output hsized hmaterialize hcompile
  have hunmade := input_ne_path_of_resolve h names .frame
  obtain ⟨hsegments, -, himages⟩ := materialize_eq_ok hmaterialize
  have htakes := himages hunmade
  rw [hsized] at htakes
  -- The segment itself has not changed, and the command finds its input.
  have hregistered : segment.input ∈ later.draft.registry.paths := by
    apply (FilterGraph.compile_eq_ok_iff.1 hcompile).1 segment
    rw [hsegments]
    have hsame := List.mem_map_of_mem (f := (·.withImage names)) hsegment
    rwa [Segment.withImage_of_ready (Segment.isPending_eq_false stream)] at hsame
  obtain ⟨place, hplace⟩ :=
    Registry.exists_indexOf?_of_mem ((hmade.grows.paths segment.input).2 (Or.inr hmem))
  have hentry := htakes.kept (Registry.entries_of_optionsOf? hplace hoptions)
    (htakes.input_ne_of_mem hunmade hregistered)
  exact RenderCommand.opens_of_mem (List.mem_of_getElem? hentry)

/-! ## Films and images -/

/-- A probe that knows of no files. -/
def blindProbe : Probe Unit where
  present _ _ := false
  duration _ := pure .zero
  videoSize _ := pure none

/-- Five seconds of a film, its last frame, and a photograph for two seconds and then for four. -/
def tour : List InputSpec := [
  ⟨.video, some (.file "film.mov"), none, [.timestamp .zero, .timestamp ⟨0, 0, 5, 0⟩]⟩,
  ⟨.frame, some .previousSegment, some .last, [.timestamp .zero, .timestamp ⟨0, 0, 3, 0⟩]⟩,
  ⟨.frame, some (.file "photo.jpg"), none, [.timestamp .zero, .timestamp ⟨0, 0, 2, 0⟩,
    .timestamp .zero, .timestamp ⟨0, 0, 4, 0⟩]⟩]

/-- The timeline of the tour. -/
def tourTimeline : Timeline where
  segments := [
    ⟨0, .zero, .ofSeconds 5, "film.mov", .video 0⟩,
    ⟨1, .zero, .ofSeconds 3, placeholder "^" 1, .frame .last (.pending .previousSegment)⟩,
    ⟨2, .zero, .ofSeconds 2, "photo.jpg", .frame (.index 0) (.resolved "photo.jpg")⟩,
    ⟨3, .zero, .ofSeconds 4, "photo.jpg", .frame (.index 0) (.resolved "photo.jpg")⟩]

/-- The film of the tour is read without options, in the end also by the command. -/
theorem opens_tour : ∃ drafted resolved later graph,
    resolve default blindProbe tour (.start ()) = .ok tourTimeline drafted ∧
      drafted.draft.registry.optionsOf? "film.mov" = some [] ∧
      tourTimeline.materialize (.ofOutput "tour.mov") .standard .idle drafted = .ok resolved later ∧
      FilterGraph.compile resolved later.draft.registry .standard = .ok graph ∧
      (RenderCommand.ofGraph graph later.draft.registry .standard "tour.mov").Opens "film.mov" [] := by
  have hanswer : (resolve default blindProbe tour).answer (.start ()) = .ok tourTimeline := by
    decide +kernel
  have hresolve := Action.eq_ok_of_answer hanswer
  generalize hdrafted : (resolve default blindProbe tour).after (.start ()) = drafted at hresolve
  have hmade : ∃ resolved later, tourTimeline.materialize (.ofOutput "tour.mov") .standard .idle
      drafted = .ok resolved later := by
    apply Action.exists_eq_ok
    rw [← hdrafted]
    decide +kernel
  obtain ⟨resolved, later, hmaterialize⟩ := hmade
  have hcompile : FilterGraph.compile resolved later.draft.registry .standard =
      .ok (FilterGraph.compiled resolved later.draft.registry .standard) := by
    refine FilterGraph.compile_eq_ok_iff.2 ⟨?_, rfl⟩
    rw [(materialize_eq_ok hmaterialize).1, ← Action.after_of_ok hmaterialize, ← hdrafted]
    decide +kernel
  obtain ⟨hoptions, hnone, hopens⟩ := opens_of_resolve rfl hresolve List.mem_cons_self (by decide)
  rw [hnone (by decide)] at hoptions hopens
  exact ⟨drafted, resolved, later, _, hresolve, hoptions, hmaterialize, hcompile,
    hopens _ _ _ drafted later resolved .standard _ "tour.mov" rfl hmaterialize hcompile⟩

/-- Five seconds of a film, and then the film for three seconds as if it were an image. -/
def loopedFilm : List InputSpec := [
  ⟨.video, some (.file "film.mov"), none, [.timestamp .zero, .timestamp ⟨0, 0, 5, 0⟩]⟩,
  ⟨.frame, some (.file "film.mov"), none, [.timestamp .zero, .timestamp ⟨0, 0, 3, 0⟩]⟩]

/-- Where a film is also shown as an image, it is read with the options of the image when it is
played. -/
theorem options_loopedFilm : ∃ timeline drafted,
    resolve default blindProbe loopedFilm (.start ()) = .ok timeline drafted ∧
      ∃ segment ∈ timeline.segments, segment.kind = .video ∧
        drafted.draft.registry.optionsOf? segment.input = some ["-loop", "1", "-t", "3"] := by
  have hanswer : (resolve default blindProbe loopedFilm).answer (.start ()) = .ok ⟨[
      ⟨0, .zero, .ofSeconds 5, "film.mov", .video 0⟩,
      ⟨1, .zero, .ofSeconds 3, "film.mov", .frame (.index 0) (.resolved "film.mov")⟩]⟩ := by
    decide +kernel
  refine ⟨_, _, Action.eq_ok_of_answer hanswer, _, List.mem_cons_self, rfl, ?_⟩
  decide +kernel

end Timeline

end EpisodeCut
