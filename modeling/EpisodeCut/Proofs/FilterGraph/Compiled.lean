import EpisodeCut.FilterGraph.Compile
import EpisodeCut.Proofs.Registry.Index

/-!
# The compiled filter graph

What compilation makes of a timeline, in closed form (`FilterGraph.compiled`): the trims of all
segments in playing order, then for each track one join of the pads on which its segments are found.
Compilation succeeds exactly when the inputs of all segments are registered, and its result is that
graph (`compile_eq_ok_iff`).
-/

set_option autoImplicit false

namespace EpisodeCut

namespace Segment

/-- The input stream that a segment plays. A still image is stream zero of its file. -/
def sourcePad (registry : Registry) (segment : Segment) : Pad :=
  .input ((registry.indexOf? segment.input).getD 0) segment.kind.track (segment.stream?.getD 0)

/-- The pad from which a segment is joined: its trimmed stream, or the image as it is. -/
def joinedPad (registry : Registry) (segment : Segment) : Pad :=
  if segment.kind = .frame then segment.sourcePad registry
  else .segment segment.kind.track segment.number

/-- The filters that trim a segment: none for a frame, one for any other segment. -/
def trims (registry : Registry) (segment : Segment) : List Filter :=
  if segment.kind = .frame then []
  else [.trim segment.kind.track (segment.sourcePad registry) segment.punchIn segment.duration
    (.segment segment.kind.track segment.number)]

/-- A resolved segment has an input stream exactly when its input is registered. -/
theorem inputPad_eq_ok_iff {registry : Registry} {segment : Segment} {pad : Pad}
    (resolved : segment.isResolved = true) :
    segment.inputPad registry = .ok pad ↔
      segment.input ∈ registry.paths ∧ pad = segment.sourcePad registry := by
  cases hindex : registry.indexOf? segment.input with
  | none =>
    have habsent := Registry.indexOf?_eq_none_iff.1 hindex
    simp [inputPad, inputIndex, hindex, habsent]
  | some index =>
    have hmem := Registry.mem_paths_of_indexOf? hindex
    have hpad : segment.inputPad registry = .ok (segment.sourcePad registry) := by
      obtain ⟨number, punchIn, punchOut, input, body⟩ := segment
      cases body with
      | audio stream => simp_all [inputPad, inputIndex, sourcePad, kind, stream?, SegmentBody.kind,
          MediaKind.track]
      | video stream => simp_all [inputPad, inputIndex, sourcePad, kind, stream?, SegmentBody.kind,
          MediaKind.track]
      | frame number state =>
        cases state with
        | resolved image => simp_all [inputPad, inputIndex, sourcePad, kind, stream?,
            SegmentBody.kind, MediaKind.track]
        | pending source => cases resolved
        | materializing source => cases resolved
    rw [hpad]
    simp [hmem, eq_comm]

theorem outputPad_eq (registry : Registry) (segment : Segment) :
    segment.outputPad registry =
      if segment.kind = .frame then segment.inputPad registry
      else .ok (.segment segment.kind.track segment.number) := by
  obtain ⟨number, punchIn, punchOut, input, body⟩ := segment
  cases body <;> rfl

theorem trimFilter?_eq (registry : Registry) (segment : Segment) :
    segment.trimFilter? registry =
      if segment.kind = .frame then .ok none
      else (segment.inputPad registry).map fun source =>
        some (.trim segment.kind.track source segment.punchIn segment.duration
          (.segment segment.kind.track segment.number)) := by
  obtain ⟨number, punchIn, punchOut, input, body⟩ := segment
  cases body <;> rfl

theorem outputPad_eq_ok_iff {registry : Registry} {segment : Segment} {pad : Pad}
    (resolved : segment.isResolved = true) :
    segment.outputPad registry = .ok pad ↔
      (segment.kind = .frame → segment.input ∈ registry.paths) ∧
        pad = segment.joinedPad registry := by
  rw [outputPad_eq, joinedPad]
  split
  · next hkind =>
    rw [inputPad_eq_ok_iff resolved]
    simp [hkind]
  · next hkind => simp [hkind, eq_comm]

theorem toList_head?_trims (registry : Registry) (segment : Segment) :
    (segment.trims registry).head?.toList = segment.trims registry := by
  unfold trims
  split <;> rfl

theorem trimFilter?_eq_ok_iff {registry : Registry} {segment : Segment} {filter : Option Filter}
    (resolved : segment.isResolved = true) :
    segment.trimFilter? registry = .ok filter ↔
      (segment.kind ≠ .frame → segment.input ∈ registry.paths) ∧
        filter.toList = segment.trims registry := by
  rw [trimFilter?_eq, trims]
  split
  · next hkind => cases filter <;> simp [hkind]
  · next hkind =>
    cases hpad : segment.inputPad registry with
    | error failure =>
      have habsent : segment.input ∉ registry.paths := by
        intro hmem
        have hok : segment.inputPad registry = .ok (segment.sourcePad registry) :=
          (inputPad_eq_ok_iff resolved).2 ⟨hmem, rfl⟩
        rw [hpad] at hok
        cases hok
      simp [Except.map, hkind, habsent]
    | ok pad =>
      obtain ⟨hmem, rfl⟩ := (inputPad_eq_ok_iff resolved).1 hpad
      cases filter <;> simp [Except.map, hkind, hmem, eq_comm]

end Segment

/-- What a computation in two steps succeeds with. -/
theorem bind_eq_ok {ε α β : Type} {x : Except ε α} {f : α → Except ε β} {b : β}
    (h : x >>= f = .ok b) : ∃ a, x = .ok a ∧ f a = .ok b := by
  cases x with
  | error e => cases h
  | ok a => exact ⟨a, rfl, h⟩

namespace FilterGraph

/-- The filters that join a track: none if nothing is played on it. -/
def joins (registry : Registry) (track : Track) (timeline : ResolvedTimeline) : List Filter :=
  if timeline.onTrack track = [] then []
  else [.join track ((timeline.onTrack track).map (·.joinedPad registry))]

/-- The filters that normalise the joined audio, if there is any and it is wanted. -/
def normalises (flags : RenderFlags) (timeline : ResolvedTimeline) : List Filter :=
  if flags.normalise ∧ timeline.onTrack .audio ≠ [] then [.normalise] else []

/-- The filter graph of a timeline whose inputs are all registered. -/
def compiled (timeline : ResolvedTimeline) (registry : Registry) (flags : RenderFlags) :
    FilterGraph :=
  ⟨timeline.segments.flatMap (·.trims registry) ++ joins registry .audio timeline ++
    normalises flags timeline ++ joins registry .video timeline⟩

theorem trims_eq_ok_iff {registry : Registry} {graph result : FilterGraph}
    {segments : List Segment} (resolved : ∀ segment ∈ segments, segment.isResolved = true) :
    graph.trims registry segments = (result, .ok ()) ↔
      (∀ segment ∈ segments, segment.kind ≠ .frame → segment.input ∈ registry.paths) ∧
        result = ⟨graph.filters ++ segments.flatMap (·.trims registry)⟩ := by
  induction segments generalizing graph with
  | nil =>
    cases graph
    simp [trims, eq_comm]
  | cons segment rest ih =>
    have hhead := resolved segment List.mem_cons_self
    have hrest : ∀ other ∈ rest, other.isResolved = true :=
      fun other hother => resolved other (List.mem_cons_of_mem segment hother)
    rw [List.forall_mem_cons, List.flatMap_cons, trims]
    cases hfilter : segment.trimFilter? registry with
    | error failure =>
      -- The walk stops at this segment, whose input is then not registered.
      have hnot : ¬(segment.kind ≠ .frame → segment.input ∈ registry.paths) := by
        intro hregistered
        have hok : segment.trimFilter? registry = .ok (segment.trims registry).head? :=
          (Segment.trimFilter?_eq_ok_iff hhead).2
            ⟨hregistered, segment.toList_head?_trims registry⟩
        rw [hfilter] at hok
        cases hok
      simp only [hnot, false_and, Prod.mk.injEq, reduceCtorEq, and_false]
    | ok filter =>
      obtain ⟨hregistered, htrims⟩ := (Segment.trimFilter?_eq_ok_iff hhead).1 hfilter
      rw [← htrims]
      cases filter with
      | none =>
        rw [ih hrest, Option.toList_none, List.nil_append, and_iff_right hregistered]
      | some filter =>
        rw [ih hrest, Option.toList_some, and_iff_right hregistered, push, List.append_assoc]

theorem mapM_outputPad_eq_ok_iff {registry : Registry} {segments : List Segment}
    {pads : List Pad} (resolved : ∀ segment ∈ segments, segment.isResolved = true) :
    segments.mapM (fun segment => segment.outputPad registry) = .ok pads ↔
      (∀ segment ∈ segments, segment.kind = .frame → segment.input ∈ registry.paths) ∧
        pads = segments.map (·.joinedPad registry) := by
  induction segments generalizing pads with
  | nil => simp [pure, Except.pure, eq_comm]
  | cons segment rest ih =>
    have hhead := resolved segment List.mem_cons_self
    have hrest : ∀ other ∈ rest, other.isResolved = true :=
      fun other hother => resolved other (List.mem_cons_of_mem segment hother)
    rw [List.mapM_cons, List.forall_mem_cons, List.map_cons]
    constructor
    · intro h
      -- Both the first pad and those of the rest exist, or else there is no list of pads.
      cases hpad : segment.outputPad registry with
      | error failure =>
        rw [hpad] at h
        cases h
      | ok pad =>
        cases hpads : rest.mapM (fun segment => segment.outputPad registry) with
        | error failure =>
          rw [hpad, hpads] at h
          cases h
        | ok others =>
          rw [hpad, hpads] at h
          cases h
          obtain ⟨hregistered, rfl⟩ := (Segment.outputPad_eq_ok_iff hhead).1 hpad
          obtain ⟨hothers, rfl⟩ := (ih hrest).1 hpads
          exact ⟨⟨hregistered, hothers⟩, rfl⟩
    · rintro ⟨⟨hregistered, hothers⟩, rfl⟩
      rw [(Segment.outputPad_eq_ok_iff hhead).2 ⟨hregistered, rfl⟩, (ih hrest).2 ⟨hothers, rfl⟩]
      rfl

theorem join_eq_ok_iff {registry : Registry} {graph result : FilterGraph} {track : Track}
    {timeline : ResolvedTimeline} :
    graph.join registry track (timeline.onTrack track) = .ok result ↔
      (∀ segment ∈ timeline.onTrack track, segment.kind = .frame →
        segment.input ∈ registry.paths) ∧
        result = ⟨graph.filters ++ joins registry track timeline⟩ := by
  have hresolved : ∀ segment ∈ timeline.onTrack track, segment.isResolved = true :=
    fun segment h => timeline.resolved segment ((List.mem_filter.1 h).1)
  have hresult : ∀ pads : List Pad, pads = (timeline.onTrack track).map (·.joinedPad registry) →
      (if pads.isEmpty then graph else graph.push (.join track pads)) =
        ⟨graph.filters ++ joins registry track timeline⟩ := by
    rintro pads rfl
    rw [joins]
    cases timeline.onTrack track with
    | nil => simp
    | cons segment rest => simp [push]
  unfold join
  cases hpads : (timeline.onTrack track).mapM fun segment => segment.outputPad registry with
  | error failure =>
    have hnot : ¬∀ segment ∈ timeline.onTrack track, segment.kind = .frame →
        segment.input ∈ registry.paths := by
      intro hregistered
      have hok := (mapM_outputPad_eq_ok_iff hresolved).2 ⟨hregistered, rfl⟩
      rw [hpads] at hok
      cases hok
    simp [bind, Except.bind, hnot]
  | ok pads =>
    obtain ⟨hregistered, hmap⟩ := (mapM_outputPad_eq_ok_iff hresolved).1 hpads
    simp only [bind, Except.bind, pure, Except.pure, hresult pads hmap, Except.ok.injEq]
    rw [and_iff_right hregistered, eq_comm]

theorem any_joins_trims (registry : Registry) (track : Track) (segments : List Segment) :
    (segments.flatMap (·.trims registry)).any (·.joins track) = false := by
  rw [List.any_eq_false]
  intro filter hfilter
  obtain ⟨segment, -, hmem⟩ := List.mem_flatMap.1 hfilter
  unfold Segment.trims at hmem
  split at hmem
  · cases hmem
  · rw [List.mem_singleton.1 hmem]
    exact Bool.false_ne_true

theorem any_joins_joins (registry : Registry) (track joined : Track)
    (timeline : ResolvedTimeline) :
    (joins registry joined timeline).any (·.joins track) =
      (joined = track && !(timeline.onTrack joined).isEmpty) := by
  unfold joins
  split
  · next hempty => simp [hempty]
  · next hne => simp [Filter.joins, hne]

theorem any_joins_normalises (flags : RenderFlags) (track : Track) (timeline : ResolvedTimeline) :
    (normalises flags timeline).any (·.joins track) = false := by
  unfold normalises
  split <;> rfl

/-- A track is joined exactly when something is played on it. -/
theorem hasTrack_compiled (timeline : ResolvedTimeline) (registry : Registry)
    (flags : RenderFlags) (track : Track) :
    (compiled timeline registry flags).hasTrack track = !(timeline.onTrack track).isEmpty := by
  simp only [hasTrack, compiled, List.any_append, any_joins_trims, any_joins_joins,
    any_joins_normalises]
  cases track <;> simp

theorem pushNormalise_eq (timeline : ResolvedTimeline) (registry : Registry)
    (flags : RenderFlags) :
    (if flags.normalise then
        (FilterGraph.mk (timeline.segments.flatMap (·.trims registry) ++
          joins registry .audio timeline)).pushNormalise
      else ⟨timeline.segments.flatMap (·.trims registry) ++ joins registry .audio timeline⟩) =
      ⟨timeline.segments.flatMap (·.trims registry) ++ joins registry .audio timeline ++
        normalises flags timeline⟩ := by
  have htrack : (FilterGraph.mk (timeline.segments.flatMap (·.trims registry) ++
      joins registry .audio timeline)).hasTrack .audio = !(timeline.onTrack .audio).isEmpty := by
    rw [hasTrack, List.any_append, any_joins_trims, any_joins_joins]
    simp
  rw [pushNormalise, htrack, normalises]
  by_cases hflag : flags.normalise = true
  · cases timeline.onTrack .audio <;> simp [hflag, push]
  · simp [hflag]

/-- Compilation succeeds exactly when all inputs are registered, with the graph in closed form. -/
theorem compile_eq_ok_iff {timeline : ResolvedTimeline} {registry : Registry}
    {flags : RenderFlags} {graph : FilterGraph} :
    compile timeline registry flags = .ok graph ↔
      (∀ segment ∈ timeline.segments, segment.input ∈ registry.paths) ∧
        graph = compiled timeline registry flags := by
  constructor
  · intro h
    rcases htrims : FilterGraph.empty.trims registry timeline.segments with ⟨trimmed, outcome⟩
    simp only [compile, htrims] at h
    cases outcome with
    | error failure => cases h
    | ok done =>
      obtain ⟨hcuts, rfl⟩ := (trims_eq_ok_iff timeline.resolved).1 htrims
      obtain ⟨-, -, h⟩ := bind_eq_ok h
      obtain ⟨audio, haudio, h⟩ := bind_eq_ok h
      obtain ⟨-, rfl⟩ := join_eq_ok_iff.1 haudio
      rw [empty, List.nil_append, pushNormalise_eq] at h
      obtain ⟨hstills, rfl⟩ := join_eq_ok_iff.1 h
      -- Frames are looked up when they are joined, all other segments when they are trimmed.
      refine ⟨fun segment hsegment => ?_, rfl⟩
      by_cases hkind : segment.kind = .frame
      · apply hstills segment _ hkind
        rw [ResolvedTimeline.onTrack, List.mem_filter]
        exact ⟨hsegment, by simp [hkind, MediaKind.track]⟩
      · exact hcuts segment hsegment hkind
  · rintro ⟨hregistered, rfl⟩
    have htrims : FilterGraph.empty.trims registry timeline.segments =
        (⟨FilterGraph.empty.filters ++ timeline.segments.flatMap (·.trims registry)⟩, .ok ()) :=
      (trims_eq_ok_iff timeline.resolved).2
        ⟨fun segment hsegment _ => hregistered segment hsegment, rfl⟩
    have hjoin : ∀ (graph : FilterGraph) (track : Track),
        graph.join registry track (timeline.onTrack track) =
          .ok ⟨graph.filters ++ joins registry track timeline⟩ := fun graph track =>
      join_eq_ok_iff.2 ⟨fun segment h _ => hregistered segment (List.mem_filter.1 h).1, rfl⟩
    simp only [compile, htrims, hjoin, bind, Except.bind]
    rw [empty, List.nil_append, pushNormalise_eq]
    rfl

end FilterGraph

/-! ## An episode with all kinds of segments -/

/-- Two slices of a recording, over a film and a title page. -/
def interview : ResolvedTimeline where
  segments :=
    [⟨1, ⟨0⟩, ⟨1500⟩, "talk.wav", .audio 0⟩, ⟨2, ⟨250⟩, ⟨2000⟩, "talk.mov", .video 1⟩,
      ⟨3, .zero, ⟨2000⟩, "title.jpg", .frame (.index 0) (.resolved "title.jpg")⟩,
      ⟨4, ⟨3000⟩, ⟨4000⟩, "talk.wav", .audio 0⟩]
  resolved := by decide

/-- The files of the interview. The title page is shown for two seconds. -/
def interviewFiles : Registry :=
  ((Registry.empty.register "talk.wav").register "talk.mov").registerWithOptions "title.jpg"
    ["-loop", "1", "-t", "2"]

theorem compile_interview (flags : RenderFlags) :
    FilterGraph.compile interview interviewFiles flags =
      .ok (FilterGraph.compiled interview interviewFiles flags) :=
  FilterGraph.compile_eq_ok_iff.2 ⟨by decide, rfl⟩

end EpisodeCut
