import EpisodeCut.Proofs.FilterGraph.Meaning

/-!
# Compilation preserves meaning

The signals of the rendering command are the episode that the timeline describes: on each track the
clips of its segments after one another, in playing order (`RenderCommand.signals?_of_compile`).
What a run has written is known after every filter: after the trims, the clips of all trimmed
segments (`foldlM_trims`), and after the joins the tracks (`foldlM_joins`).
-/

set_option autoImplicit false

namespace EpisodeCut

open Text Program

/-! ## What a timeline describes -/

/-- The entry of a registered file. -/
def Registry.entryOf (registry : Registry) (path : String) : InputEntry :=
  ⟨path, (registry.optionsOf? path).getD []⟩

namespace Media

variable {α : Type} (media : Media α) (registry : Registry)

/-- What a segment plays: the slice of its stream between its two points, or its still image. -/
def clip (segment : Segment) : List α :=
  let start := segment.punchIn.inSeconds
  let duration := segment.punchOut.inSeconds - segment.punchIn.inSeconds
  let entry := registry.entryOf segment.input
  match segment.body with
  | .audio stream => media.slice start duration (media.stream entry .audio stream.toNat)
  | .video stream => media.slice start duration (media.stream entry .video stream.toNat)
  | .frame .. => media.stream entry .video 0

/-- The signals of an episode: the audio segments after one another, and the video segments and
frames after one another, where there are any. -/
def episode (flags : RenderFlags) (timeline : ResolvedTimeline) : List (Signal α) :=
  let audio := timeline.segments.filter fun segment => segment.kind = .audio
  let pictures := timeline.segments.filter fun segment =>
    segment.kind = .video ∨ segment.kind = .frame
  let loudness : List α → List α := if flags.normalise then media.normalise else id
  (if audio = [] then [] else [(.audio, loudness (audio.flatMap (media.clip registry)))]) ++
    (if pictures = [] then [] else [(.video, pictures.flatMap (media.clip registry))])

/-- The stream that a segment plays. -/
def source (segment : Segment) : List α :=
  media.stream (registry.entryOf segment.input) segment.kind.track (segment.stream?.getD 0).toNat

theorem clip_eq (segment : Segment) :
    media.clip registry segment =
      if segment.kind = .frame then media.source registry segment
      else media.slice segment.punchIn.inSeconds
        (segment.punchOut.inSeconds - segment.punchIn.inSeconds)
        (media.source registry segment) := by
  obtain ⟨number, punchIn, punchOut, input, body⟩ := segment
  cases body <;> rfl

theorem onTrack_audio (timeline : ResolvedTimeline) :
    timeline.onTrack .audio = timeline.segments.filter fun segment => segment.kind = .audio := by
  refine List.filter_congr fun segment _ => ?_
  cases segment.kind <;> rfl

theorem onTrack_video (timeline : ResolvedTimeline) :
    timeline.onTrack .video = timeline.segments.filter fun segment =>
      segment.kind = .video ∨ segment.kind = .frame := by
  refine List.filter_congr fun segment _ => ?_
  cases segment.kind <;> rfl

theorem episode_eq (flags : RenderFlags) (timeline : ResolvedTimeline) :
    media.episode registry flags timeline =
      (if timeline.onTrack .audio = [] then []
        else [(.audio, (if flags.normalise then media.normalise else id)
          ((timeline.onTrack .audio).flatMap (media.clip registry)))]) ++
        (if timeline.onTrack .video = [] then []
          else [(.video, (timeline.onTrack .video).flatMap (media.clip registry))]) := by
  rw [onTrack_audio, onTrack_video]
  rfl

end Media

/-- A segment that does not end before it begins lasts from one point to the other. -/
theorem Segment.inSeconds_duration {segment : Segment}
    (ordered : segment.punchIn.toNat ≤ segment.punchOut.toNat) :
    segment.duration.inSeconds = segment.punchOut.inSeconds - segment.punchIn.inSeconds := by
  have hfits : segment.punchOut.toNat - segment.punchIn.toNat < UInt64.size :=
    Nat.lt_of_le_of_lt (Nat.sub_le _ _) segment.punchOut.toNat_lt
  have hspan : segment.duration.toNat = segment.punchOut.toNat - segment.punchIn.toNat := by
    apply Timecode.toNat_of_ofMillis?
    rw [duration, Timecode.sub?, if_pos ordered, Timecode.ofMillis?, if_pos hfits, Option.getD_some]
  rw [Timecode.inSeconds, hspan, Nat.cast_sub ordered, sub_div, Timecode.inSeconds,
    Timecode.inSeconds]

/-! ## One filter -/

section

variable {α : Type} {media : Media α} {inputs : List InputEntry} {links : List (String × Signal α)}

/-- Run the statement of a filter. -/
def Filter.step? (media : Media α) (inputs : List InputEntry) (links : List (String × Signal α))
    (filter : Filter) : Option (List (String × Signal α)) :=
  filter.statement?.bind (Statement.step? media inputs links)

theorem foldlM_statements {filters : List Filter} {program : List Statement}
    (h : filters.mapM Filter.statement? = some program) :
    program.foldlM (Statement.step? media inputs) links =
      filters.foldlM (Filter.step? media inputs) links := by
  induction filters generalizing program links with
  | nil =>
    cases h
    rfl
  | cons filter filters ih =>
    obtain ⟨statement, rest, hstatement, hrest, rfl⟩ := mapM_cons_eq_some_iff.1 h
    rw [List.foldlM_cons, List.foldlM_cons, Filter.step?, hstatement, Option.bind_some]
    congr 1
    funext links
    exact ih hrest

theorem Timecode.value?_seconds (t : Timecode) :
    Decimal.value? t.seconds.toList = some t.inSeconds := by
  rw [Timecode.seconds, String.toList_ofList, Timecode.value?_secondsText]

theorem Filter.step?_trim {track : Track} {source result : Pad} {start duration : Timecode}
    {signal : List α} (hsource : signalOf? media inputs links source.label = some (track, signal))
    (hlink : result.isLink = true) (fresh : links.lookup result.label = none) :
    (Filter.trim track source start duration result).step? media inputs links =
      some (links ++
        [(result.label, (track, media.slice start.inSeconds duration.inSeconds signal))]) := by
  have hresult : IsLink result.label := (Pad.isLink_label_iff result).2 hlink
  have htrim : FilterCall.trim? media (FilterCall.mk (trimName track)
      [("start", start.seconds), ("duration", duration.seconds)]) signal =
      some (media.slice start.inSeconds duration.inSeconds signal) := by
    have hstart := start.value?_seconds
    have hduration := duration.value?_seconds
    simp [FilterCall.trim?, FilterCall.decimal?, List.lookup_cons, hstart, hduration]
  cases track <;>
    simp only [trimName] at htrim <;>
    simp [Filter.step?, Filter.statement?, Statement.step?, hsource, FilterCall.signal?, trimName,
      clockName, htrim, hresult, fresh]

theorem joinedTrack?_concatCall (track : Track) (n : Nat) :
    (Filter.concatCall track n).joinedTrack? = some track := by
  cases track <;> rfl

theorem join?_concatCall {track : Track} {signals : List (Signal α)}
    (several : 2 ≤ signals.length) (tracks : ∀ signal ∈ signals, signal.1 = track) :
    (Filter.concatCall track signals.length).join? signals =
      some (track, (signals.map Prod.snd).flatten) := by
  have hcount : (Filter.concatCall track signals.length).options.lookup "n" =
      some (Numeral.text signals.length) := rfl
  simp only [FilterCall.join?, joinedTrack?_concatCall, hcount, Option.bind_eq_bind,
    Option.bind_some, Pad.read?_text]
  rw [if_pos ⟨trivial, several, tracks⟩]

theorem Filter.step?_join {β : Type} {track : Track} {items : List β} {pad : β → Pad}
    {signal : β → List α} (nonempty : items ≠ [])
    (hpads : ∀ item ∈ items, signalOf? media inputs links (pad item).label =
      some (track, signal item)) (fresh : links.lookup (Pad.joined track).label = none) :
    (Filter.join track (items.map pad)).step? media inputs links =
      some (links ++ [((Pad.joined track).label, (track, items.flatMap signal))]) := by
  have hresult : IsLink (Pad.joined track).label := (Pad.isLink_label_iff _).2 rfl
  by_cases hseveral : 2 ≤ items.length
  · have hstatement : (Filter.join track (items.map pad)).statement? =
        some ⟨(items.map pad).map Pad.label, [Filter.concatCall track (items.map pad).length],
          [(Pad.joined track).label]⟩ := by
      apply Filter.statement?_join
      rw [List.length_map]
      exact hseveral
    have hread : (items.map (Pad.label ∘ pad)).mapM (signalOf? media inputs links) =
        some (items.map fun item => (track, signal item)) := by
      rw [List.mapM_map]
      exact mapM_eq_some_map hpads
    have hjoin : (Filter.concatCall track items.length).signal? media
        (items.map fun item => (track, signal item)) = some (track, items.flatMap signal) := by
      have hcount : 2 ≤ (items.map fun item => (track, signal item)).length := by
        rw [List.length_map]
        exact hseveral
      have htracks : ∀ read ∈ items.map fun item => (track, signal item), read.1 = track := by
        intro read hmem
        obtain ⟨item, -, rfl⟩ := List.mem_map.1 hmem
        rfl
      have hcall := join?_concatCall hcount htracks
      rw [List.length_map, List.map_map] at hcall
      exact hcall
    rw [List.map_map, List.length_map] at hstatement
    simp [Filter.step?, hstatement, Statement.step?, hread, hjoin, hresult, fresh]
  · -- A single signal is not joined but passed on.
    obtain ⟨item, rfl⟩ : ∃ item, items = [item] := by
      obtain _ | ⟨item, _ | ⟨next, rest⟩⟩ := items
      · exact absurd rfl nonempty
      · exact ⟨item, rfl⟩
      · exact absurd (by simp) hseveral
    have hitem := hpads item List.mem_cons_self
    cases track <;>
      simp [Filter.step?, Filter.statement?, Statement.step?, hitem, FilterCall.signal?, passName,
        hresult, fresh]

theorem Filter.step?_normalise {signal : List α}
    (hjoined : signalOf? media inputs links (Pad.joined .audio).label = some (.audio, signal))
    (fresh : links.lookup Pad.normalised.label = none) :
    Filter.normalise.step? media inputs links =
      some (links ++ [(Pad.normalised.label, (.audio, media.normalise signal))]) := by
  have hresult : IsLink Pad.normalised.label := (Pad.isLink_label_iff _).2 rfl
  simp [Filter.step?, Filter.statement?, Statement.step?, hjoined, FilterCall.signal?, hresult,
    fresh]

end

/-! ## All filters of a timeline -/

namespace FilterGraph

variable {α : Type} {media : Media α} {registry : Registry} {links : List (String × Signal α)}

theorem signalOf?_sourcePad {segment : Segment} (registered : segment.input ∈ registry.paths) :
    signalOf? media registry.entries links (segment.sourcePad registry).label =
      some (segment.kind.track, media.source registry segment) := by
  obtain ⟨index, hindex⟩ := Registry.exists_indexOf?_of_mem registered
  rw [Segment.sourcePad, hindex, Option.getD_some,
    signalOf?_input (Registry.entries_of_indexOf? hindex)]
  rfl

/-- The link of a trimmed segment. -/
def clipLink (media : Media α) (registry : Registry) (segment : Segment) : String × Signal α :=
  ((trimmedPad segment).label, (segment.kind.track, media.clip registry segment))

/-- A link is new to the links before it. -/
theorem lookup_eq_none_of_nodup {link : String × Signal α} {after : List (String × Signal α)}
    (distinct : ((links ++ link :: after).map Prod.fst).Nodup) : links.lookup link.1 = none := by
  rw [List.lookup_eq_none_iff]
  intro other hother
  rw [List.map_append, List.map_cons, List.nodup_append] at distinct
  exact bne_iff_ne.2 (distinct.2.2 _ (List.mem_map_of_mem hother) _ List.mem_cons_self).symm

/-- After the trims there is a link for every trimmed segment, with the clip that it plays. -/
theorem foldlM_trims {segments : List Segment}
    (registered : ∀ segment ∈ segments, segment.input ∈ registry.paths)
    (ordered : ∀ segment ∈ segments, segment.punchIn.toNat ≤ segment.punchOut.toNat)
    (distinct : ((links ++ (trimmed segments).map (clipLink media registry)).map
      Prod.fst).Nodup) :
    (segments.flatMap (·.trims registry)).foldlM (Filter.step? media registry.entries) links =
      some (links ++ (trimmed segments).map (clipLink media registry)) := by
  induction segments generalizing links with
  | nil => simp [trimmed]
  | cons segment rest ih =>
    have hregistered : ∀ other ∈ rest, other.input ∈ registry.paths :=
      fun other hother => registered other (List.mem_cons_of_mem segment hother)
    have hordered : ∀ other ∈ rest, other.punchIn.toNat ≤ other.punchOut.toNat :=
      fun other hother => ordered other (List.mem_cons_of_mem segment hother)
    rw [List.flatMap_cons, List.foldlM_append, Segment.trims]
    by_cases hkind : segment.kind = .frame
    · -- A frame is not trimmed, and the links stay as they are.
      have htrimmed : trimmed (segment :: rest) = trimmed rest := by simp [trimmed, hkind]
      rw [htrimmed] at distinct ⊢
      simpa [hkind] using ih hregistered hordered distinct
    · have htrimmed : trimmed (segment :: rest) = segment :: trimmed rest := by
        simp [trimmed, hkind]
      have hsource : signalOf? media registry.entries links (segment.sourcePad registry).label =
          some (segment.kind.track, media.source registry segment) :=
        signalOf?_sourcePad (registered segment List.mem_cons_self)
      have hclip : media.clip registry segment =
          media.slice segment.punchIn.inSeconds segment.duration.inSeconds
            (media.source registry segment) := by
        rw [Media.clip_eq, if_neg hkind,
          Segment.inSeconds_duration (ordered segment List.mem_cons_self)]
      have hstep : (Filter.trim segment.kind.track (segment.sourcePad registry) segment.punchIn
          segment.duration (.segment segment.kind.track segment.number)).step? media
            registry.entries links = some (links ++ [clipLink media registry segment]) := by
        rw [htrimmed, List.map_cons] at distinct
        rw [clipLink, hclip]
        exact Filter.step?_trim hsource rfl (lookup_eq_none_of_nodup distinct)
      -- The new link joins those from before, and the rest is run with all of them.
      rw [htrimmed, List.map_cons, List.append_cons] at distinct ⊢
      rw [if_neg hkind, List.foldlM_cons, hstep]
      exact ih hregistered hordered distinct

variable {timeline : ResolvedTimeline} {flags : RenderFlags}

/-- The link of a joined track, if anything is played on it. -/
def joinedLinks (media : Media α) (registry : Registry) (timeline : ResolvedTimeline)
    (track : Track) : List (String × Signal α) :=
  if timeline.onTrack track = [] then []
  else [((Pad.joined track).label, (track, (timeline.onTrack track).flatMap
    (media.clip registry)))]

/-- The link of the normalised audio, if it is wanted and there is any. -/
def normalisedLinks (media : Media α) (registry : Registry) (flags : RenderFlags)
    (timeline : ResolvedTimeline) : List (String × Signal α) :=
  if flags.normalise ∧ timeline.onTrack .audio ≠ [] then
    [(Pad.normalised.label, (.audio, media.normalise ((timeline.onTrack .audio).flatMap
      (media.clip registry))))]
  else []

/-- After its join a track is the clips of its segments in playing order. -/
theorem foldlM_joins {track : Track}
    (registered : ∀ segment ∈ timeline.segments, segment.input ∈ registry.paths)
    (clips : ∀ segment ∈ trimmed timeline.segments, clipLink media registry segment ∈ links)
    (distinct : ((links ++ joinedLinks media registry timeline track).map Prod.fst).Nodup) :
    (joins registry track timeline).foldlM (Filter.step? media registry.entries) links =
      some (links ++ joinedLinks media registry timeline track) := by
  unfold joins joinedLinks at *
  by_cases hempty : timeline.onTrack track = []
  · rw [if_pos hempty, if_pos hempty, List.append_nil]
    rfl
  · rw [if_neg hempty] at distinct ⊢
    rw [if_neg hempty, List.foldlM_cons, Filter.step?_join hempty ?_
      (lookup_eq_none_of_nodup distinct)]
    · rfl
    · intro segment hsegment
      obtain ⟨hmem, htrack⟩ := List.mem_filter.1 hsegment
      have htrack : segment.kind.track = track := of_decide_eq_true htrack
      rw [← htrack, Segment.joinedPad]
      split
      · next hkind =>
        rw [signalOf?_sourcePad (registered segment hmem), Media.clip_eq, if_pos hkind]
      · next hkind =>
        rw [List.map_append] at distinct
        refine signalOf?_link rfl distinct.of_append_left ?_
        exact clips segment (List.mem_filter.2 ⟨hmem, decide_eq_true hkind⟩)

theorem foldlM_normalises
    (joined : ∀ link ∈ joinedLinks media registry timeline .audio, link ∈ links)
    (distinct : ((links ++ normalisedLinks media registry flags timeline).map Prod.fst).Nodup) :
    (normalises flags timeline).foldlM (Filter.step? media registry.entries) links =
      some (links ++ normalisedLinks media registry flags timeline) := by
  unfold normalises normalisedLinks at *
  split
  · next hwanted =>
    rw [if_pos hwanted] at distinct
    rw [joinedLinks, if_neg hwanted.2] at joined
    rw [List.foldlM_cons, Filter.step?_normalise ?_ (lookup_eq_none_of_nodup distinct)]
    · rfl
    · rw [List.map_append] at distinct
      exact signalOf?_link rfl distinct.of_append_left (joined _ List.mem_cons_self)
  · rw [List.append_nil]
    rfl

/-- The links of a whole run. -/
def allLinks (media : Media α) (registry : Registry) (flags : RenderFlags)
    (timeline : ResolvedTimeline) : List (String × Signal α) :=
  (trimmed timeline.segments).map (clipLink media registry) ++
    joinedLinks media registry timeline .audio ++ normalisedLinks media registry flags timeline ++
    joinedLinks media registry timeline .video

/-- The links of a whole run have the labels of the pads that are written. -/
theorem map_fst_allLinks (media : Media α) (registry : Registry) (flags : RenderFlags)
    (timeline : ResolvedTimeline) :
    (allLinks media registry flags timeline).map Prod.fst =
      (padsWritten (compiled timeline registry flags).filters).map Pad.label := by
  have hjoined : ∀ track, (joinedLinks media registry timeline track).map Prod.fst =
      (padsWritten (joins registry track timeline)).map Pad.label := by
    intro track
    rw [joinedLinks, padsWritten_joins]
    split <;> rfl
  have hnormalised : (normalisedLinks media registry flags timeline).map Prod.fst =
      (padsWritten (normalises flags timeline)).map Pad.label := by
    rw [normalisedLinks, normalises]
    split <;> rfl
  simp only [allLinks, compiled, padsWritten_append, padsWritten_trims, List.map_append,
    List.map_map, hjoined, hnormalised]
  rfl

theorem nodup_map_fst_allLinks (media : Media α) (registry : Registry) (flags : RenderFlags)
    (distinct : (timeline.segments.map Segment.number).Nodup) :
    ((allLinks media registry flags timeline).map Prod.fst).Nodup := by
  rw [map_fst_allLinks]
  refine (nodup_padsWritten distinct registry flags).map_on fun pad hpad other hother heq => ?_
  exact Pad.label_injective_of_isLink (isLink_of_mem_padsWritten hpad)
    (isLink_of_mem_padsWritten hother) heq

/-- Running a compiled program makes the links of the timeline. -/
theorem run?_compiled (media : Media α) (flags : RenderFlags)
    (distinct : (timeline.segments.map Segment.number).Nodup)
    (ordered : ∀ segment ∈ timeline.segments, segment.punchIn.toNat ≤ segment.punchOut.toNat)
    (registered : ∀ segment ∈ timeline.segments, segment.input ∈ registry.paths)
    {program : List Statement}
    (h : (compiled timeline registry flags).filters.mapM Filter.statement? = some program) :
    run? media registry.entries program = some (allLinks media registry flags timeline) := by
  -- At every stage the labels of the links differ, because they do at the end.
  have hprefix : ∀ {front back : List (String × Signal α)},
      ((front ++ back).map Prod.fst).Nodup → (front.map Prod.fst).Nodup := by
    intro front back hlinks
    rw [List.map_append] at hlinks
    exact hlinks.of_append_left
  have hall := nodup_map_fst_allLinks media registry flags distinct
  have hnormal := hprefix hall
  have haudio := hprefix hnormal
  have htrims := hprefix haudio
  rw [run?, foldlM_statements h]
  simp only [compiled, List.foldlM_append]
  rw [foldlM_trims registered ordered (by simpa using htrims)]
  simp only [List.nil_append, Option.bind_eq_bind, Option.bind_some]
  rw [foldlM_joins registered (fun segment hsegment => List.mem_map_of_mem hsegment) haudio]
  simp only [Option.bind_some]
  rw [foldlM_normalises (fun link hlink => List.mem_append_right _ hlink) hnormal]
  simp only [Option.bind_some]
  refine foldlM_joins registered (fun segment hsegment => ?_) hall
  exact List.mem_append_left _ (List.mem_append_left _ (List.mem_map_of_mem hsegment))

/-- The signals under the labels that the command maps are the episode. -/
theorem mapM_lookup_mappedPads (media : Media α) (registry : Registry) (flags : RenderFlags)
    (distinct : (timeline.segments.map Segment.number).Nodup) :
    ((mappedPads flags timeline).map Pad.label).mapM
        (fun label => (allLinks media registry flags timeline).lookup label) =
      some (media.episode registry flags timeline) := by
  have hlookup : ∀ {label : String} {signal : Signal α},
      (label, signal) ∈ allLinks media registry flags timeline →
        (allLinks media registry flags timeline).lookup label = some signal :=
    lookup_of_mem (nodup_map_fst_allLinks media registry flags distinct)
  have hjoined : ∀ track, timeline.onTrack track ≠ [] →
      (allLinks media registry flags timeline).lookup (Pad.joined track).label =
        some (track, (timeline.onTrack track).flatMap (media.clip registry)) := by
    intro track hne
    apply hlookup
    cases track <;> simp [allLinks, joinedLinks, hne]
  have hnormalised : timeline.onTrack .audio ≠ [] → flags.normalise = true →
      (allLinks media registry flags timeline).lookup Pad.normalised.label =
        some (.audio, media.normalise ((timeline.onTrack .audio).flatMap
          (media.clip registry))) := by
    intro hne hflag
    apply hlookup
    simp [allLinks, normalisedLinks, hne, hflag]
  rw [media.episode_eq registry]
  simp only [mappedPads, List.map_append, List.mapM_append]
  by_cases haudio : timeline.onTrack .audio = [] <;>
    by_cases hvideo : timeline.onTrack .video = [] <;>
    cases hflag : flags.normalise <;>
    simp [haudio, hvideo, hflag, hjoined, hnormalised]

end FilterGraph

namespace RenderCommand

/-- The rendering command for a compiled timeline sends the episode of the timeline to its output:
the audio segments after one another, normalised if that is wanted, and the video segments and
frames after one another. -/
theorem signals?_of_compile {α : Type} (media : Media α) {timeline : ResolvedTimeline}
    {registry : Registry} {flags : RenderFlags} {graph : FilterGraph}
    (distinct : (timeline.segments.map Segment.number).Nodup)
    (ordered : ∀ segment ∈ timeline.segments, segment.punchIn.toNat ≤ segment.punchOut.toNat)
    (compiles : FilterGraph.compile timeline registry flags = .ok graph) (output : Path) :
    (ofGraph graph registry flags output).signals? media =
      some (media.episode registry flags timeline) := by
  obtain ⟨registered, rfl⟩ := FilterGraph.compile_eq_ok_iff.1 compiles
  obtain ⟨program, hprogram⟩ := FilterGraph.exists_statements timeline registry flags
  have hread := FilterGraph.read?_program hprogram
  have hrun := FilterGraph.run?_compiled media flags distinct ordered registered hprogram
  have hlabels := FilterGraph.mappedLabels?_ofGraph_compiled timeline registry flags output
  rw [signals?]
  simp only [ofGraph] at hlabels ⊢
  simp only [hread, hrun, hlabels, Option.bind_eq_bind, Option.bind_some]
  exact FilterGraph.mapM_lookup_mappedPads media registry flags distinct

/-- Media in which every sample names the file and the number of milliseconds from its start. -/
def numbered : Media (String × Nat) :=
  .sampled 1000 (fun entry _ _ => (List.range 4000).map fun i => (entry.path, i)) id

theorem signals?_interview :
    (interview.segments.map Segment.number).Nodup ∧
      (∀ segment ∈ interview.segments, segment.punchIn.toNat ≤ segment.punchOut.toNat) ∧
      ∃ graph, FilterGraph.compile interview interviewFiles .standard = .ok graph ∧
        (ofGraph graph interviewFiles .standard "out.mov").signals? numbered =
          some (numbered.episode interviewFiles .standard interview) :=
  ⟨by decide, by decide, _, compile_interview .standard,
    signals?_of_compile numbered (by decide) (by decide) (compile_interview .standard) "out.mov"⟩

end RenderCommand

end EpisodeCut
