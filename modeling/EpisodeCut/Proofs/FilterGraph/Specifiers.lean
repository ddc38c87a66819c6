import EpisodeCut.Proofs.FilterGraph.Meaning

/-!
# The streams from which segments are read

A program names the stream of a segment by one label. A clip is cut by a statement of its own, which
reads that label and writes the link of the clip; a still image is not cut, and the join of the
pictures reads its label at the place of the image (`Program.ReadAs`). A compiled program reads every
segment through the label of its source and through no other (`readAs_compiled_iff`), and reads
nothing else but links (`exists_readAs_of_read`).
-/

set_option autoImplicit false

namespace EpisodeCut

namespace Program

/-- Through this label a program reads the stream of the segment at a position in playing order. -/
inductive ReadAs (program : List Statement) (segments : List Segment) (position : Nat)
    (label : String) : Prop
  /-- What the statement reads that writes the clip of the segment. -/
  | clip (segment : Segment) (statement : Statement) :
      segments[position]? = some segment → segment.kind ≠ .frame → statement ∈ program →
      statement.outputs = [(Pad.segment segment.kind.track segment.number).label] →
      statement.inputs = [label] → ReadAs program segments position label
  /-- What the join of the pictures reads at the place of the image, which is found by counting the
  pictures before it. -/
  | still (segment : Segment) (statement : Statement) :
      segments[position]? = some segment → segment.kind = .frame → statement ∈ program →
      statement.outputs = [(Pad.joined .video).label] →
      statement.inputs[(segments.take position).countP (·.kind.track = .video)]? = some label →
      ReadAs program segments position label

theorem ReadAs.lt_length {program : List Statement} {segments : List Segment} {position : Nat}
    {label : String} (h : ReadAs program segments position label) : position < segments.length := by
  cases h with
  | clip segment statement hsegment => exact (List.getElem?_eq_some_iff.1 hsegment).1
  | still segment statement hsegment => exact (List.getElem?_eq_some_iff.1 hsegment).1

end Program

/-- Among those that are kept, an item stands at the number of those kept before it. -/
theorem getElem?_filter_of_getElem? {α : Type} {items : List α} {position : Nat} {item : α}
    {kept : α → Bool} (h : items[position]? = some item) (hkept : kept item = true) :
    (items.filter kept)[(items.take position).countP kept]? = some item := by
  induction items generalizing position with
  | nil => cases h
  | cons first rest ih =>
    cases position with
    | zero =>
      cases h
      simp [hkept]
    | succ position =>
      rw [List.getElem?_cons_succ] at h
      rw [List.take_succ_cons, List.countP_cons, List.filter_cons]
      split
      · rw [List.getElem?_cons_succ]
        exact ih h
      · exact ih h

namespace FilterGraph

open Program

variable {timeline : ResolvedTimeline} {registry : Registry} {flags : RenderFlags}
  {program : List Statement}

/-- The filters of a compiled graph are told apart by the label that they write. -/
theorem writes_eq_of_label {filter : Filter} {pad : Pad} (hpad : pad.isLink = true)
    (hfilter : filter ∈ (compiled timeline registry flags).filters)
    (h : filter.writes.map Pad.label = [pad.label]) : filter.writes = [pad] := by
  obtain ⟨written, hwritten, hlabel⟩ := List.map_eq_singleton_iff.1 h
  have hmem : written ∈ padsWritten (compiled timeline registry flags).filters :=
    List.mem_flatMap.2 ⟨filter, hfilter, by simp [hwritten]⟩
  rw [hwritten, Pad.label_injective_of_isLink (isLink_of_mem_padsWritten hmem) hpad hlabel]

/-- The one filter that writes the clip of a segment is the trim of the segment. -/
theorem eq_trim_of_writes (distinct : (timeline.segments.map Segment.number).Nodup)
    {filter : Filter} {segment : Segment} (hsegment : segment ∈ timeline.segments)
    (hfilter : filter ∈ (compiled timeline registry flags).filters)
    (h : filter.writes = [trimmedPad segment]) : filter.reads = [segment.sourcePad registry] := by
  rcases mem_compiled_iff.1 hfilter with ⟨other, hother, -, rfl⟩ | ⟨track, -, rfl⟩ | ⟨-, rfl⟩
  · have hnumber : other.number = segment.number := by
      simp only [Filter.writes, trimmedPad, List.cons.injEq, Pad.segment.injEq, and_true] at h
      exact h.2
    rw [List.inj_on_of_nodup_map distinct hother hsegment hnumber]
    rfl
  · simp [Filter.writes, trimmedPad] at h
  · simp [Filter.writes, trimmedPad] at h

/-- The one filter that writes the joined pictures is their join. -/
theorem eq_join_of_writes {filter : Filter} {track : Track}
    (hfilter : filter ∈ (compiled timeline registry flags).filters)
    (h : filter.writes = [.joined track]) :
    filter.reads = (timeline.onTrack track).map (·.joinedPad registry) := by
  rcases mem_compiled_iff.1 hfilter with ⟨other, -, -, rfl⟩ | ⟨joined, -, rfl⟩ | ⟨-, rfl⟩
  · simp [Filter.writes, trimmedPad] at h
  · simp only [Filter.writes, List.cons.injEq, Pad.joined.injEq, and_true] at h
    rw [h]
    rfl
  · simp [Filter.writes] at h

/-- A picture is joined at the place where it is counted. -/
theorem getElem?_onTrack {track : Track} {position : Nat} {segment : Segment}
    (hsegment : timeline.segments[position]? = some segment) (htrack : segment.kind.track = track) :
    (timeline.onTrack track)[(timeline.segments.take position).countP (·.kind.track = track)]? =
      some segment :=
  getElem?_filter_of_getElem? hsegment (decide_eq_true htrack)

/-- In a compiled program a segment is read through the label of its source, and only through it. -/
theorem readAs_compiled_iff (distinct : (timeline.segments.map Segment.number).Nodup)
    (h : (compiled timeline registry flags).filters.mapM Filter.statement? = some program)
    {position : Nat} {label : String} :
    ReadAs program timeline.segments position label ↔
      ∃ segment, timeline.segments[position]? = some segment ∧
        label = (segment.sourcePad registry).label := by
  constructor
  · intro hread
    cases hread with
    | clip segment statement hsegment hkind hmem houtputs hinputs =>
      obtain ⟨filter, hfilter, hstatement⟩ := exists_filter_of_mem h hmem
      obtain ⟨hreads, hwrites⟩ := Filter.labels_of_statement? hstatement
      rw [hwrites] at houtputs
      -- The label of the link has led back to the filter, and the filter tells what it reads.
      have hwritten : filter.writes = [trimmedPad segment] :=
        writes_eq_of_label rfl hfilter houtputs
      rw [hreads, eq_trim_of_writes distinct (List.mem_of_getElem? hsegment) hfilter hwritten]
        at hinputs
      exact ⟨segment, hsegment, (List.singleton_inj.1 hinputs).symm⟩
    | still segment statement hsegment hkind hmem houtputs hinputs =>
      obtain ⟨filter, hfilter, hstatement⟩ := exists_filter_of_mem h hmem
      obtain ⟨hreads, hwrites⟩ := Filter.labels_of_statement? hstatement
      rw [hwrites] at houtputs
      have hwritten : filter.writes = [.joined .video] := writes_eq_of_label rfl hfilter houtputs
      have htrack : segment.kind.track = .video := by
        rw [hkind]
        rfl
      have hplace := getElem?_onTrack hsegment htrack
      rw [hreads, eq_join_of_writes hfilter hwritten, List.getElem?_map, List.getElem?_map, hplace,
        Option.map_some, Option.map_some, Option.some.injEq, Segment.joinedPad, if_pos hkind]
        at hinputs
      exact ⟨segment, hsegment, hinputs.symm⟩
  · rintro ⟨segment, hsegment, rfl⟩
    by_cases hkind : segment.kind = .frame
    · have htrack : segment.kind.track = .video := by
        rw [hkind]
        rfl
      have hplace := getElem?_onTrack hsegment htrack
      -- There is a join of the pictures, since the image is one of them.
      have hplayed : timeline.onTrack .video ≠ [] := by
        intro hnone
        rw [hnone] at hplace
        cases hplace
      obtain ⟨statement, hmem, hstatement⟩ := exists_statement_of_mem h
        (mem_compiled_iff.2 (.inr (.inl ⟨.video, hplayed, rfl⟩)))
      obtain ⟨hreads, hwrites⟩ := Filter.labels_of_statement? hstatement
      refine .still segment statement hsegment hkind hmem hwrites ?_
      rw [hreads, Filter.reads, List.getElem?_map, List.getElem?_map, hplace, Option.map_some,
        Option.map_some, Segment.joinedPad, if_pos hkind]
    · obtain ⟨statement, hmem, hstatement⟩ := exists_statement_of_mem h
        (mem_compiled_iff.2 (.inl ⟨segment, List.mem_of_getElem? hsegment, hkind, rfl⟩))
      obtain ⟨hreads, hwrites⟩ := Filter.labels_of_statement? hstatement
      exact .clip segment statement hsegment hkind hmem hwrites hreads

/-- What a compiled program reads from its inputs are the streams of segments. -/
theorem exists_readAs_of_read (distinct : (timeline.segments.map Segment.number).Nodup)
    (h : (compiled timeline registry flags).filters.mapM Filter.statement? = some program)
    {label : String} (hlabel : label ∈ labelsRead program) (hinput : ¬IsLink label) :
    ∃ position, ReadAs program timeline.segments position label := by
  rw [(labels_of_mapM_statement? h).1] at hlabel
  obtain ⟨pad, hpad, rfl⟩ := List.mem_map.1 hlabel
  obtain ⟨filter, hfilter, hreads⟩ := List.mem_flatMap.1 hpad
  -- A pad that is no link is read by a trim, or it is that of a still image in a join.
  have hopen : pad.isLink ≠ true := fun hlink => hinput ((Pad.isLink_label_iff pad).2 hlink)
  obtain ⟨segment, hsegment, rfl⟩ : ∃ segment ∈ timeline.segments,
      pad = segment.sourcePad registry := by
    rcases mem_compiled_iff.1 hfilter with ⟨segment, hsegment, -, rfl⟩ | ⟨track, -, rfl⟩ | ⟨-, rfl⟩
    · exact ⟨segment, hsegment, List.mem_singleton.1 hreads⟩
    · obtain ⟨segment, hsegment, rfl⟩ := List.mem_map.1 hreads
      rw [Segment.joinedPad] at hopen ⊢
      split at hopen
      · next hkind =>
        rw [if_pos hkind]
        exact ⟨segment, (List.mem_filter.1 hsegment).1, rfl⟩
      · exact absurd rfl hopen
    · rw [List.mem_singleton.1 hreads] at hopen
      exact absurd rfl hopen
  obtain ⟨position, hposition⟩ := List.mem_iff_getElem?.1 hsegment
  exact ⟨position, (readAs_compiled_iff distinct h).2 ⟨segment, hposition, rfl⟩⟩

end FilterGraph

end EpisodeCut
