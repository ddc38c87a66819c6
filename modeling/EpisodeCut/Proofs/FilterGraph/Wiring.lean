import EpisodeCut.Proofs.FilterGraph.Mapping
import Mathlib.Data.List.Nodup
import Mathlib.Data.List.Perm.Basic

/-!
# The wiring of a compiled program

A label with a colon names a stream of an input; every other label links filters. In a compiled
program the links form a closed linear graph (`Program.Wired`): each is written by one filter and
read once, by a later filter or by the command that maps it. The proof counts pads: the links that
filters read, with those that the command maps, are a permutation of the links that filters write
(`linksRead_append_mapped_perm`), and no pad is written twice (`nodup_padsWritten`).
-/

set_option autoImplicit false

namespace EpisodeCut

open Program
open scoped List

/-! ## Wired programs -/

namespace Program

/-- Labels without a colon link filters. -/
def IsLink (label : String) : Prop :=
  ':' ∉ label.toList

instance (label : String) : Decidable (IsLink label) :=
  inferInstanceAs (Decidable (':' ∉ label.toList))

/-- The labels that statements read, in order. -/
def labelsRead (program : List Statement) : List String :=
  program.flatMap Statement.inputs

/-- The labels that statements write, in order. -/
def labelsWritten (program : List Statement) : List String :=
  program.flatMap Statement.outputs

/-- A program whose links are closed and used once, when the labels `mapped` leave it. -/
structure Wired (program : List Statement) (mapped : List String) : Prop where
  /-- Every filter writes one label. -/
  single : ∀ statement ∈ program, statement.outputs.length = 1
  /-- Every link is written by one filter. -/
  written : ∀ label ∈ labelsRead program ++ labelsWritten program, IsLink label →
    (labelsWritten program).count label = 1
  /-- Every link is read once, by a filter or by the command. -/
  read : ∀ label ∈ labelsRead program ++ labelsWritten program, IsLink label →
    (labelsRead program ++ mapped).count label = 1
  /-- A filter reads links of earlier filters only. -/
  ordered : ∀ before statement after, program = before ++ statement :: after →
    ∀ label ∈ statement.inputs, IsLink label → label ∈ labelsWritten before
  /-- What leaves the program is written in it. -/
  closed : ∀ label ∈ mapped, label ∈ labelsWritten program
  /-- A join names the number of its inputs, of which there are several. -/
  joins : ∀ statement ∈ program, ∀ call ∈ statement.chain, call.name = "concat" →
    call.options.lookup "n" = some (Text.Numeral.text statement.inputs.length) ∧
      2 ≤ statement.inputs.length

end Program

/-! ## Pads that filters read and write -/

namespace Pad

/-- Pads inside the program. -/
def isLink : Pad → Bool
  | .input .. => false
  | _ => true

theorem toList_label_segment (track : Track) (number : Nat) :
    (Pad.segment track number).label.toList = track.letter.toList ++ Text.Numeral.write number := by
  rw [label, String.toList_append, Text.Numeral.toList_text]

theorem isLink_label_iff (pad : Pad) : IsLink pad.label ↔ pad.isLink = true := by
  cases pad with
  | input index track stream =>
    have hcolon : ':' ∈ (Pad.input index track stream).label.toList := by
      rw [label]
      split <;> simp
    simp [IsLink, isLink, hcolon]
  | segment track number =>
    have hletter : ':' ∉ track.letter.toList := by cases track <;> decide
    have hnumeral : ':' ∉ Text.Numeral.write number := Text.Numeral.not_mem_write rfl number
    rw [IsLink, toList_label_segment]
    simp [isLink, hletter, hnumeral]
  | joined track => cases track <;> decide
  | normalised => decide

/-- The pad of a track that is called `name` after the letter of the track. -/
def ofName (track : Track) (name : List Char) : Pad :=
  if name = "conc".toList then .joined track
  else if name = "norm".toList then .normalised
  else .segment track (Text.Numeral.value name)

/-- The pad that links filters under a label. -/
def ofLabel? (label : String) : Option Pad :=
  match label.toList with
  | 'a' :: name => some (ofName .audio name)
  | 'v' :: name => some (ofName .video name)
  | _ => none

theorem ofName_write (track : Track) (number : Nat) :
    ofName track (Text.Numeral.write number) = .segment track number := by
  have hword : ∀ {letter : Char} {word : List Char}, letter.isDigit = false → letter ∈ word →
      Text.Numeral.write number ≠ word := by
    intro letter word hletter hmem heq
    exact Text.Numeral.not_mem_write hletter number (heq ▸ hmem)
  have hjoined : Text.Numeral.write number ≠ "conc".toList :=
    hword (show 'c'.isDigit = false from rfl) (by decide)
  have hnormalised : Text.Numeral.write number ≠ "norm".toList :=
    hword (show 'n'.isDigit = false from rfl) (by decide)
  rw [ofName, if_neg hjoined, if_neg hnormalised, Text.Numeral.value_write]

theorem ofLabel?_label {pad : Pad} (h : pad.isLink = true) : ofLabel? pad.label = some pad := by
  cases pad with
  | input index track stream => cases h
  | segment track number =>
    rw [ofLabel?, toList_label_segment]
    cases track
    · exact congrArg some (ofName_write .audio number)
    · exact congrArg some (ofName_write .video number)
  | joined track => cases track <;> rfl
  | normalised => rfl

theorem label_injective_of_isLink {pad other : Pad} (hpad : pad.isLink = true)
    (hother : other.isLink = true) (h : pad.label = other.label) : pad = other := by
  apply Option.some.inj
  rw [← ofLabel?_label hpad, h, ofLabel?_label hother]

end Pad

namespace Filter

/-- The pads that a filter reads. -/
def reads : Filter → List Pad
  | .trim _ source _ _ _ => [source]
  | .join _ pads => pads
  | .normalise => [.joined .audio]
  | .verbatim _ => []

/-- The pads that a filter writes. -/
def writes : Filter → List Pad
  | .trim _ _ _ _ result => [result]
  | .join track _ => [.joined track]
  | .normalise => [.normalised]
  | .verbatim _ => []

theorem labels_of_statement? {filter : Filter} {statement : Statement}
    (h : filter.statement? = some statement) :
    statement.inputs = filter.reads.map Pad.label ∧
      statement.outputs = filter.writes.map Pad.label := by
  cases filter with
  | trim track source start duration result =>
    cases h
    exact ⟨rfl, rfl⟩
  | join track pads =>
    obtain _ | ⟨pad, _ | ⟨next, pads⟩⟩ := pads
    · cases h
    · cases h
      exact ⟨rfl, rfl⟩
    · cases h
      exact ⟨rfl, rfl⟩
  | normalise =>
    cases h
    exact ⟨rfl, rfl⟩
  | verbatim text => cases h

/-- Only a join of several pads is written as a join. -/
theorem joins_of_statement? {filter : Filter} {statement : Statement}
    (h : filter.statement? = some statement) :
    ∀ call ∈ statement.chain, call.name = "concat" →
      call.options.lookup "n" = some (Text.Numeral.text statement.inputs.length) ∧
        2 ≤ statement.inputs.length := by
  have hnames : ∀ track, "concat" ∉ [trimName track, clockName track, passName track] := by
    intro track
    cases track <;> decide
  intro call hcall hname
  cases filter with
  | trim track source start duration result =>
    cases h
    simp only [List.mem_cons, List.not_mem_nil, or_false] at hcall
    rcases hcall with rfl | rfl
    · exact absurd (hname ▸ List.mem_cons_self) (hnames track)
    · exact absurd (hname ▸ List.mem_cons_of_mem _ List.mem_cons_self) (hnames track)
  | join track pads =>
    obtain _ | ⟨pad, _ | ⟨next, pads⟩⟩ := pads
    · cases h
    · cases h
      rw [List.mem_singleton.1 hcall] at hname
      exact absurd (hname ▸ by simp) (hnames track)
    · cases h
      rw [List.mem_singleton.1 hcall]
      refine ⟨?_, by simp⟩
      rw [List.length_map]
      rfl
  | normalise =>
    cases h
    rw [List.mem_singleton.1 hcall] at hname
    exact absurd hname (by decide)
  | verbatim text => cases h

end Filter

/-! ## Pads of a compiled graph -/

theorem ResolvedTimeline.onTrack_ne_nil_iff (timeline : ResolvedTimeline) (track : Track) :
    timeline.onTrack track ≠ [] ↔ ∃ segment ∈ timeline.segments, segment.kind.track = track := by
  rw [ResolvedTimeline.onTrack, ne_eq, List.filter_eq_nil_iff]
  simp only [decide_eq_true_eq, not_forall, exists_prop, not_not]

namespace FilterGraph

/-- The links that filters read, in order. -/
def linksRead (filters : List Filter) : List Pad :=
  (filters.flatMap Filter.reads).filter Pad.isLink

/-- The pads that filters write, in order. -/
def padsWritten (filters : List Filter) : List Pad :=
  filters.flatMap Filter.writes

theorem linksRead_append (filters others : List Filter) :
    linksRead (filters ++ others) = linksRead filters ++ linksRead others := by
  simp [linksRead]

theorem padsWritten_append (filters others : List Filter) :
    padsWritten (filters ++ others) = padsWritten filters ++ padsWritten others := by
  simp [padsWritten]

/-- The pad of a trimmed segment. -/
def trimmedPad (segment : Segment) : Pad :=
  .segment segment.kind.track segment.number

/-- The trimmed segments, which are all but the frames. -/
def trimmed (segments : List Segment) : List Segment :=
  segments.filter (·.kind ≠ .frame)

theorem linksRead_trims (registry : Registry) (segments : List Segment) :
    linksRead (segments.flatMap (·.trims registry)) = [] := by
  induction segments with
  | nil => rfl
  | cons segment rest ih =>
    rw [List.flatMap_cons, linksRead_append, ih, List.append_nil, Segment.trims]
    split <;> rfl

theorem padsWritten_trims (registry : Registry) (segments : List Segment) :
    padsWritten (segments.flatMap (·.trims registry)) = (trimmed segments).map trimmedPad := by
  induction segments with
  | nil => rfl
  | cons segment rest ih =>
    rw [List.flatMap_cons, padsWritten_append, ih, Segment.trims, trimmed, trimmed,
      List.filter_cons]
    by_cases hkind : segment.kind = .frame <;> simp [hkind, padsWritten, Filter.writes, trimmedPad]

theorem filter_isLink_joinedPads (registry : Registry) (segments : List Segment) :
    (segments.map (·.joinedPad registry)).filter Pad.isLink =
      (trimmed segments).map trimmedPad := by
  induction segments with
  | nil => rfl
  | cons segment rest ih =>
    rw [List.map_cons, List.filter_cons, ih, trimmed, trimmed, List.filter_cons,
      Segment.joinedPad]
    by_cases hkind : segment.kind = .frame <;>
      simp [hkind, Pad.isLink, Segment.sourcePad, trimmedPad]

theorem linksRead_joins (registry : Registry) (track : Track) (timeline : ResolvedTimeline) :
    linksRead (joins registry track timeline) =
      (trimmed (timeline.onTrack track)).map trimmedPad := by
  unfold joins
  split
  · next hempty =>
    rw [hempty]
    rfl
  · rw [← filter_isLink_joinedPads registry]
    simp [linksRead, Filter.reads]

theorem padsWritten_joins (registry : Registry) (track : Track) (timeline : ResolvedTimeline) :
    padsWritten (joins registry track timeline) =
      if timeline.onTrack track = [] then [] else [.joined track] := by
  unfold joins
  split <;> rfl

/-- The pads that the command maps. -/
def mappedPads (flags : RenderFlags) (timeline : ResolvedTimeline) : List Pad :=
  (if timeline.onTrack .audio = [] then []
    else [if flags.normalise then .normalised else .joined .audio]) ++
    (if timeline.onTrack .video = [] then [] else [.joined .video])

/-- The trimmed segments of the two tracks are all trimmed segments. -/
theorem trimmed_perm (timeline : ResolvedTimeline) :
    trimmed (timeline.onTrack .audio) ++ trimmed (timeline.onTrack .video) ~
      trimmed timeline.segments := by
  have hother : ∀ segment : Segment,
      decide (segment.kind.track = .video) = !decide (segment.kind.track = .audio) := by
    intro segment
    cases segment.kind.track <;> rfl
  have hsplit : ∀ track, trimmed (timeline.onTrack track) =
      (trimmed timeline.segments).filter fun segment => decide (segment.kind.track = track) :=
    fun track => List.filter_comm _ _ _
  rw [hsplit, hsplit]
  simp only [hother]
  exact List.filter_append_perm (fun segment : Segment => decide (segment.kind.track = .audio)) _

/-- The joined audio goes through normalisation or leaves the program; the normalised audio and the
joined video leave it. -/
theorem linksRead_normalises_append (timeline : ResolvedTimeline) (registry : Registry)
    (flags : RenderFlags) :
    linksRead (normalises flags timeline) ++ mappedPads flags timeline =
      padsWritten (joins registry .audio timeline) ++ padsWritten (normalises flags timeline) ++
        padsWritten (joins registry .video timeline) := by
  rw [padsWritten_joins, padsWritten_joins, mappedPads, normalises]
  by_cases haudio : timeline.onTrack .audio = []
  · simp [haudio, linksRead, padsWritten]
  · by_cases hflag : flags.normalise = true
    · simp only [haudio, hflag, ne_eq, not_false_eq_true, and_self, if_true, if_false]
      rfl
    · simp [haudio, hflag, linksRead, padsWritten]

/-- Every pad that is written is read once or leaves the program. -/
theorem linksRead_append_mapped_perm (timeline : ResolvedTimeline) (registry : Registry)
    (flags : RenderFlags) :
    linksRead (compiled timeline registry flags).filters ++ mappedPads flags timeline ~
      padsWritten (compiled timeline registry flags).filters := by
  -- Trimmed pads are read by the joins of the two tracks, and joined pads go on or are mapped; the
  -- counts of both add up.
  rw [List.perm_iff_count]
  intro pad
  have htrimmed := ((trimmed_perm timeline).map trimmedPad).count_eq pad
  have hjoined := congrArg (List.count pad) (linksRead_normalises_append timeline registry flags)
  simp only [List.map_append, List.count_append] at htrimmed hjoined
  simp only [compiled, linksRead_append, padsWritten_append, linksRead_trims, padsWritten_trims,
    linksRead_joins, List.nil_append, List.count_append]
  omega

/-- No pad is written twice if no number is given twice. -/
theorem nodup_padsWritten {timeline : ResolvedTimeline}
    (distinct : (timeline.segments.map Segment.number).Nodup) (registry : Registry)
    (flags : RenderFlags) : (padsWritten (compiled timeline registry flags).filters).Nodup := by
  have htrimmed : ((trimmed timeline.segments).map trimmedPad).Nodup := by
    rw [List.Nodup, List.pairwise_map]
    have hnumbers := (List.pairwise_map.1 distinct).filter fun segment =>
      decide (segment.kind ≠ .frame)
    refine hnumbers.imp fun hne heq => hne ?_
    exact (Pad.segment.inj heq).2
  have hjoined : padsWritten (joins registry .audio timeline) ++
      (padsWritten (normalises flags timeline) ++ padsWritten (joins registry .video timeline)) <+
      [Pad.joined .audio, .normalised, .joined .video] := by
    rw [padsWritten_joins, padsWritten_joins, normalises]
    split <;> split <;> split <;> decide
  -- Segments have pads of their own, which are none of the joined ones.
  simp only [compiled, padsWritten_append, padsWritten_trims, List.append_assoc]
  refine List.nodup_append.2 ⟨htrimmed, hjoined.nodup (by decide), ?_⟩
  rintro pad hpad other hother rfl
  obtain ⟨segment, -, rfl⟩ := List.mem_map.1 hpad
  have hmem := hjoined.subset hother
  simp [trimmedPad] at hmem

/-! ## Order -/

/-- Every filter reads links that are among `written` or written by a filter before it. -/
def ReadsEarlier (written : List Pad) : List Filter → Prop
  | [] => True
  | filter :: rest =>
    (∀ pad ∈ filter.reads, pad.isLink = true → pad ∈ written) ∧
      ReadsEarlier (written ++ filter.writes) rest

theorem readsEarlier_append {written : List Pad} {filters others : List Filter} :
    ReadsEarlier written (filters ++ others) ↔
      ReadsEarlier written filters ∧ ReadsEarlier (written ++ padsWritten filters) others := by
  induction filters generalizing written with
  | nil => simp [ReadsEarlier, padsWritten]
  | cons filter rest ih =>
    have hwritten : written ++ padsWritten (filter :: rest) =
        written ++ filter.writes ++ padsWritten rest := by
      simp [padsWritten]
    rw [List.cons_append, ReadsEarlier, ReadsEarlier, ih, hwritten, and_assoc]

theorem readsEarlier_of_linksRead {written : List Pad} {filters : List Filter}
    (h : ∀ pad ∈ linksRead filters, pad ∈ written) : ReadsEarlier written filters := by
  induction filters generalizing written with
  | nil => exact trivial
  | cons filter rest ih =>
    have hlinks : linksRead (filter :: rest) =
        filter.reads.filter Pad.isLink ++ linksRead rest := by
      simp [linksRead]
    rw [hlinks] at h
    refine ⟨fun pad hpad hlink => ?_, ih fun pad hpad => ?_⟩
    · exact h pad (List.mem_append_left _ (List.mem_filter.2 ⟨hpad, hlink⟩))
    · exact List.mem_append_left _ (h pad (List.mem_append_right _ hpad))

/-- Trims come before joins, and joins before the normalisation of what they join. -/
theorem readsEarlier_compiled (timeline : ResolvedTimeline) (registry : Registry)
    (flags : RenderFlags) : ReadsEarlier [] (compiled timeline registry flags).filters := by
  have htrimmed : ∀ track, ∀ pad ∈ linksRead (joins registry track timeline),
      pad ∈ (trimmed timeline.segments).map trimmedPad := by
    intro track pad hpad
    rw [linksRead_joins] at hpad
    obtain ⟨segment, hsegment, rfl⟩ := List.mem_map.1 hpad
    obtain ⟨htrack, hkind⟩ := List.mem_filter.1 hsegment
    exact List.mem_map_of_mem (List.mem_filter.2 ⟨(List.mem_filter.1 htrack).1, hkind⟩)
  have hnormalised : ∀ pad ∈ linksRead (normalises flags timeline),
      pad ∈ padsWritten (joins registry .audio timeline) := by
    intro pad hpad
    rw [normalises] at hpad
    split at hpad
    · next hwanted =>
      rw [padsWritten_joins, if_neg hwanted.2]
      exact hpad
    · cases hpad
  simp only [compiled, readsEarlier_append, padsWritten_append, padsWritten_trims, List.nil_append]
  refine ⟨⟨⟨?_, ?_⟩, ?_⟩, ?_⟩
  · apply readsEarlier_of_linksRead
    rw [linksRead_trims]
    exact fun pad hpad => absurd hpad List.not_mem_nil
  · exact readsEarlier_of_linksRead (htrimmed .audio)
  · exact readsEarlier_of_linksRead fun pad hpad => List.mem_append_right _ (hnormalised pad hpad)
  · refine readsEarlier_of_linksRead fun pad hpad => ?_
    exact List.mem_append_left _ (List.mem_append_left _ (htrimmed .video pad hpad))

/-! ## From pads to labels -/

theorem labels_of_mapM_statement? {filters : List Filter} {program : List Statement}
    (h : filters.mapM Filter.statement? = some program) :
    labelsRead program = (filters.flatMap Filter.reads).map Pad.label ∧
      labelsWritten program = (padsWritten filters).map Pad.label := by
  induction filters generalizing program with
  | nil =>
    cases h
    exact ⟨rfl, rfl⟩
  | cons filter filters ih =>
    obtain ⟨statement, rest, hstatement, hrest, rfl⟩ := mapM_cons_eq_some_iff.1 h
    obtain ⟨hinputs, houtputs⟩ := Filter.labels_of_statement? hstatement
    obtain ⟨hread, hwritten⟩ := ih hrest
    refine ⟨?_, ?_⟩
    · rw [labelsRead, List.flatMap_cons, List.flatMap_cons, List.map_append, hinputs, ← hread]
      rfl
    · rw [labelsWritten, List.flatMap_cons, padsWritten, List.flatMap_cons, List.map_append,
        houtputs]
      rw [padsWritten] at hwritten
      rw [← hwritten]
      rfl

/-- A statement of a program is the statement of a filter, and so are those before it. -/
theorem exists_filter_of_split {filters : List Filter} {before after : List Statement}
    {statement : Statement}
    (h : filters.mapM Filter.statement? = some (before ++ statement :: after)) :
    ∃ front filter back, filters = front ++ filter :: back ∧
      front.mapM Filter.statement? = some before ∧ filter.statement? = some statement := by
  induction before generalizing filters with
  | nil =>
    cases filters with
    | nil => cases h
    | cons filter filters =>
      obtain ⟨first, rest, hfirst, -, hprogram⟩ := mapM_cons_eq_some_iff.1 h
      cases hprogram
      exact ⟨[], filter, filters, rfl, rfl, hfirst⟩
  | cons first before ih =>
    cases filters with
    | nil => cases h
    | cons filter filters =>
      obtain ⟨other, rest, hother, hrest, hprogram⟩ := mapM_cons_eq_some_iff.1 h
      cases hprogram
      obtain ⟨front, found, back, rfl, hfront, hfound⟩ := ih hrest
      refine ⟨filter :: front, found, back, rfl, ?_, hfound⟩
      rw [List.mapM_cons, hother, hfront]
      rfl

/-- The filters of a compiled graph: a trim for every segment that is no frame, a join for every
track on which something is played, and the normalisation of the audio. -/
theorem mem_compiled_iff {timeline : ResolvedTimeline} {registry : Registry} {flags : RenderFlags}
    {filter : Filter} :
    filter ∈ (compiled timeline registry flags).filters ↔
      (∃ segment ∈ timeline.segments, segment.kind ≠ .frame ∧
        filter = .trim segment.kind.track (segment.sourcePad registry) segment.punchIn
          segment.duration (trimmedPad segment)) ∨
      (∃ track, timeline.onTrack track ≠ [] ∧
        filter = .join track ((timeline.onTrack track).map (·.joinedPad registry))) ∨
      (flags.normalise = true ∧ timeline.onTrack .audio ≠ []) ∧ filter = .normalise := by
  have htrims : filter ∈ timeline.segments.flatMap (·.trims registry) ↔
      ∃ segment ∈ timeline.segments, segment.kind ≠ .frame ∧
        filter = .trim segment.kind.track (segment.sourcePad registry) segment.punchIn
          segment.duration (trimmedPad segment) := by
    simp only [List.mem_flatMap, Segment.trims, List.mem_ite_nil_left, List.mem_singleton,
      trimmedPad, ne_eq]
  have hjoins : ∀ track, filter ∈ joins registry track timeline ↔ timeline.onTrack track ≠ [] ∧
      filter = .join track ((timeline.onTrack track).map (·.joinedPad registry)) := by
    intro track
    simp only [joins, List.mem_ite_nil_left, List.mem_singleton, ne_eq]
  have hnormalises : filter ∈ normalises flags timeline ↔
      (flags.normalise = true ∧ timeline.onTrack .audio ≠ []) ∧ filter = .normalise := by
    simp only [normalises, List.mem_ite_nil_right, List.mem_singleton]
  have htracks : ∀ P : Track → Prop, (∃ track, P track) ↔ P .audio ∨ P .video := by
    intro P
    constructor
    · rintro ⟨track, htrack⟩
      cases track
      · exact .inl htrack
      · exact .inr htrack
    · rintro (haudio | hvideo)
      · exact ⟨_, haudio⟩
      · exact ⟨_, hvideo⟩
  simp only [compiled, List.mem_append, htrims, hjoins, hnormalises, htracks]
  constructor
  · rintro (((htrim | haudio) | hnormalise) | hvideo)
    · exact .inl htrim
    · exact .inr (.inl (.inl haudio))
    · exact .inr (.inr hnormalise)
    · exact .inr (.inl (.inr hvideo))
  · rintro (htrim | (haudio | hvideo) | hnormalise)
    · exact .inl (.inl (.inl htrim))
    · exact .inl (.inl (.inr haudio))
    · exact .inr hvideo
    · exact .inl (.inr hnormalise)

/-- Every filter of a compiled graph has a statement. -/
theorem exists_statements (timeline : ResolvedTimeline) (registry : Registry)
    (flags : RenderFlags) :
    ∃ program, (compiled timeline registry flags).filters.mapM Filter.statement? =
      some program := by
  have hall : ∀ filter ∈ (compiled timeline registry flags).filters,
      filter.statement? = some (filter.statement?.getD ⟨[], [], []⟩) := by
    intro filter hfilter
    rcases mem_compiled_iff.1 hfilter with
      ⟨segment, -, -, rfl⟩ | ⟨track, hplayed, rfl⟩ | ⟨-, rfl⟩
    · rfl
    · generalize timeline.onTrack track = segments at hplayed ⊢
      obtain _ | ⟨segment, _ | ⟨next, rest⟩⟩ := segments
      · exact absurd rfl hplayed
      · rfl
      · rfl
    · rfl
  exact ⟨_, mapM_eq_some_map hall⟩

/-- A label in a list that reads from pads is the label of a link among the pads. -/
theorem exists_link_of_mem {pads : List Pad} {label : String} (hlabel : label ∈ pads.map Pad.label)
    (hlink : IsLink label) : ∃ pad ∈ pads.filter Pad.isLink, pad.label = label := by
  obtain ⟨pad, hpad, rfl⟩ := List.mem_map.1 hlabel
  exact ⟨pad, List.mem_filter.2 ⟨hpad, (Pad.isLink_label_iff pad).1 hlink⟩, rfl⟩

theorem count_label {pads : List Pad} {pad : Pad} (hpad : pad.isLink = true) :
    (pads.map Pad.label).count pad.label = (pads.filter Pad.isLink).count pad := by
  induction pads with
  | nil => rfl
  | cons other pads ih =>
    rw [List.map_cons, List.count_cons, List.filter_cons, ih]
    by_cases hother : other.isLink = true
    · -- Labels of links are equal only for equal pads.
      have hiff : other.label = pad.label ↔ other = pad :=
        ⟨Pad.label_injective_of_isLink hother hpad, fun h => h ▸ rfl⟩
      simp [hother, List.count_cons, hiff]
    · -- A label of an input contains a colon, the label of a link does not.
      have hne : other.label ≠ pad.label := by
        intro h
        apply hother
        rw [← Pad.isLink_label_iff, h, Pad.isLink_label_iff]
        exact hpad
      simp [hother, hne]

theorem isLink_of_mem_padsWritten {timeline : ResolvedTimeline} {registry : Registry}
    {flags : RenderFlags} {pad : Pad}
    (h : pad ∈ padsWritten (compiled timeline registry flags).filters) : pad.isLink = true := by
  have hmem := (linksRead_append_mapped_perm timeline registry flags).mem_iff.2 h
  rcases List.mem_append.1 hmem with hmem | hmem
  · exact (List.mem_filter.1 hmem).2
  · simp only [mappedPads, List.mem_append, List.mem_ite_nil_left, List.mem_singleton] at hmem
    rcases hmem with ⟨-, rfl⟩ | ⟨-, rfl⟩
    · split <;> rfl
    · rfl

/-- Every statement of a program is the statement of a filter. -/
theorem exists_filter_of_mem {filters : List Filter} {program : List Statement}
    (h : filters.mapM Filter.statement? = some program) {statement : Statement}
    (hstatement : statement ∈ program) :
    ∃ filter ∈ filters, filter.statement? = some statement := by
  obtain ⟨before, after, rfl⟩ := List.append_of_mem hstatement
  obtain ⟨front, filter, back, rfl, -, hfilter⟩ := exists_filter_of_split h
  exact ⟨filter, by simp, hfilter⟩

/-- Every filter of a program has its statement in it. -/
theorem exists_statement_of_mem {filters : List Filter} {program : List Statement}
    (h : filters.mapM Filter.statement? = some program) {filter : Filter} (hfilter : filter ∈ filters) :
    ∃ statement ∈ program, filter.statement? = some statement := by
  induction filters generalizing program with
  | nil => cases hfilter
  | cons first filters ih =>
    obtain ⟨statement, rest, hstatement, hrest, rfl⟩ := mapM_cons_eq_some_iff.1 h
    rcases List.mem_cons.1 hfilter with rfl | hfilter
    · exact ⟨statement, List.mem_cons_self, hstatement⟩
    · obtain ⟨other, hother, hlater⟩ := ih hrest hfilter
      exact ⟨other, List.mem_cons_of_mem statement hother, hlater⟩

/-! ## Wiring of a compiled graph -/

section Compiled

variable {timeline : ResolvedTimeline} {registry : Registry} {flags : RenderFlags}
  {program : List Statement}

/-- Every link in a program is the label of a pad that a filter writes. -/
theorem exists_written_of_isLink
    (h : (compiled timeline registry flags).filters.mapM Filter.statement? = some program)
    {label : String} (hlabel : label ∈ labelsRead program ++ labelsWritten program)
    (hlink : IsLink label) :
    ∃ pad ∈ padsWritten (compiled timeline registry flags).filters, pad.label = label := by
  obtain ⟨hread, hwritten⟩ := labels_of_mapM_statement? h
  rw [hread, hwritten] at hlabel
  rcases List.mem_append.1 hlabel with hlabel | hlabel
  · -- What is read is written, since the pads that are read are among those that are written.
    obtain ⟨pad, hpad, rfl⟩ := exists_link_of_mem hlabel hlink
    have hperm := linksRead_append_mapped_perm timeline registry flags
    exact ⟨pad, hperm.subset (List.mem_append_left _ hpad), rfl⟩
  · obtain ⟨pad, hpad, rfl⟩ := List.mem_map.1 hlabel
    exact ⟨pad, hpad, rfl⟩

theorem count_labelsWritten (distinct : (timeline.segments.map Segment.number).Nodup)
    (h : (compiled timeline registry flags).filters.mapM Filter.statement? = some program)
    {pad : Pad} (hpad : pad ∈ padsWritten (compiled timeline registry flags).filters) :
    (labelsWritten program).count pad.label = 1 := by
  have hlinks : (padsWritten (compiled timeline registry flags).filters).filter Pad.isLink =
      padsWritten (compiled timeline registry flags).filters :=
    List.filter_eq_self.2 fun pad hpad => isLink_of_mem_padsWritten hpad
  rw [(labels_of_mapM_statement? h).2, count_label (isLink_of_mem_padsWritten hpad), hlinks]
  exact List.count_eq_one_of_mem (nodup_padsWritten distinct registry flags) hpad

theorem count_labelsRead_append_mapped
    (distinct : (timeline.segments.map Segment.number).Nodup)
    (h : (compiled timeline registry flags).filters.mapM Filter.statement? = some program)
    {pad : Pad} (hpad : pad ∈ padsWritten (compiled timeline registry flags).filters) :
    (labelsRead program ++ (mappedPads flags timeline).map Pad.label).count pad.label = 1 := by
  have hperm := linksRead_append_mapped_perm timeline registry flags
  have hlinks : (mappedPads flags timeline).filter Pad.isLink = mappedPads flags timeline :=
    List.filter_eq_self.2 fun pad hpad =>
      isLink_of_mem_padsWritten (hperm.subset (List.mem_append_right _ hpad))
  have honce := List.count_eq_one_of_mem (nodup_padsWritten distinct registry flags) hpad
  rw [(labels_of_mapM_statement? h).1, ← List.map_append,
    count_label (isLink_of_mem_padsWritten hpad), List.filter_append, hlinks]
  exact (hperm.count_eq pad).trans honce

/-- A link that a statement reads is written by a statement before it. -/
theorem mem_labelsWritten_of_split {before after : List Statement} {statement : Statement}
    (h : (compiled timeline registry flags).filters.mapM Filter.statement? =
      some (before ++ statement :: after))
    {label : String} (hlabel : label ∈ statement.inputs) (hlink : IsLink label) :
    label ∈ labelsWritten before := by
  obtain ⟨front, filter, back, hsplit, hfront, hfilter⟩ := exists_filter_of_split h
  have hearlier := readsEarlier_compiled timeline registry flags
  rw [hsplit, readsEarlier_append] at hearlier
  rw [(Filter.labels_of_statement? hfilter).1] at hlabel
  obtain ⟨pad, hpad, rfl⟩ := List.mem_map.1 hlabel
  rw [(labels_of_mapM_statement? hfront).2]
  exact List.mem_map_of_mem (hearlier.2.1 pad hpad ((Pad.isLink_label_iff pad).1 hlink))

/-- The statements of a compiled graph are wired, with the labels that the command maps. -/
theorem wired_compiled (distinct : (timeline.segments.map Segment.number).Nodup)
    (h : (compiled timeline registry flags).filters.mapM Filter.statement? = some program) :
    Wired program ((mappedPads flags timeline).map Pad.label) where
  single := by
    intro statement hstatement
    obtain ⟨filter, -, hfilter⟩ := exists_filter_of_mem h hstatement
    rw [(Filter.labels_of_statement? hfilter).2, List.length_map]
    cases filter with
    | verbatim text => cases hfilter
    | _ => rfl
  written := by
    intro label hlabel hlink
    obtain ⟨pad, hpad, rfl⟩ := exists_written_of_isLink h hlabel hlink
    exact count_labelsWritten distinct h hpad
  read := by
    intro label hlabel hlink
    obtain ⟨pad, hpad, rfl⟩ := exists_written_of_isLink h hlabel hlink
    exact count_labelsRead_append_mapped distinct h hpad
  ordered := by
    rintro before statement after rfl label hlabel hlink
    exact mem_labelsWritten_of_split h hlabel hlink
  closed := by
    intro label hlabel
    obtain ⟨pad, hpad, rfl⟩ := List.mem_map.1 hlabel
    have hperm := linksRead_append_mapped_perm timeline registry flags
    rw [(labels_of_mapM_statement? h).2]
    exact List.mem_map_of_mem (hperm.subset (List.mem_append_right _ hpad))
  joins := by
    intro statement hstatement
    obtain ⟨filter, -, hfilter⟩ := exists_filter_of_mem h hstatement
    exact Filter.joins_of_statement? hfilter

end Compiled

/-- The pads that the command of a compiled graph maps. -/
theorem mappedLabels?_ofGraph_compiled (timeline : ResolvedTimeline) (registry : Registry)
    (flags : RenderFlags) (output : Path) :
    RenderCommand.mappedLabels? (RenderCommand.ofGraph (compiled timeline registry flags) registry
      flags output).arguments = some ((mappedPads flags timeline).map Pad.label) := by
  rw [RenderCommand.mappedLabels?_arguments]
  simp only [RenderCommand.ofGraph, RenderCommand.audioPad, hasTrack_compiled, mappedPads]
  cases timeline.onTrack .audio <;> cases timeline.onTrack .video <;> rfl

end FilterGraph

namespace RenderCommand

/-- The labels through which the tracks of a timeline leave a program. -/
def trackLabels (flags : RenderFlags) (timeline : ResolvedTimeline) : List String :=
  (if ∃ segment ∈ timeline.segments, segment.kind = .audio then
      [if flags.normalise then "anorm" else "aconc"] else []) ++
    (if ∃ segment ∈ timeline.segments, segment.kind = .video ∨ segment.kind = .frame then
      ["vconc"] else [])

theorem map_label_mappedPads (flags : RenderFlags) (timeline : ResolvedTimeline) :
    (FilterGraph.mappedPads flags timeline).map Pad.label = trackLabels flags timeline := by
  have hkinds : ∀ kind : MediaKind, (kind.track = .audio ↔ kind = .audio) ∧
      (kind.track = .video ↔ kind = .video ∨ kind = .frame) := by
    intro kind
    cases kind <;> decide
  have haudio := timeline.onTrack_ne_nil_iff .audio
  have hvideo := timeline.onTrack_ne_nil_iff .video
  simp only [(hkinds _).1] at haudio
  simp only [(hkinds _).2] at hvideo
  simp only [FilterGraph.mappedPads, trackLabels, ← haudio, ← hvideo, ite_not]
  cases timeline.onTrack .audio <;> cases timeline.onTrack .video <;> cases flags.normalise <;> rfl

theorem trackLabels_ne_nil {timeline : ResolvedTimeline} (nonempty : timeline.segments ≠ [])
    (flags : RenderFlags) : trackLabels flags timeline ≠ [] := by
  obtain ⟨segment, hsegment⟩ := List.exists_mem_of_ne_nil _ nonempty
  rw [trackLabels]
  cases hkind : segment.kind with
  | audio =>
    rw [if_pos ⟨segment, hsegment, hkind⟩]
    exact List.cons_ne_nil _ _
  | video =>
    rw [if_pos (c := ∃ segment ∈ timeline.segments, segment.kind = .video ∨ segment.kind = .frame)
      ⟨segment, hsegment, Or.inl hkind⟩]
    simp
  | frame =>
    rw [if_pos (c := ∃ segment ∈ timeline.segments, segment.kind = .video ∨ segment.kind = .frame)
      ⟨segment, hsegment, Or.inr hkind⟩]
    simp

/-- The command for a compiled timeline is wired: every link of its program has one filter that
writes it and one later reader, the labels that it maps are written, and it maps the audio if there
is audio to play and the video if there are pictures to show. -/
theorem wired_of_compile {timeline : ResolvedTimeline} {registry : Registry} {flags : RenderFlags}
    {graph : FilterGraph} (nonempty : timeline.segments ≠ [])
    (distinct : (timeline.segments.map Segment.number).Nodup)
    (compiles : FilterGraph.compile timeline registry flags = .ok graph) (output : Path) :
    ∃ program mapped,
      Program.read? (ofGraph graph registry flags output).program = some program ∧
      mappedLabels? (ofGraph graph registry flags output).arguments = some mapped ∧
      Wired program mapped ∧ mapped = trackLabels flags timeline ∧ mapped ≠ [] := by
  obtain ⟨-, rfl⟩ := FilterGraph.compile_eq_ok_iff.1 compiles
  obtain ⟨program, hprogram⟩ := FilterGraph.exists_statements timeline registry flags
  refine ⟨program, trackLabels flags timeline, FilterGraph.read?_program hprogram, ?_, ?_, rfl,
    trackLabels_ne_nil nonempty flags⟩
  · rw [FilterGraph.mappedLabels?_ofGraph_compiled, map_label_mappedPads]
  · rw [← map_label_mappedPads]
    exact FilterGraph.wired_compiled distinct hprogram

theorem wired_interview :
    interview.segments ≠ [] ∧ (interview.segments.map Segment.number).Nodup ∧
      ∃ graph, FilterGraph.compile interview interviewFiles .standard = .ok graph ∧
        ∃ program mapped,
          Program.read? (ofGraph graph interviewFiles .standard "out.mov").program = some program ∧
          mappedLabels? (ofGraph graph interviewFiles .standard "out.mov").arguments =
            some mapped ∧
          Wired program mapped ∧ mapped = trackLabels .standard interview ∧ mapped ≠ [] :=
  ⟨by decide, by decide, _, compile_interview .standard,
    wired_of_compile (by decide) (by decide) (compile_interview .standard) "out.mov"⟩

end RenderCommand

end EpisodeCut
