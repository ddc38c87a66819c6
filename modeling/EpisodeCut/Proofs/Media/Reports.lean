import EpisodeCut.Media.Info
import EpisodeCut.Proofs.Json.Records
import EpisodeCut.Proofs.Timecode.Reading

/-!
# Reading reports on media files

A report may be written in any way that the grammar of JSON allows: with any white space and any
escapes, with its members in any order, and with others between them (`WrittenReport.Output`). It is
read as what it says (`WrittenReport.read_output`). The duration of the container decides
whether it is accepted, and the pictures are those of the first video stream alone
(`WrittenReport.ofOutput_describes`).
-/

set_option autoImplicit false

namespace EpisodeCut

open Json (Bytes Entry IsBlank ListText Presence Reader RecordText Schema StringText WordText)
open Text

/-! ## Counts -/

/-- A natural number in digits, which may have a plus sign in front and white space around them. -/
def CountText (text : String) (count : Nat) : Prop :=
  ∃ digits, (trim text.toList = digits ∨ trim text.toList = '+' :: digits) ∧ digits ≠ [] ∧
    (∀ c ∈ digits, c.isDigit = true) ∧ Numeral.value digits = count

theorem readBelow?_eq_some_iff {text : String} {bound count : Nat} :
    Numeral.readBelow? bound (trim text.toList) = some count ↔
      CountText text count ∧ count < bound := by
  rw [Numeral.readBelow?, Option.filter_eq_some_iff, Numeral.read?_eq_some_iff, decide_eq_true_iff,
    CountText]
  refine and_congr_left fun _ => ⟨fun h => ?_, ?_⟩
  · refine ⟨_, ?_, h⟩
    split
    · next hplus =>
      obtain ⟨more, hmore⟩ := List.head?_eq_some_iff.1 hplus
      rw [hmore]
      exact .inr rfl
    · exact .inl rfl
  · rintro ⟨digits, htext | htext, hnonempty, hdigits, hvalue⟩
    · have hplus : ¬(trim text.toList).head? = some '+' := by
        intro hplus
        rw [htext] at hplus
        have hdigit := hdigits '+' (List.mem_of_head? hplus)
        cases hdigit
      rw [if_neg hplus, htext]
      exact ⟨hnonempty, hdigits, hvalue⟩
    · rw [htext, if_pos (show ('+' :: digits).head? = some '+' from rfl)]
      exact ⟨hnonempty, hdigits, hvalue⟩

/-! ## Streams -/

/-- What is written about a stream. Each value may be missing or null. -/
structure WrittenStream where
  codecType : Presence String
  width : Presence UInt32
  height : Presence UInt32
  frames : Presence String

namespace WrittenStream

/-- The members that are given. -/
def entries (stream : WrittenStream) : List Entry :=
  [stream.codecType.entries "codec_type" StringText, stream.width.entries "width" WordText,
    stream.height.entries "height" WordText, stream.frames.entries "nb_frames" StringText].flatten

/-- The texts of a stream. -/
def Text (stream : WrittenStream) (s : Bytes) : Prop :=
  RecordText ["codec_type", "width", "height", "nb_frames"] stream.entries s

/-- What the stream is read as. -/
def report (stream : WrittenStream) : StreamReport :=
  ⟨stream.codecType.value?, stream.width.value?, stream.height.value?, stream.frames.value?⟩

/-- The changes that the members make. -/
def effects (stream : WrittenStream) : List (Schema.Effect StreamReport) :=
  [stream.codecType.effects "codec_type" id fun value report => { report with codecType := value },
    stream.width.effects "width" id fun value report => { report with width := value },
    stream.height.effects "height" id fun value report => { report with height := value },
    stream.frames.effects "nb_frames" id fun value report =>
      { report with frames := value }].flatten

theorem compatible_effects (stream : WrittenStream) :
    stream.effects.Pairwise StreamReport.schema.Compatible := by
  refine List.pairwise_flatten.2 ⟨?_, ?_⟩
  · simp only [List.forall_mem_cons]
    exact ⟨Presence.pairwise_effects _, Presence.pairwise_effects _, Presence.pairwise_effects _,
      Presence.pairwise_effects _, List.forall_mem_nil _⟩
  · simp only [List.pairwise_cons, List.forall_mem_cons]
    refine ⟨⟨?_, ?_, ?_, List.forall_mem_nil _⟩, ⟨?_, ?_, List.forall_mem_nil _⟩,
      ⟨?_, List.forall_mem_nil _⟩, List.forall_mem_nil _, .nil⟩ <;>
    exact Presence.compatible_effects _ _ (by decide) fun _ _ _ => rfl

theorem grants_entries (stream : WrittenStream) :
    List.Forall₂ StreamReport.schema.Grants stream.entries stream.effects := by
  have htext (content : String) (s : Bytes) (h : StringText content s) :
      Reader.text.Reads (id content) s := Reader.reads_text h
  have hword (n : UInt32) (s : Bytes) (h : WordText n s) : Reader.word.Reads (id n) s :=
    Reader.reads_word h
  exact List.rel_flatten
    (.cons (Presence.grants_entries rfl htext (fun _ _ => StringText.head?_ne) _)
      (.cons (Presence.grants_entries rfl hword (fun _ _ => WordText.head?_ne) _)
        (.cons (Presence.grants_entries rfl hword (fun _ _ => WordText.head?_ne) _)
          (.cons (Presence.grants_entries rfl htext (fun _ _ => StringText.head?_ne) _) .nil))))

theorem apply_effects (stream : WrittenStream) :
    Schema.apply StreamReport.schema.absent stream.effects = stream.report := by
  simp only [effects, List.flatten_cons, List.flatten_nil]
  rw [Presence.apply_effects _ rfl, Presence.apply_effects _ rfl, Presence.apply_effects _ rfl,
    Presence.apply_effects _ rfl]
  simp only [Option.map_id, id_eq]
  rfl

theorem reads_text {stream : WrittenStream} {s : Bytes} (text : stream.Text s) :
    StreamReport.schema.reader.Reads stream.report s := by
  rw [← stream.apply_effects]
  exact Schema.reads_record text stream.grants_entries stream.compatible_effects

end WrittenStream

/-! ## Reports -/

/-- The texts of a container whose duration is given, missing or null. -/
def FormatText (duration : Presence String) (s : Bytes) : Prop :=
  RecordText ["duration"] (duration.entries "duration" StringText) s

theorem reads_formatText {duration : Presence String} {s : Bytes} (text : FormatText duration s) :
    FormatReport.schema.reader.Reads ⟨duration.value?⟩ s := by
  have happly : Schema.apply FormatReport.schema.absent
      (duration.effects "duration" id fun value format => { format with duration := value }) =
        ⟨duration.value?⟩ := by
    rw [← List.append_nil (Presence.effects _ _ _ _), Presence.apply_effects _ rfl, Option.map_id]
    rfl
  rw [← happly]
  refine Schema.reads_record text (Presence.grants_entries rfl (fun content s h => ?_)
    (fun _ _ => StringText.head?_ne) _) (Presence.pairwise_effects _)
  exact Reader.reads_text h

/-- What is written in a report. -/
structure WrittenReport where
  /-- The streams, which may be missing but not null. -/
  streams : Option (List WrittenStream)
  /-- The duration of the container, if the report has a container. -/
  format : Presence (Presence String)

namespace WrittenReport

/-- The members that are given. -/
def entries (report : WrittenReport) : List Entry :=
  [report.streams.toList.map fun streams => ("streams", ListText WrittenStream.Text streams),
    report.format.entries "format" FormatText].flatten

/-- The outputs in which the report is written. -/
def Output (report : WrittenReport) (output : Bytes) : Prop :=
  ∃ before s after, IsBlank before ∧ IsBlank after ∧
    RecordText ["streams", "format"] report.entries s ∧ output = before ++ (s ++ after)

/-- What the report is read as. -/
def report (report : WrittenReport) : ProbeReport :=
  ⟨(report.streams.getD []).map WrittenStream.report,
    report.format.value?.map fun duration => ⟨duration.value?⟩⟩

/-- The changes that the members make. -/
def effects (report : WrittenReport) : List (Schema.Effect ProbeReport) :=
  [report.streams.toList.map fun streams =>
      ("streams", fun report => { report with streams := streams.map WrittenStream.report }),
    report.format.effects "format" (fun duration => FormatReport.mk duration.value?)
      fun value report => { report with format := value }].flatten

theorem compatible_effects (report : WrittenReport) :
    report.effects.Pairwise ProbeReport.schema.Compatible := by
  refine List.pairwise_flatten.2 ⟨?_, ?_⟩
  · simp only [List.forall_mem_cons]
    refine ⟨?_, Presence.pairwise_effects _, List.forall_mem_nil _⟩
    cases report.streams with
    | none => exact .nil
    | some streams => exact List.pairwise_singleton _ _
  · simp only [List.pairwise_cons, List.forall_mem_cons]
    refine ⟨⟨fun effect heffect other hother => ?_, List.forall_mem_nil _⟩,
      List.forall_mem_nil _, .nil⟩
    obtain ⟨streams, -, rfl⟩ := List.mem_map.1 heffect
    obtain ⟨value, rfl⟩ := Presence.exists_put_of_mem_effects hother
    exact ⟨fun h => absurd h (show "streams" ≠ "format" by decide), fun _ => rfl⟩

theorem grants_entries (report : WrittenReport) :
    List.Forall₂ ProbeReport.schema.Grants report.entries report.effects := by
  have hformat (duration : Presence String) (s : Bytes) (h : FormatText duration s) :
      FormatReport.schema.reader.Reads ⟨duration.value?⟩ s := reads_formatText h
  refine List.rel_flatten (.cons ?_
    (.cons (Presence.grants_entries rfl hformat (fun _ _ => RecordText.head?_ne) _) .nil))
  cases report.streams with
  | none => exact .nil
  | some streams =>
    have hfield : ProbeReport.schema.field? "streams" = some
        ⟨"streams",
          StreamReport.schema.reader.list.map fun value report => { report with streams := value },
          true⟩ := rfl
    have hgrants : ProbeReport.schema.Grants ("streams", ListText WrittenStream.Text streams) _ :=
      Schema.grants_field hfield fun _ hs =>
        Reader.reads_list hs fun _ _ => WrittenStream.reads_text
    exact .cons hgrants .nil

theorem apply_effects (report : WrittenReport) :
    Schema.apply ProbeReport.schema.absent report.effects = report.report := by
  obtain ⟨streams, format⟩ := report
  cases streams with
  | none =>
    simp only [effects, List.flatten_cons, List.flatten_nil, Option.toList_none, List.map_nil,
      List.nil_append]
    rw [Presence.apply_effects _ rfl]
    rfl
  | some streams =>
    simp only [effects, List.flatten_cons, List.flatten_nil, Option.toList_some, List.map_cons,
      List.map_nil, List.cons_append, List.nil_append]
    change Schema.apply (ProbeReport.mk (streams.map WrittenStream.report) none) _ = _
    rw [Presence.apply_effects _ rfl]
    rfl

/-- A report is read as what it says, however it is written. -/
theorem read_output {report : WrittenReport} {output : Bytes} (written : report.Output output) :
    ProbeReport.read output = .ok report.report := by
  obtain ⟨before, s, after, hbefore, hafter, hrecord, rfl⟩ := written
  have hreads : ProbeReport.schema.reader.Reads report.report s := by
    rw [← report.apply_effects]
    exact Schema.reads_record hrecord report.grants_entries report.compatible_effects
  exact Json.read_blank hreads hbefore hafter

end WrittenReport

/-! ## What is known about the file -/

/-- The first of the streams that are video. -/
def FirstVideo (streams : List WrittenStream) (stream : WrittenStream) : Prop :=
  ∃ before after, streams = before ++ stream :: after ∧ stream.codecType = .present "video" ∧
    ∀ other ∈ before, other.codecType ≠ .present "video"

theorem isVideo_report_iff {stream : WrittenStream} :
    decide (stream.report.codecType = some "video") = true ↔
      stream.codecType = .present "video" := by
  rw [decide_eq_true_iff]
  exact Presence.value?_eq_some_iff

theorem FirstVideo.find? {streams : List WrittenStream} {stream : WrittenStream}
    (h : FirstVideo streams stream) :
    (streams.map WrittenStream.report).find? (·.codecType = some "video") = some stream.report := by
  obtain ⟨before, after, rfl, hvideo, hbefore⟩ := h
  rw [List.map_append, List.map_cons]
  refine List.find?_eq_some_iff_append.2
    ⟨isVideo_report_iff.2 hvideo, _, _, rfl, fun report hreport => ?_⟩
  obtain ⟨other, hother, rfl⟩ := List.mem_map.1 hreport
  rw [Bool.not_eq_true', ← Bool.not_eq_true, isVideo_report_iff]
  exact hbefore other hother

theorem find?_eq_none_of_no_video {streams : List WrittenStream}
    (h : ∀ stream ∈ streams, stream.codecType ≠ .present "video") :
    (streams.map WrittenStream.report).find? (·.codecType = some "video") = none := by
  refine List.find?_eq_none.2 fun report hreport => ?_
  obtain ⟨stream, hstream, rfl⟩ := List.mem_map.1 hreport
  rw [isVideo_report_iff]
  exact h stream hstream

/-- The pictures are those of the stream: its size if it is known and not zero, and its number of
frames if that is a count of at most 64 binary digits. -/
structure WrittenStream.Shows (stream : WrittenStream) (info : MediaInfo) : Prop where
  size (size : FrameSize) : info.videoSize = some size ↔
    stream.width = .present size.width ∧ stream.height = .present size.height ∧
      0 < size.width ∧ 0 < size.height
  frames (count : Nat) : info.videoFrames = some count ↔
    ∃ text, stream.frames = .present text ∧ CountText text count ∧ count < UInt64.size

theorem sizeOf_eq_some_iff {stream : StreamReport} {size : FrameSize} :
    MediaInfo.sizeOf stream = some size ↔
      stream.width = some size.width ∧ stream.height = some size.height ∧
        0 < size.width ∧ 0 < size.height := by
  obtain ⟨codecType, width, height, frames⟩ := stream
  obtain ⟨w, h⟩ := size
  cases width with
  | none => simp [MediaInfo.sizeOf]
  | some width =>
    cases height with
    | none => simp [MediaInfo.sizeOf]
    | some height =>
      simp only [MediaInfo.sizeOf, Option.ite_none_right_eq_some, Option.some.injEq,
        FrameSize.mk.injEq]
      constructor
      · rintro ⟨hsize, rfl, rfl⟩
        exact ⟨rfl, rfl, hsize⟩
      · rintro ⟨rfl, rfl, hsize⟩
        exact ⟨hsize, rfl, rfl⟩

theorem sizeOf_report_eq_some_iff {stream : WrittenStream} {size : FrameSize} :
    MediaInfo.sizeOf stream.report = some size ↔
      stream.width = .present size.width ∧ stream.height = .present size.height ∧
        0 < size.width ∧ 0 < size.height := by
  rw [sizeOf_eq_some_iff, WrittenStream.report, Presence.value?_eq_some_iff,
    Presence.value?_eq_some_iff]

theorem framesOf_report_eq_some_iff {stream : WrittenStream} {count : Nat} :
    MediaInfo.framesOf stream.report = some count ↔
      ∃ text, stream.frames = .present text ∧ CountText text count ∧ count < UInt64.size := by
  simp only [MediaInfo.framesOf, WrittenStream.report, Option.bind_eq_some_iff,
    Presence.value?_eq_some_iff, readBelow?_eq_some_iff]

namespace WrittenReport

/-- The duration that is written, if there is one. -/
def duration? (report : WrittenReport) : Option String :=
  report.format.value?.bind Presence.value?

/-- What is known about the file is the duration, and what is written about the first video stream
alone. -/
structure Describes (report : WrittenReport) (duration : Timecode) (info : MediaInfo) : Prop where
  duration : info.duration = duration
  video (stream : WrittenStream) (first : FirstVideo (report.streams.getD []) stream) :
    stream.Shows info
  noVideo (h : ∀ stream ∈ report.streams.getD [], stream.codecType ≠ .present "video") :
    info.videoSize = none ∧ info.videoFrames = none

theorem duration_report (report : WrittenReport) :
    report.report.format.bind FormatReport.duration = report.duration? := by
  rw [WrittenReport.report, duration?]
  cases report.format.value? <;> rfl

theorem describes_ofReport (report : WrittenReport) (duration : Timecode) :
    report.Describes duration
      ⟨duration, (report.report.streams.find? (·.codecType = some "video")).bind MediaInfo.sizeOf,
        (report.report.streams.find? (·.codecType = some "video")).bind MediaInfo.framesOf⟩ where
  duration := rfl
  video stream first := by
    rw [WrittenReport.report, first.find?]
    exact ⟨fun _ => sizeOf_report_eq_some_iff, fun _ => framesOf_report_eq_some_iff⟩
  noVideo h := by
    rw [WrittenReport.report, find?_eq_none_of_no_video h]
    exact ⟨rfl, rfl⟩

/-- In whatever way a report is written, its output is read for the duration and the first video
stream. Without a duration that can be read it is refused. -/
theorem ofOutput_describes {report : WrittenReport} {output : Bytes}
    (written : report.Output output) (path : Path) :
    (report.duration? = none → MediaInfo.ofOutput output path =
      .error (.tool probeTool "read duration" path .missingDuration)) ∧
    (∀ text, report.duration? = some text → Timecode.ofText? text = none →
      MediaInfo.ofOutput output path = .error (.tool probeTool "read duration" path
        (.unreadableDuration (String.ofList (trim text.toList))))) ∧
    ∀ text duration, report.duration? = some text → Timecode.ofText? text = some duration →
      ∃ info, MediaInfo.ofOutput output path = .ok info ∧ report.Describes duration info := by
  rw [MediaInfo.ofOutput, report.read_output written]
  simp only [MediaInfo.ofReport, MediaInfo.durationOf, duration_report]
  refine ⟨fun hduration => ?_, fun text hduration htext => ?_,
    fun text duration hduration htext => ?_⟩
  · rw [hduration]
    rfl
  · rw [hduration]
    simp only [htext]
    rfl
  · rw [hduration]
    simp only [htext]
    exact ⟨_, rfl, report.describes_ofReport duration⟩

/-- A report on two streams. -/
def sample : WrittenReport where
  streams := some [⟨.present "video", .present 2, .present 4, .absent⟩,
    ⟨.present "video", .present 8, .absent, .null⟩]
  format := .present (.present "7")

/-- The report with its members in another order, with a member of another name and an escape. -/
def sampleOutput : Bytes :=
  Json.ascii "\n\x7b\"x\":[],\"format\": \x7b\"duration\":\"\\u0037\"\x7d,\"streams\":[" ++
    (Json.ascii "\x7b\"height\":4,\"width\":2,\"codec_type\":\"video\"\x7d," ++
      Json.ascii "\x7b\"codec_type\":\"video\",\"width\":8,\"nb_frames\":null\x7d]\x7d")

theorem output_sample : sample.Output sampleOutput := by
  have hblank : IsBlank [] := Json.isBlank_nil
  have hspace : IsBlank [0x20] := List.forall_mem_singleton.2 rfl
  have hline : IsBlank [0x0A] := List.forall_mem_singleton.2 rfl
  have htype : StringText "codec_type" _ := Json.stringText_plain rfl
  have hvideo : StringText "video" _ := Json.stringText_plain rfl
  have hwidth : StringText "width" _ := Json.stringText_plain rfl
  have hheight : StringText "height" _ := Json.stringText_plain rfl
  have htwo : WordText 2 [0x32] := rfl
  have hfour : WordText 4 [0x34] := rfl
  have hlarge : WordText 8 [0x38] := rfl
  have hfirst : WrittenStream.Text ⟨.present "video", .present 2, .present 4, .absent⟩ _ :=
    ⟨[], _, _, List.forall_mem_nil _, List.reverse_perm _,
      .cons ⟨hheight, hfour⟩ (.cons ⟨hwidth, htwo⟩ (.cons ⟨htype, hvideo⟩ .nil)), _,
      .cons (.pair hblank hblank) (.cons (.pair hblank hblank) (.cons (.pair hblank hblank) .nil)),
      .items (.cons hblank hblank (.cons hblank hblank (.last hblank hblank)))⟩
  have hsecond : WrittenStream.Text ⟨.present "video", .present 8, .absent, .null⟩ _ :=
    ⟨[], _, _, List.forall_mem_nil _, .refl _,
      .cons ⟨htype, hvideo⟩ (.cons ⟨hwidth, hlarge⟩
        (.cons ⟨Json.stringText_plain rfl, rfl⟩ .nil)), _,
      .cons (.pair hblank hblank) (.cons (.pair hblank hblank) (.cons (.pair hblank hblank) .nil)),
      .items (.cons hblank hblank (.cons hblank hblank (.last hblank hblank)))⟩
  have hstreams : ListText WrittenStream.Text _ _ :=
    ⟨_, .cons hfirst (.cons hsecond .nil), .items (.cons hblank hblank (.last hblank hblank))⟩
  have hdigits : Json.UnitText '7'.toNat (Json.ascii "0037") :=
    .digits (i := 0) (j := 0) (k := 3) (l := 7) ⟨by decide, .inl rfl⟩ ⟨by decide, .inl rfl⟩
      ⟨by decide, .inl rfl⟩ ⟨by decide, .inl rfl⟩
  have hseven : StringText "7" _ := .quoted (.cons (.unit hdigits) .nil)
  have hformat : FormatText (.present "7") _ :=
    ⟨[], _, _, List.forall_mem_nil _, .refl _,
      .cons ⟨Json.stringText_plain rfl, hseven⟩ .nil, _,
      .cons (.pair hblank hblank) .nil, .items (.last hblank hblank)⟩
  have hother : Json.ValueText _ := .array (List.forall_mem_nil _) (.empty hblank)
  refine ⟨[0x0A], _, [], hline, hblank, ⟨[("x", Json.ValueText)], _, _, ?_, List.reverse_perm _,
    .cons ⟨Json.stringText_plain rfl, hother⟩
      (.cons ⟨Json.stringText_plain rfl, hformat⟩
        (.cons ⟨Json.stringText_plain rfl, hstreams⟩ .nil)), _,
    .cons (.pair hblank hblank) (.cons (.pair hblank hspace) (.cons (.pair hblank hblank) .nil)),
    .items (.cons hblank hblank (.cons hblank hblank (.last hblank hblank)))⟩, ?_⟩
  · exact List.forall_mem_singleton.2 ⟨by decide, rfl⟩
  · decide +kernel

/-- The report is read with the duration and the picture size of its first stream. -/
theorem ofOutput_describes_sample : sample.Output sampleOutput ∧
    ∃ info, MediaInfo.ofOutput sampleOutput "talk.mp4" = .ok info ∧
      info.duration.toNat = 7000 ∧ info.videoSize = some ⟨2, 4⟩ ∧ info.videoFrames = none := by
  obtain ⟨-, -, hread⟩ := ofOutput_describes output_sample "talk.mp4"
  have hseven : Timecode.ofText? "7" = some ⟨7000⟩ := by decide +kernel
  obtain ⟨info, hinfo, hdescribes⟩ := hread "7" ⟨7000⟩ rfl hseven
  have hfirst : FirstVideo (sample.streams.getD [])
      ⟨.present "video", .present 2, .present 4, .absent⟩ :=
    ⟨[], _, rfl, rfl, List.forall_mem_nil _⟩
  have hshows := hdescribes.video _ hfirst
  refine ⟨output_sample, info, hinfo, ?_, ?_, ?_⟩
  · rw [hdescribes.duration]
    rfl
  · exact (hshows.size ⟨2, 4⟩).2 ⟨rfl, rfl, by decide, by decide⟩
  · refine Option.eq_none_iff_forall_ne_some.2 fun count hcount => ?_
    obtain ⟨text, htext, -⟩ := (hshows.frames count).1 hcount
    cases htext

end WrittenReport

end EpisodeCut
