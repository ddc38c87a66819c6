import EpisodeCut.Proofs.Config.Recognized

/-!
# What a configuration can say

Every specification that is read is well formed (`parse_wellFormed`): its files have the names of
files, only frames come from the previous segment or are the last of their source, and its times are
points that fit into a timecode, or one such point and a duration. What is read is derived by the
grammar, and a derivation of a part has all that is said of this part.
-/

set_option autoImplicit false

namespace EpisodeCut.Config

open Text

variable {rules : Rules}

/-! ## Inputs -/

/-- The names of files are such, and what only frames can have is a frame's. -/
structure Input.WellFormed (input : Input) : Prop where
  file : ∀ file, input.source = some (.file file) → IsFileName file
  previous : input.source = some .previousSegment → input.kind = .frame
  last : input.index = some .last → input.kind = .frame

theorem FileName.isFileName (name : FileName) : IsFileName (String.ofList name.text) where
  nonempty := by
    intro h
    have hlist := congrArg String.toList h
    rw [String.toList_ofList] at hlist
    cases hlist
  starts := by
    rw [String.toList_ofList]
    intro c hc
    cases hc
    exact name.starts
  admitted := by
    rw [String.toList_ofList]
    exact fun c hc => isNameChar_of_mem_text hc
  trimmed := by
    rw [String.toList_ofList]
    exact isWhiteSpace_last_eq_false name

theorem SourceText.isFileName {kind : MediaKind} {s rest : List Char} {file : String}
    (h : SourceText rules kind s (some (.file file)) rest) : IsFileName file := by
  cases h with
  | file name text => exact name.isFileName

theorem SourceText.kind_eq_frame {kind : MediaKind} {s rest : List Char}
    (h : SourceText rules kind s (some .previousSegment) rest) : kind = .frame := by
  cases h
  rfl

theorem IndexText.kind_eq_frame {kind : MediaKind} {s rest : List Char}
    (h : IndexText kind s .last rest) : kind = .frame := by
  cases h <;> rfl

theorem InputText.wellFormed {kindOnly : Bool} {s rest : List Char} {input : Input}
    (h : InputText rules kindOnly s input rest) : input.WellFormed := by
  cases h with
  | kindOnly word => exact ⟨by simp, by simp, by simp⟩
  | sourced word colon file =>
    refine ⟨?_, ?_, by simp⟩
    · rintro _ rfl
      exact file.isFileName
    · rintro rfl
      exact file.kind_eq_frame
  | indexed word colon file indexColon index =>
    refine ⟨?_, ?_, ?_⟩
    · rintro _ rfl
      exact file.isFileName
    · rintro rfl
      exact file.kind_eq_frame
    · intro hlast
      cases hlast
      exact index.kind_eq_frame

theorem InputsText.wellFormed {s rest : List Char} {inputs : List Input}
    (h : InputsText rules s inputs rest) : ∀ input ∈ inputs, input.WellFormed := by
  induction h with
  | last text => exact List.forall_mem_singleton.2 text.wellFormed
  | cons first allowed colon following ih => exact List.forall_mem_cons.2 ⟨first.wellFormed, ih⟩

/-! ## Times -/

/-- A clock reading whose fraction is one of a second, and which denotes a timecode. -/
structure SoundClock (clock : ClockTime) : Prop where
  places : clock.millis.toNat < 1000
  fits : ∃ point, clock.toTimecode? = some point

/-- Points only. -/
def Points (times : List TimeToken) : Prop :=
  ∀ token ∈ times, ∃ clock, token = .timestamp clock ∧ SoundClock clock

/-- The times that can be written: any number of points, or a point and the duration of a file. -/
inductive SoundTimes : List TimeToken → Prop
  | points {times : List TimeToken} : Points times → SoundTimes times
  | span {clock : ClockTime} {file : String} :
      SoundClock clock → IsFileName file → SoundTimes [.timestamp clock, .durationOf file]

theorem FieldsText.millis_eq {s rest : List Char} {clock : ClockTime}
    (h : FieldsText s clock rest) : clock.millis = 0 := by
  cases h <;> rfl

theorem ClockText.sound {s rest : List Char} {clock : ClockTime} (h : ClockText s clock rest) :
    SoundClock clock := by
  cases h with
  | whole fields inRange =>
    refine ⟨?_, Option.isSome_iff_exists.1 (isSome_toTimecode?.2 inRange)⟩
    rw [fields.millis_eq]
    decide
  | fraction fields nonempty inside value inRange =>
    refine ⟨?_, Option.isSome_iff_exists.1 (isSome_toTimecode?.2 inRange)⟩
    simp only [value]
    rw [← Timecode.fractionMillis_eq inside]
    exact Timecode.fractionMillis_lt inside

theorem PointsText.sound {s rest : List Char} {clocks : List ClockTime}
    (h : PointsText s clocks rest) : ∀ clock ∈ clocks, SoundClock clock := by
  induction h with
  | last text => exact List.forall_mem_singleton.2 text.sound
  | cons first apart following ih => exact List.forall_mem_cons.2 ⟨first.sound, ih⟩

theorem soundClock_zero : SoundClock .zero :=
  ⟨by decide, .zero, by decide⟩

theorem TimesText.sound {s rest : List Char} {times : List TimeToken}
    (h : TimesText s times rest) : SoundTimes times := by
  cases h with
  | none => exact .points fun token htoken => absurd htoken List.not_mem_nil
  | reference reference =>
    obtain ⟨afterSign, name, -, -, rfl⟩ := reference
    exact .span soundClock_zero name.isFileName
  | span before text reference =>
    obtain ⟨afterSign, name, -, -, rfl⟩ := reference
    exact .span text.sound name.isFileName
  | points before text =>
    refine .points fun token htoken => ?_
    obtain ⟨clock, hclock, rfl⟩ := List.mem_map.1 htoken
    exact ⟨clock, rfl, text.sound clock hclock⟩

/-! ## Specifications -/

/-- What can be said of one input: its files have the names of files, only frames come from the
previous segment or are the last of their source, and its times can be written. -/
structure WellFormed (spec : InputSpec) : Prop where
  file : ∀ file, spec.source = some (.file file) → IsFileName file
  previous : spec.source = some .previousSegment → spec.kind = .frame
  last : spec.index = some .last → spec.kind = .frame
  times : SoundTimes spec.times

theorem GroupText.wellFormed {s rest : List Char} {specs : List InputSpec}
    (h : GroupText rules s specs rest) : ∀ spec ∈ specs, WellFormed spec := by
  obtain ⟨opening, heads, closing, timing⟩ := h
  intro spec hspec
  -- All inputs of a group have the times of the group.
  obtain ⟨input, hinput, rfl⟩ := List.mem_map.1 hspec
  obtain ⟨hfile, hprevious, hlast⟩ := heads.wellFormed input hinput
  exact ⟨hfile, hprevious, hlast, timing.sound⟩

theorem ConfigText.wellFormed {s : List Char} {specs : List InputSpec}
    (h : ConfigText rules s specs) : ∀ spec ∈ specs, WellFormed spec := by
  induction h with
  | nil blank => exact fun spec hspec => absurd hspec List.not_mem_nil
  | cons first following ih => exact List.forall_mem_append.2 ⟨first.wellFormed, ih⟩

/-- A configuration that is accepted consists of well-formed specifications. -/
theorem parse_wellFormed {text : String} {specs : List InputSpec} (h : parse text = .ok specs) :
    ∀ spec ∈ specs, WellFormed spec :=
  (parse_eq_ok_iff.1 h).wellFormed

/-- A source whose name, if it is a file, consists of name characters. -/
def NamedSource (source : Option SourceRef) : Prop :=
  ∀ file, source = some (.file file) → ∀ c ∈ file.toList, isNameChar c = true

/-- The files of a parsed configuration have names of name characters. -/
theorem parse_named {text : String} {specs : List InputSpec} (h : parse text = .ok specs) :
    ∀ spec ∈ specs, NamedSource spec.source := by
  intro spec hspec file hfile
  exact ((parse_wellFormed h spec hspec).file file hfile).admitted

end EpisodeCut.Config
