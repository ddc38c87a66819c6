import EpisodeCut.Proofs.Config.Written
import EpisodeCut.Proofs.Text.Numeral

/-!
# The grammar of configurations

The grammar as relations: `GroupText rules s specs rest` says that `s` is the text of a bracket
group that makes the specifications `specs`, and then `rest`; likewise for the other parts. Layout
may stand before a token, and a timestamp is one token. A text can have several derivations, since
the same colon opens a field of an input and separates two inputs.

Two points on which grammars of this language differ are parameters (`Rules`): whether an input that
is only its kind may stand before another one, and whether a frame may leave out its file once the
colon of the file stands there.
-/

set_option autoImplicit false

namespace EpisodeCut.Config

open Text

/-! ## Tokens -/

/-- `s` is layout and then `rest`. -/
def Layout (s rest : List Char) : Prop :=
  ∃ gap : Gap, s = gap.text ++ rest

/-- `s` is layout that separates two tokens, and then `rest`. -/
def Separation (s rest : List Char) : Prop :=
  ∃ gap : Gap, gap ≠ [] ∧ s = gap.text ++ rest

/-- Only layout is left. The last comment need not end in a line break. -/
def Blank (s : List Char) : Prop :=
  ∃ gap : Gap, s = gap.text ∨ ∃ line : List Char, '\n' ∉ line ∧ s = gap.text ++ '#' :: line

theorem Gap.layout (gap : Gap) (s : List Char) : Layout (gap.text ++ s) s :=
  ⟨gap, rfl⟩

theorem Layout.refl (s : List Char) : Layout s s :=
  ⟨[], rfl⟩

theorem Layout.trans {s t rest : List Char} (first : Layout s t) (next : Layout t rest) :
    Layout s rest := by
  obtain ⟨gap, rfl⟩ := first
  obtain ⟨more, rfl⟩ := next
  refine ⟨gap ++ more, ?_⟩
  rw [Gap.text, Gap.text, Gap.text, List.flatMap_append, List.append_assoc]

theorem Layout.filler (filler : Filler) {s rest : List Char} (h : Layout s rest) :
    Layout (filler.text ++ s) rest := by
  obtain ⟨gap, rfl⟩ := h
  refine ⟨filler :: gap, ?_⟩
  rw [Gap.text, Gap.text, List.flatMap_cons, List.append_assoc]

theorem Blank.filler (filler : Filler) {s : List Char} (h : Blank s) : Blank (filler.text ++ s) := by
  obtain ⟨gap, rfl | ⟨line, whole, rfl⟩⟩ := h
  · refine ⟨filler :: gap, .inl ?_⟩
    rw [Gap.text, Gap.text, List.flatMap_cons]
  · refine ⟨filler :: gap, .inr ⟨line, whole, ?_⟩⟩
    rw [Gap.text, Gap.text, List.flatMap_cons, List.append_assoc]

theorem Separation.layout {s rest : List Char} (h : Separation s rest) : Layout s rest := by
  obtain ⟨gap, -, hs⟩ := h
  exact ⟨gap, hs⟩

theorem Layout.skipBlank_eq {s rest : List Char} (h : Layout s rest) :
    skipBlank s = skipBlank rest := by
  obtain ⟨gap, rfl⟩ := h
  exact skipBlank_gap gap rest

theorem Layout.skipBlank_cons {s rest : List Char} {c : Char} (h : Layout s (c :: rest))
    (solid : isSolid c = true) : skipBlank s = c :: rest := by
  rw [h.skipBlank_eq, skipBlank_of_isSolid solid]

theorem skipComment_of_not_mem {line : List Char} (whole : '\n' ∉ line) : skipComment line = [] := by
  induction line with
  | nil => rfl
  | cons c line ih =>
    rw [List.mem_cons, not_or] at whole
    rw [skipComment, if_neg (by simpa using Ne.symm whole.1), ih whole.2]

theorem Blank.skipBlank_eq {s : List Char} (h : Blank s) : skipBlank s = [] := by
  obtain ⟨gap, rfl | ⟨line, whole, rfl⟩⟩ := h
  · have hgap := skipBlank_gap gap []
    rwa [List.append_nil] at hgap
  · rw [skipBlank_gap, skipBlank, if_neg (by decide), if_pos (by decide),
      skipComment_of_not_mem whole]

mutual

/-- What is skipped is layout up to the next token, or all that is left. -/
theorem layout_or_blank_of_skipBlank : ∀ s : List Char,
    Layout s (skipBlank s) ∨ skipBlank s = [] ∧ Blank s
  | [] => .inl (Layout.refl [])
  | c :: rest => by
    rw [skipBlank]
    split
    · next hlayout =>
      rcases layout_or_blank_of_skipBlank rest with h | ⟨hend, h⟩
      · exact .inl (h.filler (.blank c hlayout))
      · exact .inr ⟨hend, h.filler (.blank c hlayout)⟩
    · split
      · next hcomment =>
        obtain rfl := beq_iff_eq.1 hcomment
        rcases layout_or_blank_of_skipComment rest with ⟨hend, hwhole⟩ | ⟨line, t, hwhole, rfl, h⟩
        · exact .inr ⟨hend, [], .inr ⟨rest, hwhole, rfl⟩⟩
        · have htext : '#' :: (line ++ '\n' :: t) = (Filler.comment line hwhole).text ++ t := by
            rw [Filler.text, List.cons_append, List.cons_append, List.append_assoc]
            rfl
          rw [htext]
          rcases h with h | ⟨hend, h⟩
          · exact .inl (h.filler _)
          · exact .inr ⟨hend, h.filler _⟩
      · exact .inl (Layout.refl _)

/-- A comment takes all that is left, or it has an end with layout behind it. -/
theorem layout_or_blank_of_skipComment : ∀ s : List Char,
    (skipComment s = [] ∧ '\n' ∉ s) ∨ ∃ line t : List Char, '\n' ∉ line ∧ s = line ++ '\n' :: t ∧
      (Layout t (skipComment s) ∨ skipComment s = [] ∧ Blank t)
  | [] => .inl ⟨rfl, List.not_mem_nil⟩
  | c :: rest => by
    rw [skipComment]
    split
    · next hbreak =>
      obtain rfl := beq_iff_eq.1 hbreak
      exact .inr ⟨[], rest, List.not_mem_nil, rfl, layout_or_blank_of_skipBlank rest⟩
    · next hbreak =>
      have hc : '\n' ≠ c := fun h => hbreak (beq_iff_eq.2 h.symm)
      rcases layout_or_blank_of_skipComment rest with ⟨hend, hwhole⟩ | ⟨line, t, hwhole, rfl, h⟩
      · exact .inl ⟨hend, by simp [hc, hwhole]⟩
      · exact .inr ⟨c :: line, t, by simp [hc, hwhole], rfl, h⟩

end

theorem layout_of_skipBlank {s rest : List Char} {c : Char} (h : skipBlank s = c :: rest) :
    Layout s (c :: rest) := by
  rcases layout_or_blank_of_skipBlank s with hs | ⟨hend, -⟩
  · rwa [h] at hs
  · rw [h] at hend
    cases hend

theorem blank_of_skipBlank {s : List Char} (h : skipBlank s = []) : Blank s := by
  rcases layout_or_blank_of_skipBlank s with ⟨gap, hs⟩ | ⟨-, hs⟩
  · rw [h, List.append_nil] at hs
    exact ⟨gap, .inl hs⟩
  · exact hs

/-- `s` is a numeral of `n`, leading zeros included, and then `rest`. -/
def NumeralText (s : List Char) (n : Nat) (rest : List Char) : Prop :=
  ∃ digits : List Char, digits ≠ [] ∧ (∀ c ∈ digits, c.isDigit = true) ∧
    Numeral.value digits = n ∧ s = digits ++ rest

/-! ## Inputs -/

/-- The points on which grammars of configurations differ. -/
structure Rules where
  /-- An input that is only its kind may stand before another input of its group. -/
  kindOnlyInside : Bool
  /-- A frame may leave out its file after the colon of the file. -/
  filelessFrame : Bool
  deriving DecidableEq, Repr

namespace Rules

/-- The grammar as it is documented. -/
def documented : Rules := ⟨true, false⟩

/-- The documented grammar where a colon after a kind always opens the file of that input, so that
an input that is only its kind stands last in its group. -/
def predictive : Rules := ⟨false, false⟩

/-- The grammar that is read. -/
def accepted : Rules := ⟨false, true⟩

/-- What one grammar allows, the other one allows too. -/
def Within (narrow wide : Rules) : Prop :=
  (narrow.kindOnlyInside = true → wide.kindOnlyInside = true) ∧
    (narrow.filelessFrame = true → wide.filelessFrame = true)

theorem predictive_within (rules : Rules) : predictive.Within rules := by
  constructor <;> intro h <;> cases h

end Rules

/-- `s` is a word for `kind`, and then `rest`. -/
def KindText (s : List Char) (kind : MediaKind) (rest : List Char) : Prop :=
  ∃ word : List Char, (word, kind) ∈ kindWords ∧ Layout s (word ++ rest)

/-- `s` is the file of an input after its colon, and then `rest`. -/
inductive SourceText (rules : Rules) :
    MediaKind → List Char → Option SourceRef → List Char → Prop where
  | omitted {kind : MediaKind} {s : List Char}
      (allowed : kind = .frame → rules.filelessFrame = true) : SourceText rules kind s none s
  | file {kind : MediaKind} {s rest : List Char} (name : FileName)
      (text : Layout s (name.text ++ rest)) :
      SourceText rules kind s (some (.file (String.ofList name.text))) rest
  | previous {s rest : List Char} (text : Layout s ('^' :: rest)) :
      SourceText rules .frame s (some .previousSegment) rest

/-- `s` is the index of an input after its colon, and then `rest`. -/
inductive IndexText : MediaKind → List Char → FrameNumber → List Char → Prop where
  | number {kind : MediaKind} {s t rest : List Char} (n : UInt32) (before : Layout s t)
      (text : NumeralText t n.toNat rest) : IndexText kind s (.index n) rest
  | last {s rest : List Char} (text : Layout s (['l', 'a', 's', 't'] ++ rest)) :
      IndexText .frame s .last rest
  | minusOne {s rest : List Char} (text : Layout s (['-', '1'] ++ rest)) :
      IndexText .frame s .last rest

/-- `s` is an input, and then `rest`; the flag tells whether the input is only its kind. -/
inductive InputText (rules : Rules) : Bool → List Char → Input → List Char → Prop where
  | kindOnly {s rest : List Char} {kind : MediaKind} (word : KindText s kind rest) :
      InputText rules true s ⟨kind, none, none⟩ rest
  | sourced {s afterKind afterColon rest : List Char} {kind : MediaKind}
      {source : Option SourceRef} (word : KindText s kind afterKind)
      (colon : Layout afterKind (':' :: afterColon))
      (file : SourceText rules kind afterColon source rest) :
      InputText rules false s ⟨kind, source, none⟩ rest
  | indexed {s afterKind afterColon afterSource beforeIndex rest : List Char} {kind : MediaKind}
      {source : Option SourceRef} {n : FrameNumber} (word : KindText s kind afterKind)
      (colon : Layout afterKind (':' :: afterColon))
      (file : SourceText rules kind afterColon source afterSource)
      (indexColon : Layout afterSource (':' :: beforeIndex))
      (index : IndexText kind beforeIndex n rest) :
      InputText rules false s ⟨kind, source, some n⟩ rest

/-- `s` is the inputs of a group, separated by colons, and then `rest`. -/
inductive InputsText (rules : Rules) : List Char → List Input → List Char → Prop where
  | last {s rest : List Char} {kindOnly : Bool} {input : Input}
      (text : InputText rules kindOnly s input rest) : InputsText rules s [input] rest
  | cons {s afterFirst more rest : List Char} {kindOnly : Bool} {input : Input}
      {others : List Input} (first : InputText rules kindOnly s input afterFirst)
      (allowed : kindOnly = true → rules.kindOnlyInside = true)
      (colon : Layout afterFirst (':' :: more)) (following : InputsText rules more others rest) :
      InputsText rules s (input :: others) rest

/-! ## Times -/

/-- `s` is the fields of a timestamp, and then `rest`. The leading fields may be left out. -/
inductive FieldsText : List Char → ClockTime → List Char → Prop where
  | seconds {s rest : List Char} {seconds : UInt64} (last : NumeralText s seconds.toNat rest) :
      FieldsText s ⟨0, 0, seconds, 0⟩ rest
  | minutes {s s' rest : List Char} {minutes seconds : UInt64}
      (first : NumeralText s minutes.toNat (':' :: s')) (last : NumeralText s' seconds.toNat rest) :
      FieldsText s ⟨0, minutes, seconds, 0⟩ rest
  | hours {s s' s'' rest : List Char} {hours minutes seconds : UInt64}
      (first : NumeralText s hours.toNat (':' :: s'))
      (second : NumeralText s' minutes.toNat (':' :: s''))
      (last : NumeralText s'' seconds.toNat rest) :
      FieldsText s ⟨hours, minutes, seconds, 0⟩ rest

/-- `s` is a timestamp in range, and then `rest`. The digits of a fraction denote a part of a
second, which is cut to milliseconds. -/
inductive ClockText : List Char → ClockTime → List Char → Prop where
  | whole {s rest : List Char} {clock : ClockTime} (fields : FieldsText s clock rest)
      (inRange : clock.totalMillis < UInt64.size) : ClockText s clock rest
  | fraction {s rest digits : List Char} {clock : ClockTime} {millis : UInt64}
      (fields : FieldsText s clock ('.' :: (digits ++ rest))) (nonempty : digits ≠ [])
      (isDigit : ∀ c ∈ digits, c.isDigit = true)
      (value : millis.toNat = Numeral.value digits * 1000 / 10 ^ digits.length)
      (inRange : { clock with millis := millis }.totalMillis < UInt64.size) :
      ClockText s { clock with millis := millis } rest

/-- `s` is timestamps with layout between them, and then `rest`. -/
inductive PointsText : List Char → List ClockTime → List Char → Prop where
  | last {s rest : List Char} {clock : ClockTime} (text : ClockText s clock rest) :
      PointsText s [clock] rest
  | cons {s afterFirst next rest : List Char} {clock : ClockTime} {others : List ClockTime}
      (first : ClockText s clock afterFirst) (apart : Separation afterFirst next)
      (following : PointsText next others rest) : PointsText s (clock :: others) rest

/-- `s` is a reference to the duration of a file, and then `rest`. -/
def ReferenceText (s : List Char) (token : TimeToken) (rest : List Char) : Prop :=
  ∃ (afterSign : List Char) (name : FileName), Layout s ('@' :: afterSign) ∧
    Layout afterSign (name.text ++ rest) ∧ token = .durationOf (String.ofList name.text)

/-- `s` is the times of a group, and then `rest`. A lone duration reference counts from zero. -/
inductive TimesText : List Char → List TimeToken → List Char → Prop where
  | none {s : List Char} : TimesText s [] s
  | reference {s rest : List Char} {token : TimeToken} (reference : ReferenceText s token rest) :
      TimesText s [.timestamp .zero, token] rest
  | span {s point afterPoint rest : List Char} {clock : ClockTime} {token : TimeToken}
      (before : Layout s point) (text : ClockText point clock afterPoint)
      (reference : ReferenceText afterPoint token rest) :
      TimesText s [.timestamp clock, token] rest
  | points {s first rest : List Char} {clocks : List ClockTime} (before : Layout s first)
      (text : PointsText first clocks rest) : TimesText s (clocks.map .timestamp) rest

/-! ## Groups -/

/-- `s` is a bracket group with its times, and then `rest`. Each input makes one specification. -/
inductive GroupText (rules : Rules) : List Char → List InputSpec → List Char → Prop where
  | group {s afterOpen afterInputs afterClose rest : List Char} {inputs : List Input}
      {times : List TimeToken} (opening : Layout s ('[' :: afterOpen))
      (heads : InputsText rules afterOpen inputs afterInputs)
      (closing : Layout afterInputs (']' :: afterClose))
      (timing : TimesText afterClose times rest) :
      GroupText rules s (inputs.map fun i => ⟨i.kind, i.source, i.index, times⟩) rest

/-- `s` is a configuration that makes the specifications, in the order of its inputs. -/
inductive ConfigText (rules : Rules) : List Char → List InputSpec → Prop where
  | nil {s : List Char} (blank : Blank s) : ConfigText rules s []
  | cons {s rest : List Char} {specs others : List InputSpec}
      (first : GroupText rules s specs rest) (following : ConfigText rules rest others) :
      ConfigText rules s (specs ++ others)

/-! ## Narrower grammars -/

section Within

variable {narrow wide : Rules} (within : narrow.Within wide)

include within

theorem SourceText.widen {kind : MediaKind} {s rest : List Char} {source : Option SourceRef}
    (h : SourceText narrow kind s source rest) : SourceText wide kind s source rest := by
  cases h with
  | omitted allowed => exact .omitted fun hkind => within.2 (allowed hkind)
  | file name text => exact .file name text
  | previous text => exact .previous text

theorem InputText.widen {kindOnly : Bool} {s rest : List Char} {input : Input}
    (h : InputText narrow kindOnly s input rest) : InputText wide kindOnly s input rest := by
  cases h with
  | kindOnly word => exact .kindOnly word
  | sourced word colon file => exact .sourced word colon (file.widen within)
  | indexed word colon file indexColon index =>
    exact .indexed word colon (file.widen within) indexColon index

theorem InputsText.widen {s rest : List Char} {inputs : List Input}
    (h : InputsText narrow s inputs rest) : InputsText wide s inputs rest := by
  induction h with
  | last text => exact .last (text.widen within)
  | cons first allowed colon following ih =>
    exact .cons (first.widen within) (fun honly => within.1 (allowed honly)) colon ih

/-- What a grammar derives, every wider grammar derives too. -/
theorem ConfigText.widen {s : List Char} {specs : List InputSpec} (h : ConfigText narrow s specs) :
    ConfigText wide s specs := by
  induction h with
  | nil blank => exact .nil blank
  | cons first following ih =>
    obtain ⟨opening, heads, closing, timing⟩ := first
    exact .cons (.group opening (heads.widen within) closing timing) ih

end Within

end EpisodeCut.Config
