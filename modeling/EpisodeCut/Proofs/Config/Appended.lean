import EpisodeCut.Proofs.Config.Recognized
import EpisodeCut.Proofs.Config.Stops

/-!
# Configurations one after another

A derivation does not depend on what stands behind it, so more text may follow (`GroupText.append`).
Hence a configuration may be continued by another one on lines of its own
(`ConfigText.readGroups_append`): the specifications of both are read, and what is wrong with the
second one is reported as it would be if it stood alone, only further down (`parse_append`).
-/

set_option autoImplicit false

namespace EpisodeCut

/-! ## Positions further down -/

namespace Position

/-- The same point with `lines` more lines above it. -/
def down (position : Position) (lines : Nat) : Position :=
  { position with line := position.line + lines }

/-- The last line of a text does not depend on the lines above it. -/
theorem lastLine_append_newline (above before : List Char) :
    lastLine (above ++ '\n' :: before) = lastLine before := by
  rw [lastLine, List.reverse_append, List.reverse_cons, List.append_assoc, List.takeWhile_append]
  split
  · next hwhole =>
    -- The text is a single line.
    have hline : before.reverse.takeWhile (· != '\n') = before.reverse :=
      (List.takeWhile_prefix _).eq_of_length hwhole
    rw [lastLine, hline]
    simp
  · rfl

theorem ofSuffix_append_newline (above : List Char) {text rest : List Char}
    (within : rest <:+ text) :
    ofSuffix (above ++ '\n' :: text) rest = (ofSuffix text rest).down (above.count '\n' + 1) := by
  obtain ⟨before, rfl⟩ := within
  have hsplit : above ++ '\n' :: (before ++ rest) = (above ++ '\n' :: before) ++ rest := by
    rw [List.append_assoc, List.cons_append]
  rw [hsplit, ofSuffix_append, ofSuffix_append, between, between, down, lastLine_append_newline,
    List.count_append, List.count_cons_self]
  simp only [Position.mk.injEq, and_true]
  omega

end Position

namespace Config

/-! ## Text behind a derivation -/

section Append

variable {rules : Rules}

theorem Layout.append {s rest : List Char} (h : Layout s rest) (t : List Char) :
    Layout (s ++ t) (rest ++ t) := by
  obtain ⟨gap, rfl⟩ := h
  exact ⟨gap, List.append_assoc _ _ _⟩

theorem Separation.append {s rest : List Char} (h : Separation s rest) (t : List Char) :
    Separation (s ++ t) (rest ++ t) := by
  obtain ⟨gap, apart, rfl⟩ := h
  exact ⟨gap, apart, List.append_assoc _ _ _⟩

/-- Layout before a token, which is known with what stands behind it. -/
theorem Layout.append_token {s token rest : List Char} (h : Layout s (token ++ rest))
    (t : List Char) : Layout (s ++ t) (token ++ (rest ++ t)) := by
  rw [← List.append_assoc]
  exact h.append t

theorem NumeralText.append {s rest : List Char} {n : Nat} (h : NumeralText s n rest)
    (t : List Char) : NumeralText (s ++ t) n (rest ++ t) := by
  obtain ⟨digits, nonempty, inside, value, rfl⟩ := h
  exact ⟨digits, nonempty, inside, value, List.append_assoc _ _ _⟩

theorem KindText.append {s rest : List Char} {kind : MediaKind} (h : KindText s kind rest)
    (t : List Char) : KindText (s ++ t) kind (rest ++ t) := by
  obtain ⟨word, known, text⟩ := h
  exact ⟨word, known, text.append_token t⟩

theorem SourceText.append {kind : MediaKind} {s rest : List Char} {source : Option SourceRef}
    (h : SourceText rules kind s source rest) (t : List Char) :
    SourceText rules kind (s ++ t) source (rest ++ t) := by
  cases h with
  | omitted allowed => exact .omitted allowed
  | file name text => exact .file name (text.append_token t)
  | previous text => exact .previous (text.append t)

theorem IndexText.append {kind : MediaKind} {s rest : List Char} {n : FrameNumber}
    (h : IndexText kind s n rest) (t : List Char) : IndexText kind (s ++ t) n (rest ++ t) := by
  cases h with
  | number n before text => exact .number n (before.append t) (text.append t)
  | last text => exact .last (text.append_token t)
  | minusOne text => exact .minusOne (text.append_token t)

theorem InputText.append {kindOnly : Bool} {s rest : List Char} {input : Input}
    (h : InputText rules kindOnly s input rest) (t : List Char) :
    InputText rules kindOnly (s ++ t) input (rest ++ t) := by
  cases h with
  | kindOnly word => exact .kindOnly (word.append t)
  | sourced word colon file => exact .sourced (word.append t) (colon.append t) (file.append t)
  | indexed word colon file indexColon index =>
    exact .indexed (word.append t) (colon.append t) (file.append t) (indexColon.append t)
      (index.append t)

theorem InputsText.append {s rest : List Char} {inputs : List Input}
    (h : InputsText rules s inputs rest) (t : List Char) :
    InputsText rules (s ++ t) inputs (rest ++ t) := by
  induction h with
  | last text => exact .last (text.append t)
  | cons first allowed colon following ih =>
    exact .cons (first.append t) allowed (colon.append t) ih

theorem FieldsText.append {s rest : List Char} {clock : ClockTime} (h : FieldsText s clock rest)
    (t : List Char) : FieldsText (s ++ t) clock (rest ++ t) := by
  cases h with
  | seconds last => exact .seconds (last.append t)
  | minutes first last => exact .minutes (first.append t) (last.append t)
  | hours first second last => exact .hours (first.append t) (second.append t) (last.append t)

theorem ClockText.append {s rest : List Char} {clock : ClockTime} (h : ClockText s clock rest)
    (t : List Char) : ClockText (s ++ t) clock (rest ++ t) := by
  cases h with
  | whole fields inRange => exact .whole (fields.append t) inRange
  | fraction fields nonempty isDigit value inRange =>
    have hfields := fields.append t
    rw [List.cons_append, List.append_assoc] at hfields
    exact .fraction hfields nonempty isDigit value inRange

theorem PointsText.append {s rest : List Char} {clocks : List ClockTime}
    (h : PointsText s clocks rest) (t : List Char) : PointsText (s ++ t) clocks (rest ++ t) := by
  induction h with
  | last text => exact .last (text.append t)
  | cons first apart following ih => exact .cons (first.append t) (apart.append t) ih

theorem ReferenceText.append {s rest : List Char} {token : TimeToken}
    (h : ReferenceText s token rest) (t : List Char) : ReferenceText (s ++ t) token (rest ++ t) := by
  obtain ⟨afterSign, name, sign, text, rfl⟩ := h
  exact ⟨afterSign ++ t, name, sign.append t, text.append_token t, rfl⟩

theorem TimesText.append {s rest : List Char} {times : List TimeToken}
    (h : TimesText s times rest) (t : List Char) : TimesText (s ++ t) times (rest ++ t) := by
  cases h with
  | none => exact .none
  | reference reference => exact .reference (reference.append t)
  | span before text reference =>
    exact .span (before.append t) (text.append t) (reference.append t)
  | points before text => exact .points (before.append t) (text.append t)

/-- A group stays one if more text follows. -/
theorem GroupText.append {s rest : List Char} {specs : List InputSpec}
    (h : GroupText rules s specs rest) (t : List Char) :
    GroupText rules (s ++ t) specs (rest ++ t) := by
  obtain ⟨opening, heads, closing, timing⟩ := h
  exact .group (opening.append t) (heads.append t) (closing.append t) (timing.append t)

end Append

/-! ## Continued configurations -/

/-- A line break ends the last comment of a configuration that says nothing. -/
theorem Blank.layout_newline {s : List Char} (h : Blank s) (t : List Char) :
    Layout (s ++ '\n' :: t) t := by
  obtain ⟨gap, rfl | ⟨line, whole, rfl⟩⟩ := h
  · exact (gap.layout _).trans ((Layout.refl t).filler (.blank '\n' rfl))
  · rw [List.append_assoc]
    refine (gap.layout _).trans ?_
    have hcomment := (Layout.refl t).filler (.comment line whole)
    rwa [Filler.text, List.append_assoc] at hcomment

/-- Nothing but layout, or layout before a group. -/
theorem followsGroup_of_begins {s : List Char}
    (begins : Blank s ∨ ∃ t, Layout s ('[' :: t)) : FollowsGroup s := by
  intro c hc
  rcases begins with hblank | ⟨t, hopen⟩
  · rw [hblank.skipBlank_eq] at hc
    cases hc
  · rw [hopen.skipBlank_cons (by decide)] at hc
    cases hc
    rfl

/-- What follows a group may go on, on a new line, with what may follow a group. -/
theorem ConfigText.followsGroup_append {rules : Rules} {s : List Char} {specs : List InputSpec}
    (h : ConfigText rules s specs) {t : List Char} (follows : FollowsGroup t) :
    FollowsGroup (s ++ '\n' :: t) := by
  cases h with
  | nil blank =>
    intro c hc
    rw [(blank.layout_newline t).skipBlank_eq] at hc
    exact follows c hc
  | cons first following =>
    obtain ⟨u, hopen⟩ := (first.append ('\n' :: t)).skipBlank_eq
    intro c hc
    rw [hopen] at hc
    cases hc
    rfl

/-- Behind a configuration another one is read as if it stood alone. -/
theorem ConfigText.readGroups_append {rules : Rules} {s : List Char} {specs : List InputSpec}
    (h : ConfigText rules s specs) (noneInside : rules.kindOnlyInside = false) {t : List Char}
    (follows : FollowsGroup t) {r : List Char} (begins : skipBlank r = skipBlank (s ++ '\n' :: t)) :
    readGroups r = (readGroups t).map (specs ++ ·) := by
  induction h generalizing r with
  | nil blank =>
    rw [(blank.layout_newline t).skipBlank_eq] at begins
    rw [readGroups_congr begins]
    cases readGroups t <;> rfl
  | @cons s rest specs others first following ih =>
    have group := first.append ('\n' :: t)
    obtain ⟨u, hopen⟩ := group.skipBlank_eq
    obtain ⟨rest', hgroup, hrest⟩ := group.readGroup_eq noneInside
      (following.followsGroup_append follows) ((skipBlank_skipBlank r).trans begins)
    have hr := begins.trans hopen
    rw [hr] at hgroup
    rw [readGroups_open hr, hgroup, Except.bind, ih hrest]
    cases readGroups t with
    | error stop => rfl
    | ok more => simp only [Except.map, List.append_assoc]

/-- An accepted configuration may be continued, on a new line, by a text that begins with a group.
What that text specifies comes behind, and where it is refused, the whole is refused for the same
fault at the same point of its line, further down by the lines of the first configuration. -/
theorem parse_append {first : String} {specs : List InputSpec} (accepted : parse first = .ok specs)
    {second : String} (begins : Blank second.toList ∨ ∃ t, Layout second.toList ('[' :: t)) :
    (∀ others, parse second = .ok others → parse (first ++ "\n" ++ second) = .ok (specs ++ others)) ∧
      ∀ position fault, parse second = .error (.malformed position fault) →
        parse (first ++ "\n" ++ second) =
          .error (.malformed (position.down (first.toList.count '\n' + 1)) fault) := by
  have htext : (first ++ "\n" ++ second).toList = first.toList ++ '\n' :: second.toList := by
    rw [String.toList_append, String.toList_append, List.append_assoc]
    rfl
  have hread := (parse_eq_ok_iff.1 accepted).readGroups_append rfl
    (followsGroup_of_begins begins) rfl
  simp only [parse, htext, hread]
  cases hsecond : readGroups second.toList with
  | ok others =>
    constructor
    · rintro _ ⟨⟩
      rfl
    · rintro position fault ⟨⟩
  | error stop =>
    constructor
    · rintro others ⟨⟩
    · rintro _ _ ⟨⟩
      simp only [Except.map]
      rw [Position.ofSuffix_append_newline _ (readGroups_stop _ stop hsecond)]

/-- The comment at the end of the first configuration takes nothing of the second one. -/
theorem parse_append_commented :
    parse ("[v:talk.mov]# a talk" ++ "\n" ++ "[v:talk.mov]") =
        .ok [⟨.video, some (.file "talk.mov"), none, []⟩,
          ⟨.video, some (.file "talk.mov"), none, []⟩] ∧
      parse "\n[b]" = .error (.malformed ⟨2, 2, "b]"⟩ (.unknownKind "b")) ∧
      parse ("[v:talk.mov]# a talk" ++ "\n" ++ "\n[b]") =
        .error (.malformed ⟨3, 2, "b]"⟩ (.unknownKind "b")) := by
  have group (t : List Char) : GroupText .accepted ("[v:talk.mov]".toList ++ t)
      [⟨.video, some (.file "talk.mov"), none, []⟩] t :=
    .group (Layout.refl _) (.last (videoText.append t)) (Layout.refl _) .none
  have hfirst : parse "[v:talk.mov]# a talk" = .ok [⟨.video, some (.file "talk.mov"), none, []⟩] :=
    parse_eq_ok_iff.2 (.cons (group "# a talk".toList)
      (.nil ⟨[], .inr ⟨" a talk".toList, by decide, rfl⟩⟩))
  have hsecond : parse "[v:talk.mov]" = .ok [⟨.video, some (.file "talk.mov"), none, []⟩] :=
    parse_eq_ok_iff.2 (.cons (group []) (.nil ⟨[], .inl rfl⟩))
  have hgroups : readGroups "\n[b]".toList = .error ⟨.unknownKind "b", ['b', ']']⟩ := by
    have hinputs : readInputs ['b', ']'] = .error ⟨.unknownKind "b", ['b', ']']⟩ :=
      readInputs_error rfl
    have hgroup : readGroup ['[', 'b', ']'] = .error ⟨.unknownKind "b", ['b', ']']⟩ := by
      have hopen : expect '[' ['[', 'b', ']'] = .ok ['b', ']'] := rfl
      simp only [readGroup, hopen, hinputs, bind, Except.bind]
    exact readGroups_error rfl hgroup
  have hfault : parse "\n[b]" = .error (.malformed ⟨2, 2, "b]"⟩ (.unknownKind "b")) := by
    have hposition : Position.ofSuffix "\n[b]".toList ['b', ']'] = ⟨2, 2, "b]"⟩ := by decide
    simp only [parse, hgroups, hposition]
  refine ⟨?_, hfault, ?_⟩
  · exact (parse_append hfirst (.inr ⟨_, Layout.refl _⟩)).1 _ hsecond
  · exact (parse_append hfirst (.inr ⟨['b', ']'], [.blank '\n' rfl], rfl⟩)).2 _ _ hfault

end Config

end EpisodeCut
