import EpisodeCut.Proofs.Config.Derived

/-!
# Round trip of configurations

Reading undoes writing (`parse_text`): whatever the layout, the grammar derives the text of a written
configuration (`Written.configText`), so it is accepted, and what is read are the specifications of
its groups in their order. So the text of a configuration says what it specifies
(`specs_eq_of_text_eq`), although the same colon begins an index and separates inputs.
-/

set_option autoImplicit false

namespace EpisodeCut.Config

open Text

/-! ## Inputs -/

/-- The text of a source is derived, up to layout: where the source is left out, the layout before it
is left. -/
theorem WrittenSource.sourceText {kind : MediaKind} (source : WrittenSource kind) (gap : Gap)
    (s : List Char) :
    ∃ rest, SourceText .accepted kind (gap.text ++ (source.text ++ s)) source.value rest ∧
      Layout rest s := by
  cases source with
  | omitted => exact ⟨gap.text ++ s, .omitted fun _ => rfl, gap.layout s⟩
  | file name => exact ⟨s, .file name (gap.layout _), Layout.refl s⟩
  | previous => exact ⟨s, .previous (gap.layout _), Layout.refl s⟩

theorem WrittenIndex.indexText {kind : MediaKind} (index : WrittenIndex kind) (gap : Gap)
    (s : List Char) : IndexText kind (gap.text ++ (index.text ++ s)) index.value s := by
  cases index with
  | number n =>
    exact .number n (gap.layout _) ⟨Numeral.write n.toNat, Numeral.write_ne_nil n.toNat,
      fun _ => Numeral.isDigit_of_mem_write, Numeral.value_write n.toNat, rfl⟩
  | last => exact .last (gap.layout _)

/-- The text of an input is derived, up to layout. -/
theorem WrittenInput.inputText (input : WrittenInput) (s : List Char) :
    ∃ rest, InputText .accepted false (input.text ++ s) input.value rest ∧ Layout rest s := by
  have htext : input.text ++ s = input.beforeWord.text ++ (input.word ++ (input.beforeColon.text ++
      ':' :: (input.beforeSource.text ++ (input.source.text ++ (input.indexText ++ s))))) := by
    simp only [text, List.append_assoc, List.cons_append]
  obtain ⟨afterSource, file, hafter⟩ :=
    input.source.sourceText input.beforeSource (input.indexText ++ s)
  have word : KindText (input.text ++ s) input.kind _ :=
    ⟨input.word, input.known, input.beforeWord, htext⟩
  have colon := input.beforeColon.layout
    (':' :: (input.beforeSource.text ++ (input.source.text ++ (input.indexText ++ s))))
  rw [value]
  rw [indexText] at hafter
  cases hindex : input.index with
  | none =>
    rw [hindex] at hafter
    exact ⟨afterSource, .sourced word colon file, hafter⟩
  | some field =>
    rw [hindex] at hafter
    have indexColon : Layout afterSource
        (':' :: (field.beforeIndex.text ++ (field.index.text ++ s))) := by
      apply hafter.trans
      simp only [IndexField.text, List.append_assoc, List.cons_append]
      exact field.beforeColon.layout _
    exact ⟨s, .indexed word colon file indexColon (field.index.indexText field.beforeIndex s),
      Layout.refl s⟩

/-- The text of the inputs of a group is derived, up to layout. -/
theorem inputsText_written (first : WrittenInput) (followers : List (Gap × WrittenInput))
    (s : List Char) :
    ∃ rest, InputsText .accepted (first.text ++ (followersText followers ++ s))
        (first.value :: followers.map fun follower => follower.2.value) rest ∧ Layout rest s := by
  induction followers generalizing first with
  | nil =>
    obtain ⟨rest, hfirst, hrest⟩ := first.inputText s
    exact ⟨rest, .last hfirst, hrest⟩
  | cons follower followers ih =>
    obtain ⟨gap, next⟩ := follower
    have htext : followersText ((gap, next) :: followers) ++ s =
        gap.text ++ ':' :: (next.text ++ (followersText followers ++ s)) := by
      simp only [followersText, List.flatMap_cons, List.append_assoc, List.cons_append]
    obtain ⟨rest, hothers, hrest⟩ := ih next
    rw [htext]
    obtain ⟨afterFirst, hfirst, hafter⟩ := first.inputText _
    exact ⟨rest, .cons hfirst (fun h => by cases h) (hafter.trans (gap.layout _)) hothers, hrest⟩

/-! ## Times -/

theorem numeralText_writePadded (width n : Nat) (s : List Char) :
    NumeralText (Numeral.writePadded width n ++ s) n s :=
  ⟨_, Numeral.writePadded_ne_nil width n, fun _ => Numeral.isDigit_of_mem_writePadded,
    Numeral.value_writePadded width n, rfl⟩

theorem WrittenClock.clockText (written : WrittenClock) (s : List Char) :
    ClockText (written.text ++ s) written.clock s := by
  have hfields : FieldsText (written.text ++ s) { written.clock with millis := 0 }
      ('.' :: (Numeral.writePadded 3 written.clock.millis.toNat ++ s)) := by
    simp only [text, List.append_assoc, List.cons_append]
    exact .hours (numeralText_writePadded _ _ _) (numeralText_writePadded _ _ _)
      (numeralText_writePadded _ _ _)
  have hvalue : written.clock.millis.toNat =
      Numeral.value (Numeral.writePadded 3 written.clock.millis.toNat) * 1000 /
        10 ^ (Numeral.writePadded 3 written.clock.millis.toNat).length := by
    rw [Numeral.value_writePadded, Numeral.length_writePadded (by decide) written.places]
    exact (Nat.mul_div_cancel _ (by decide)).symm
  have hclock := ClockText.fraction hfields (Numeral.writePadded_ne_nil _ _)
    (fun _ => Numeral.isDigit_of_mem_writePadded) hvalue (isSome_toTimecode?.1 written.inRange)
  exact hclock

theorem WrittenReference.referenceText (reference : WrittenReference) (s : List Char) :
    ReferenceText (reference.text ++ s) reference.value s := by
  refine ⟨_, reference.name, ⟨reference.beforeSign, ?_⟩, reference.beforeName.layout _, rfl⟩
  simp only [text, List.append_assoc, List.cons_append]

theorem pointsText_written (clock : WrittenClock) (others : List NextClock) (s : List Char) :
    PointsText (clock.text ++ (nextClocksText others ++ s))
      (clock.clock :: others.map fun next => next.clock.clock) s := by
  induction others generalizing clock with
  | nil => exact .last (clock.clockText s)
  | cons next others ih =>
    have htext : nextClocksText (next :: others) ++ s =
        next.before.text ++ (next.clock.text ++ (nextClocksText others ++ s)) := by
      simp only [nextClocksText, List.flatMap_cons, List.append_assoc]
    rw [htext]
    exact .cons (clock.clockText _) ⟨next.before, next.apart, rfl⟩ (ih next.clock)

theorem WrittenTimes.timesText (times : WrittenTimes) (s : List Char) :
    TimesText (times.text ++ s) times.value s := by
  cases times with
  | none => exact .none
  | points before first others =>
    have hvalue : value (.points before first others) =
        (first.clock :: others.map fun next => next.clock.clock).map .timestamp := by
      rw [value, List.map_cons, List.map_map]
      rfl
    rw [hvalue, text, List.append_assoc, List.append_assoc]
    exact .points (before.layout _) (pointsText_written first others s)
  | pointAndReference before point span =>
    rw [text, List.append_assoc, List.append_assoc]
    exact .span (before.layout _) (point.clockText _) (span.referenceText s)
  | reference span => exact .reference (span.referenceText s)

/-! ## Groups -/

theorem WrittenGroup.specs_eq (group : WrittenGroup) :
    group.specs = (group.first.value :: group.followers.map fun follower => follower.2.value).map
      fun i => ⟨i.kind, i.source, i.index, group.times.value⟩ := by
  simp only [specs, inputs, List.map_cons, List.map_map]
  rfl

theorem WrittenGroup.groupText (group : WrittenGroup) (s : List Char) :
    GroupText .accepted (group.text ++ s) group.specs s := by
  have htext : group.text ++ s = group.beforeOpen.text ++ '[' :: (group.first.text ++
      (followersText group.followers ++ (group.beforeClose.text ++
        ']' :: (group.times.text ++ s)))) := by
    simp only [text, List.append_assoc, List.cons_append]
  obtain ⟨afterInputs, heads, hafter⟩ := inputsText_written group.first group.followers
    (group.beforeClose.text ++ ']' :: (group.times.text ++ s))
  rw [htext, group.specs_eq]
  exact .group (group.beforeOpen.layout _) heads (hafter.trans (group.beforeClose.layout _))
    (group.times.timesText s)

/-! ## Configurations -/

theorem configText_written (groups : List WrittenGroup) (afterAll : Gap) :
    ConfigText .accepted (groups.flatMap WrittenGroup.text ++ afterAll.text)
      (groups.flatMap WrittenGroup.specs) := by
  induction groups with
  | nil => exact .nil ⟨afterAll, .inl rfl⟩
  | cons group groups ih =>
    rw [List.flatMap_cons, List.flatMap_cons, List.append_assoc]
    exact .cons (group.groupText _) ih

/-- A configuration that can be written is derivable. -/
theorem Written.configText (written : Written) :
    ConfigText .accepted written.text.toList written.specs := by
  rw [text, String.toList_ofList]
  exact configText_written written.groups written.afterAll

theorem readGroups_written (written : Written) :
    readGroups written.text.toList = .ok written.specs :=
  written.configText.readGroups_eq rfl rfl

/-- Reading undoes writing. -/
theorem parse_text (written : Written) : parse written.text = .ok written.specs := by
  rw [parse, readGroups_written]

/-- Configurations with the same text specify the same inputs. -/
theorem specs_eq_of_text_eq {written other : Written} (h : written.text = other.text) :
    written.specs = other.specs := by
  have hread := readGroups_written written
  rw [h, readGroups_written other] at hread
  exact (Except.ok.inj hread).symm

end EpisodeCut.Config
