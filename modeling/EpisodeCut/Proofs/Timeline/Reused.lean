import EpisodeCut.Proofs.Text.Decimal
import EpisodeCut.Proofs.Timeline.Stills

/-!
# Still images that are shown again

A file that is shown as a still image more than once is looped for the last of its durations. Making
a segment warns of this exactly when the file was last shown for another duration
(`Draft.warnings_perform`); the options of files are compared as texts there, which denote durations
exactly. So if no segment was warned of, every still image is looped for its own duration
(`Draft.stills_of_calls`).
-/

set_option autoImplicit false

namespace EpisodeCut

/-! ## Options and durations -/

/-- Still images have the same options only if they are shown for the same duration. -/
theorem stillOptions_inj {duration other : Timecode} :
    stillOptions duration = stillOptions other ↔ duration = other := by
  constructor
  · intro h
    simp only [stillOptions, List.cons.injEq, true_and, and_true] at h
    exact Timecode.seconds_injective h
  · exact congrArg stillOptions

/-- The duration of a segment in milliseconds. -/
theorem Segment.toNat_duration (segment : Segment) :
    segment.duration.toNat = segment.punchOut.toNat - segment.punchIn.toNat := by
  rw [duration, Timecode.sub?]
  split
  · next hle =>
    have hfits := Nat.lt_of_le_of_lt (Nat.sub_le _ segment.punchIn.toNat) segment.punchOut.toNat_lt
    rw [Timecode.ofMillis?, if_pos hfits]
    exact Nat.mod_eq_of_lt hfits
  · next hlt =>
    have hzero : Timecode.zero.toNat = 0 := rfl
    rw [Option.getD_none, hzero]
    omega

/-! ## Calls -/

namespace Draft

/-- A call that makes a segment. -/
structure Call where
  punchIn : Timecode
  punchOut : Timecode
  input : String
  body : SegmentBody
  deriving DecidableEq, Repr

/-- What a call makes of a draft. -/
def Call.perform (call : Call) (draft : Draft) : Creation :=
  draft.create call.punchIn call.punchOut call.input call.body

/-- The draft after calls. -/
def afterCalls (draft : Draft) (calls : List Call) : Draft :=
  calls.foldl (fun draft call => (call.perform draft).draft) draft

/-- What is made by calls one after another. -/
def creations (draft : Draft) : List Call → List Creation
  | [] => []
  | call :: calls => call.perform draft :: creations (call.perform draft).draft calls

/-- The segments made by calls. -/
def madeBy (draft : Draft) (calls : List Call) : List Segment :=
  (draft.creations calls).map Creation.segment

theorem creations_concat (draft : Draft) (calls : List Call) (call : Call) :
    draft.creations (calls ++ [call]) =
      draft.creations calls ++ [call.perform (draft.afterCalls calls)] := by
  induction calls generalizing draft with
  | nil => rfl
  | cons first calls ih => exact congrArg (first.perform draft :: ·) (ih _)

theorem madeBy_concat (draft : Draft) (calls : List Call) (call : Call) :
    draft.madeBy (calls ++ [call]) =
      draft.madeBy calls ++ [(call.perform (draft.afterCalls calls)).segment] := by
  rw [madeBy, creations_concat, List.map_append]
  rfl

theorem segment_perform (call : Call) (draft : Draft) :
    (call.perform draft).segment =
      ⟨draft.next, call.punchIn, call.punchOut, call.input, call.body⟩ :=
  segment_create _ _ _ _ _

/-- Calls make the draft that their segments make. -/
theorem afterCalls_eq_replay (draft : Draft) (calls : List Call) :
    draft.afterCalls calls = draft.replay (draft.madeBy calls) := by
  induction calls generalizing draft with
  | nil => rfl
  | cons call calls ih =>
    have hfirst : draft.withSegment (call.perform draft).segment = (call.perform draft).draft :=
      withSegment_create _ _ _ _ _
    have hmade : draft.madeBy (call :: calls) =
        (call.perform draft).segment :: (call.perform draft).draft.madeBy calls := rfl
    rw [hmade, replay_cons, hfirst]
    exact ih _

/-- At every point a file is looped as its last still image is. -/
theorem optionsOf?_afterCalls (calls : List Call) (file : String) :
    (empty.afterCalls calls).registry.optionsOf? file =
      if file ∈ (empty.madeBy calls).map Segment.input
      then some (loopOptions (empty.madeBy calls) file) else none := by
  rw [afterCalls_eq_replay, optionsOf?_replay]

/-- The file of a still image is registered with the options of the last one. -/
theorem optionsOf?_of_lastStill? {calls : List Call} {file : String} {previous : Segment}
    (h : lastStill? (empty.madeBy calls) file = some previous) :
    (empty.afterCalls calls).registry.optionsOf? file = some (stillOptions previous.duration) := by
  obtain ⟨hmem, hshows⟩ := mem_of_lastStill? h
  have hinput : file ∈ (empty.madeBy calls).map Segment.input := by
    rw [← Segment.input_eq_of_showsStill hshows]
    exact List.mem_map_of_mem hmem
  rw [optionsOf?_afterCalls, if_pos hinput, loopOptions_of_lastStill? h]

/-! ## Warnings -/

theorem reuseWarnings_of_lastStill? {calls : List Call} {file : String} {previous : Segment}
    (h : lastStill? (empty.madeBy calls) file = some previous) (number : Nat)
    (duration : Timecode) :
    reuseWarnings (empty.afterCalls calls).registry number file (stillOptions duration) =
      if previous.duration = duration then []
      else [.stillReused number file (stillOptions previous.duration) (stillOptions duration)] := by
  rw [reuseWarnings, optionsOf?_of_lastStill? h]
  by_cases hsame : previous.duration = duration
  · simp [hsame]
  · have hdiffers : ¬stillOptions previous.duration = stillOptions duration :=
      fun heq => hsame (stillOptions_inj.1 heq)
    have hnonempty : (stillOptions previous.duration).isEmpty = false := rfl
    simp [hsame, hdiffers, hnonempty]

theorem reuseWarnings_of_no_still {calls : List Call} {file : String}
    (h : lastStill? (empty.madeBy calls) file = none) (number : Nat) (options : List String) :
    reuseWarnings (empty.afterCalls calls).registry number file options = [] := by
  rw [reuseWarnings, optionsOf?_afterCalls]
  split
  · next previous hprevious =>
    split at hprevious
    · rw [loopOptions_of_no_still h] at hprevious
      cases hprevious
      rfl
    · cases hprevious
  · rfl

/-- A call warns only of a still image, and only if the last still image of the file was shown for
another duration. -/
theorem warnings_perform (calls : List Call) (call : Call) :
    let creation := call.perform (empty.afterCalls calls)
    creation.warnings =
      if creation.segment.showsStill call.input then
        match lastStill? (empty.madeBy calls) call.input with
        | some previous =>
          if previous.duration = creation.segment.duration then []
          else [.stillReused creation.segment.number call.input (stillOptions previous.duration)
            (stillOptions creation.segment.duration)]
        | none => []
      else [] := by
  obtain ⟨punchIn, punchOut, input, body⟩ := call
  cases body with
  | audio stream => rfl
  | video stream => rfl
  | frame number state =>
    cases state with
    | pending source => rfl
    | materializing source => rfl
    | resolved image =>
      intro creation
      have hshows : creation.segment.showsStill input = true := beq_self_eq_true input
      rw [if_pos hshows]
      cases hlast : lastStill? (empty.madeBy calls) input with
      | none => exact reuseWarnings_of_no_still hlast _ _
      | some previous => exact reuseWarnings_of_lastStill? hlast _ _

/-- A creation comes with the warning of a still image that is shown again. -/
def Creation.WarnsOfReuse (creation : Creation) : Prop :=
  ∃ warning ∈ creation.warnings, warning.message =
    "still image reused with a different duration; all uses loop for the last one"

instance (creation : Creation) : Decidable creation.WarnsOfReuse :=
  inferInstanceAs (Decidable (∃ warning ∈ creation.warnings, warning.message =
    "still image reused with a different duration; all uses loop for the last one"))

theorem warnsOfReuse_iff {calls : List Call} {call : Call} :
    (call.perform (empty.afterCalls calls)).WarnsOfReuse ↔
      (call.perform (empty.afterCalls calls)).segment.showsStill call.input = true ∧
        ∃ previous, lastStill? (empty.madeBy calls) call.input = some previous ∧
          previous.duration ≠ (call.perform (empty.afterCalls calls)).segment.duration := by
  have hwarnings := warnings_perform calls call
  simp only at hwarnings
  rw [Creation.WarnsOfReuse, hwarnings]
  split
  · next hshows =>
    cases hlast : lastStill? (empty.madeBy calls) call.input with
    | none => simp
    | some previous =>
      by_cases hsame :
          previous.duration = (call.perform (empty.afterCalls calls)).segment.duration
      · simp [hsame]
      · simp [hsame, hshows, Warning.message]
  · next hshows => simp [hshows]

/-- Without a warning, all still images of a file are shown for the same duration. -/
theorem duration_eq_of_quiet {calls : List Call}
    (quiet : ∀ creation ∈ empty.creations calls, ¬creation.WarnsOfReuse) {file : String}
    {segment last : Segment} (hsegment : segment ∈ empty.madeBy calls)
    (shows : segment.showsStill file = true)
    (hlast : lastStill? (empty.madeBy calls) file = some last) :
    last.duration = segment.duration := by
  -- Induction from the end: the call made last is the one that could have changed the duration.
  induction calls using List.reverseRecOn generalizing last with
  | nil => cases hsegment
  | append_singleton calls call ih =>
    rw [creations_concat] at quiet
    have hearlier : ∀ creation ∈ empty.creations calls, ¬creation.WarnsOfReuse :=
      fun creation hcreation => quiet creation (List.mem_append_left _ hcreation)
    have hcall : ¬(call.perform (empty.afterCalls calls)).WarnsOfReuse :=
      quiet _ (List.mem_append_right _ List.mem_cons_self)
    rw [madeBy_concat, List.mem_append, List.mem_singleton] at hsegment
    rw [madeBy_concat, lastStill?_concat] at hlast
    split at hlast
    · next hnew =>
      cases hlast
      rcases hsegment with hsegment | rfl
      · -- The call shows the file again, and the last duration before was the same.
        obtain ⟨previous, hprevious⟩ := exists_lastStill? hsegment shows
        have hinput : file = call.input := by
          rw [← Segment.input_eq_of_showsStill hnew, segment_perform]
        rw [hinput] at hnew hprevious
        have hsame : previous.duration =
            (call.perform (empty.afterCalls calls)).segment.duration := by
          by_contra hdiffers
          exact hcall (warnsOfReuse_iff.2 ⟨hnew, previous, hprevious, hdiffers⟩)
        rw [← hsame]
        rw [← hinput] at hprevious
        exact ih hearlier hsegment hprevious
      · rfl
    · next hnew =>
      rcases hsegment with hsegment | rfl
      · exact ih hearlier hsegment hlast
      · exact absurd shows hnew

/-- The warning of a still image that is shown again is sound and complete. A call gives it exactly
if it shows a file as a still image that was last shown for another number of milliseconds. At every
point the file of a still image is looped for the duration of the last one. So if no call gave the
warning, every still image is looped for its own duration. -/
theorem stills_of_calls (calls : List Call) :
    (∀ call : Call,
      let creation := call.perform (empty.afterCalls calls)
      creation.WarnsOfReuse ↔ creation.segment.showsStill call.input = true ∧
        ∃ previous, lastStill? (empty.madeBy calls) call.input = some previous ∧
          previous.punchOut.toNat - previous.punchIn.toNat ≠
            call.punchOut.toNat - call.punchIn.toNat) ∧
    (∀ file previous, lastStill? (empty.madeBy calls) file = some previous →
      (empty.afterCalls calls).registry.optionsOf? file =
        some ["-loop", "1", "-t", previous.duration.seconds]) ∧
    ((∀ creation ∈ empty.creations calls, ¬creation.WarnsOfReuse) →
      ∀ segment ∈ empty.madeBy calls, segment.showsStill segment.input = true →
        ∃ time : String,
          (empty.afterCalls calls).registry.optionsOf? segment.input =
            some ["-loop", "1", "-t", time] ∧
          Text.Decimal.value? time.toList =
            some (((segment.punchOut.toNat - segment.punchIn.toNat : Nat) : ℚ) / 1000)) := by
  refine ⟨?_, ?_, ?_⟩
  · intro call creation
    rw [warnsOfReuse_iff]
    have hcall : creation.segment.duration.toNat = call.punchOut.toNat - call.punchIn.toNat := by
      rw [Segment.toNat_duration, segment_perform]
    have hdiffer : ∀ previous : Segment, previous.duration ≠ creation.segment.duration ↔
        previous.punchOut.toNat - previous.punchIn.toNat ≠
          call.punchOut.toNat - call.punchIn.toNat := by
      intro previous
      rw [← hcall, ← Segment.toNat_duration, Ne, Ne, not_iff_not]
      exact ⟨congrArg Timecode.toNat, Timecode.eq_of_toNat⟩
    constructor
    · rintro ⟨hshows, previous, hprevious, hne⟩
      exact ⟨hshows, previous, hprevious, (hdiffer previous).1 hne⟩
    · rintro ⟨hshows, previous, hprevious, hne⟩
      exact ⟨hshows, previous, hprevious, (hdiffer previous).2 hne⟩
  · intro file previous hprevious
    exact optionsOf?_of_lastStill? hprevious
  · intro quiet segment hsegment hshows
    obtain ⟨last, hlast⟩ := exists_lastStill? hsegment hshows
    refine ⟨last.duration.seconds, optionsOf?_of_lastStill? hlast, ?_⟩
    rw [duration_eq_of_quiet quiet hsegment hshows hlast, Timecode.seconds, String.toList_ofList,
      Timecode.value?_secondsText, Timecode.inSeconds, Segment.toNat_duration]

/-- A call that shows a title for some seconds. -/
def showTitle (seconds : Nat) : Call :=
  ⟨.zero, .ofSeconds seconds, "title.png", .frame (.index 0) (.resolved "title.png")⟩

/-- A title twice for five seconds, with a film in between that has the same file. -/
def titles : List Call :=
  [showTitle 5, ⟨.zero, .ofSeconds 3, "title.png", .video 0⟩, showTitle 5]

theorem stills_of_titles :
    (∀ creation ∈ empty.creations titles, ¬creation.WarnsOfReuse) ∧
      (∃ time : String, (empty.afterCalls titles).registry.optionsOf? "title.png" =
          some ["-loop", "1", "-t", time] ∧ Text.Decimal.value? time.toList = some 5) ∧
      ((showTitle 20).perform (empty.afterCalls titles)).WarnsOfReuse := by
  have hquiet : ∀ creation ∈ empty.creations titles, ¬creation.WarnsOfReuse := by decide +kernel
  obtain ⟨hwarns, -, hloops⟩ := stills_of_calls titles
  refine ⟨hquiet, ?_, ?_⟩
  · obtain ⟨time, hoptions, htime⟩ := hloops hquiet
      ⟨0, .zero, .ofSeconds 5, "title.png", .frame (.index 0) (.resolved "title.png")⟩
      (by decide +kernel) (by decide)
    refine ⟨time, hoptions, htime.trans ?_⟩
    have hmillis : (Timecode.ofSeconds 5).toNat - Timecode.zero.toNat = 5000 := by decide
    rw [hmillis]
    norm_num
  · refine (hwarns (showTitle 20)).2 ⟨by decide +kernel,
      ⟨2, .zero, .ofSeconds 5, "title.png", .frame (.index 0) (.resolved "title.png")⟩,
      by decide +kernel, by decide⟩

end Draft

end EpisodeCut
