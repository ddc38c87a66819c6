import EpisodeCut.Proofs.Config.WellFormed
import EpisodeCut.Proofs.Timeline.Ranges

/-!
# What is left to fail

The rules for ranges and specifications refuse more than a configuration can say. Of what is read
from a text, every time is a point or the duration of a file after a point, every point fits into a
timecode, and what only frames have is asked of frames alone. What is left to fail is then the world,
the defaults, or the order of two points (`mayFail_of_parse`).
-/

set_option autoImplicit false

namespace EpisodeCut.Timeline

open Config

variable {σ α : Type} {defaults : Defaults} {probe : Probe σ} {spec : InputSpec}

/-- Failures that no configuration rules out: nothing is given for a kind, the file of a duration does
not exist or has none that can be read, the length of an input cannot be found out, or a range ends
before it begins. -/
inductive MayFail (defaults : Defaults) (probe : Probe σ) (specs : List InputSpec) : Failure → Prop
  | missingDefault {spec : InputSpec} {number : Nat} :
      spec ∈ specs → spec.source = none → (defaults.get spec.kind).file = none →
      MayFail defaults probe specs (.missingDefault number spec.kind)
  | missingReference {spec : InputSpec} {number : Nat} {file : String} {world : σ} :
      spec ∈ specs → .durationOf file ∈ spec.times → probe.present file world = false →
      MayFail defaults probe specs (.missingReference number file)
  | unreadableReference {spec : InputSpec} {number : Nat} {file : String} {cause : Failure}
      {world later : σ} :
      spec ∈ specs → .durationOf file ∈ spec.times → probe.present file world = true →
      probe.duration file world = .error cause later →
      MayFail defaults probe specs (.unreadableReference number file cause)
  | unprobed {spec : InputSpec} {file : String} {failure : Failure} {world later : σ} :
      spec ∈ specs → spec.kind ≠ .frame → ReadsFrom defaults spec (.file file) →
      probe.present file world = true → probe.duration file world = .error failure later →
      MayFail defaults probe specs failure
  | reversed {number : Nat} {punchIn punchOut : Timecode} :
      punchOut.toNat < punchIn.toNat →
      MayFail defaults probe specs (.reversedRange number punchIn punchOut)

/-! ## Whose failure it is -/

/-- The failure in which things end in turn is that of one of them. -/
theorem InTurn.exists_of_error {rule : α → Nat → σ → Except Failure (List Segment) → σ → Prop}
    {things : List α} {number : Nat} {world later : σ} {failure : Failure}
    (h : InTurn rule things number world (.error failure) later) :
    ∃ thing ∈ things, ∃ number world later, rule thing number world (.error failure) later := by
  generalize hresult : (.error failure : Except Failure (List Segment)) = result at h
  induction h with
  | done => cases hresult
  | made => cases hresult
  | failsLater _ _ ih =>
    obtain ⟨thing, hthing, hrule⟩ := ih hresult
    exact ⟨thing, List.mem_cons_of_mem _ hthing, hrule⟩
  | fails hrule =>
    cases hresult
    exact ⟨_, List.mem_cons_self, _, _, _, hrule⟩

/-! ## Times -/

theorem mem_of_mem_pairs {times : List TimeToken} {first : TimeToken} {second : Option TimeToken}
    (h : (first, second) ∈ pairs times) :
    first ∈ times ∧ ∀ token, second = some token → token ∈ times := by
  induction times using pairs.induct with
  | case1 => cases h
  | case2 tail =>
    rw [pairs, List.mem_singleton] at h
    cases h
    refine ⟨List.mem_cons_self, ?_⟩
    intro token hnone
    cases hnone
  | case3 head next rest ih =>
    rw [pairs, List.mem_cons] at h
    rcases h with h | h
    · cases h
      refine ⟨List.mem_cons_self, ?_⟩
      intro token htoken
      cases htoken
      exact List.mem_cons_of_mem _ List.mem_cons_self
    · obtain ⟨hfirst, hsecond⟩ := ih h
      refine ⟨List.mem_cons_of_mem _ (List.mem_cons_of_mem _ hfirst), ?_⟩
      intro token htoken
      exact List.mem_cons_of_mem _ (List.mem_cons_of_mem _ (hsecond token htoken))

/-- Of times that can be written, every range begins with a point. -/
theorem exists_clock_of_mem_pairs {times : List TimeToken} {first : TimeToken}
    {second : Option TimeToken} (sound : SoundTimes times) (h : (first, second) ∈ pairs times) :
    ∃ clock, first = .timestamp clock ∧ SoundClock clock := by
  cases sound with
  | points hpoints => exact hpoints first (mem_of_mem_pairs h).1
  | span hclock hname =>
    rw [pairs, pairs, List.mem_singleton] at h
    cases h
    exact ⟨_, rfl, hclock⟩

/-- All points among times that can be written fit into a timecode. -/
theorem soundClock_of_mem {times : List TimeToken} {clock : ClockTime} (sound : SoundTimes times)
    (h : .timestamp clock ∈ times) : SoundClock clock := by
  cases sound with
  | points hpoints =>
    obtain ⟨other, hother, hsound⟩ := hpoints _ h
    cases hother
    exact hsound
  | span hclock hname =>
    rcases List.mem_cons.1 h with h | h
    · cases h
      exact hclock
    · cases List.mem_singleton.1 h

theorem totalMillis_lt {clock : ClockTime} (sound : SoundClock clock) :
    clock.totalMillis < UInt64.size := by
  obtain ⟨point, hpoint⟩ := sound.fits
  rw [← ClockTime.toTimecode?_eq_some_iff.1 hpoint]
  exact point.toNat_lt

theorem not_beginsAt_error {clock : ClockTime} {failure : Failure} (sound : SoundClock clock) :
    ¬ BeginsAt (.timestamp clock) (.error failure) := by
  intro h
  cases h with
  | tooLarge hlarge => exact absurd (totalMillis_lt sound) (Nat.not_lt.2 hlarge)

/-! ## Inputs -/

/-- A well-formed specification asks of a stream only what a stream has. The defaults do so anyway:
they are files, and streams by number. -/
theorem not_unplayable {source : SourceRef} {index : FrameNumber} {number : Nat}
    {failure : Failure} (formed : WellFormed spec) (reads : ReadsFrom defaults spec source)
    (selects : Selects defaults spec index) :
    ¬ Unplayable number spec.kind source index failure := by
  intro h
  cases h with
  | previous hkind =>
    cases reads with
    | own hown => exact hkind (formed.previous hown)
  | last hkind =>
    cases selects with
    | own hown => exact hkind (formed.last hown)

theorem not_cuts_error {source : SourceRef} {index : FrameNumber} {number : Nat}
    {punchIn punchOut : Timecode} {failure : Failure} (formed : WellFormed spec)
    (reads : ReadsFrom defaults spec source) (selects : Selects defaults spec index) :
    ¬ Cuts number spec.kind source index punchIn punchOut (.error failure) := by
  intro h
  cases h with
  | unplayable hunplayable => exact not_unplayable formed reads selects hunplayable

/-! ## Ranges and specifications -/

variable {specs : List InputSpec}

theorem mayFail_of_endsAt {number : Nat} {duration punchIn : Timecode} {token : Option TimeToken}
    {world later : σ} {failure : Failure} (listed : spec ∈ specs) (sound : SoundTimes spec.times)
    (mem : ∀ next, token = some next → next ∈ spec.times)
    (h : EndsAt probe number duration punchIn token world (.error failure) later) :
    MayFail defaults probe specs failure := by
  cases h with
  | tooLarge hlarge =>
    have hclock := soundClock_of_mem sound (mem _ rfl)
    exact absurd (totalMillis_lt hclock) (Nat.not_lt.2 hlarge)
  | missing hmissing => exact .missingReference listed (mem _ rfl) hmissing
  | unreadable hpresent hduration =>
    exact .unreadableReference listed (mem _ rfl) hpresent hduration

theorem mayFail_of_rangeRule {source : SourceRef} {index : FrameNumber}
    {duration : Timecode} {tokens : TimeToken × Option TimeToken} {number : Nat} {world later : σ}
    {failure : Failure} (formed : WellFormed spec) (listed : spec ∈ specs)
    (reads : ReadsFrom defaults spec source) (selects : Selects defaults spec index)
    (mem : tokens ∈ pairs spec.times)
    (h : RangeRule probe spec.kind source index duration tokens number world (.error failure)
      later) : MayFail defaults probe specs failure := by
  cases h with
  | beginning hbegins =>
    obtain ⟨clock, rfl, hclock⟩ := exists_clock_of_mem_pairs formed.times mem
    exact absurd hbegins (not_beginsAt_error hclock)
  | ending _ hends => exact mayFail_of_endsAt listed formed.times (mem_of_mem_pairs mem).2 hends
  | range _ _ hcuts =>
    cases hcuts with
    | reversed hlt => exact .reversed hlt
    | cut _ hcut => exact absurd hcut (not_cuts_error formed reads selects)

theorem mayFail_of_specRule {number : Nat} {world later : σ} {failure : Failure}
    (formed : WellFormed spec) (listed : spec ∈ specs)
    (h : SpecRule defaults probe spec number world (.error failure) later) :
    MayFail defaults probe specs failure := by
  cases h with
  | noSource hown hdefault => exact .missingDefault listed hown hdefault
  | noLength hreads hlasts =>
    cases hlasts with
    | unprobed hkind hpresent hduration => exact .unprobed listed hkind hreads hpresent hduration
  | whole hreads hselects _ _ hcut => exact absurd hcut (not_cuts_error formed hreads hselects)
  | ranges hreads hselects _ _ hranges =>
    obtain ⟨tokens, htokens, range, before, after, hrange⟩ := hranges.exists_of_error
    exact mayFail_of_rangeRule formed listed hreads hselects htokens hrange

/-- Where all specifications are well formed, resolution fails only as is left to it. -/
theorem mayFail_of_resolve {run : Run σ} {failure : Failure} (formed : ∀ spec ∈ specs, WellFormed spec)
    (h : (resolve defaults probe specs).answer run = .error failure) :
    MayFail defaults probe specs failure := by
  have hanswer : ((resolve defaults probe specs).answer run).map Timeline.segments =
      .error failure := by rw [h]; rfl
  have hrules := inTurn_of_gives (gives_resolve_iff.1 ⟨hanswer, rfl⟩)
  obtain ⟨spec, hspec, number, before, after, hspecified⟩ := hrules.exists_of_error
  exact mayFail_of_specRule (formed spec hspec) hspec hspecified

/-- Every specification that is read from a text is well formed. So whatever the defaults, the files
and the run, resolution of all of them fails only as is left to it: never over a time, nor over what
is asked of a stream. -/
theorem mayFail_of_parse {text : String} {specs : List InputSpec}
    (h : parse text = .ok specs) :
    (∀ spec ∈ specs, WellFormed spec) ∧
      ∀ (σ : Type) (defaults : Defaults) (probe : Probe σ) (run : Run σ) (failure : Failure),
        (resolve defaults probe specs).answer run = .error failure →
          MayFail defaults probe specs failure := by
  have hformed := parse_wellFormed h
  refine ⟨hformed, ?_⟩
  intro σ defaults probe run failure hfailure
  exact mayFail_of_resolve hformed hfailure

/-- A title for two seconds, and a film for as long as someone talks. -/
def talkText : String :=
  "[f:title.jpg] 0 2 [v:film.mov] 1 @talk.wav"

/-- The inputs of the film with the talk. -/
def talkSpecs : List InputSpec :=
  [⟨.frame, some (.file "title.jpg"), none, [.timestamp .zero, .timestamp ⟨0, 0, 2, 0⟩]⟩,
    ⟨.video, some (.file "film.mov"), none, [.timestamp ⟨0, 0, 1, 0⟩, .durationOf "talk.wav"]⟩]

/-- Knowledge about files where there are none. -/
def emptyProbe : Probe Unit where
  present _ _ := false
  duration _ := pure .zero
  videoSize _ := pure none

/-- Without any file, the second segment of the film with the talk is missing the talk. -/
theorem mayFail_talk :
    parse talkText = .ok talkSpecs ∧ (∀ spec ∈ talkSpecs, WellFormed spec) ∧
      MayFail default emptyProbe talkSpecs (.missingReference 1 "talk.wav") := by
  have hparse : parse talkText = .ok talkSpecs := by decide +kernel
  have hfailure : (resolve default emptyProbe talkSpecs).answer (.start ()) =
      .error (.missingReference 1 "talk.wav") := by decide +kernel
  obtain ⟨hformed, hfails⟩ := mayFail_of_parse hparse
  exact ⟨hparse, hformed, hfails Unit default emptyProbe (.start ()) _ hfailure⟩

end EpisodeCut.Timeline
