import EpisodeCut.Proofs.Timeline.Drawn
import EpisodeCut.Proofs.Timeline.Rules

/-!
# Resolution follows the rules

Resolution yields what the rules for specifications say, and nothing else (`resolve_iff_inTurn`).
Each step of it gives what its rule says (`Cuts.gives`, `RangeRule.gives`, `SpecRule.gives`), and so
do all of them in turn (`InTurn.gives`). Since there is a rule for every case, this is all that can
be seen of it.
-/

set_option autoImplicit false

namespace EpisodeCut.Timeline

open Run

variable {σ α β : Type} {defaults : Defaults} {probe : Probe σ}

/-! ## What is seen of an action -/

/-- The action answers or fails like this, and leaves the world like this. -/
def Gives (action : Action (Run σ) α) (run : Run σ) (result : Except Failure α) (world : σ) : Prop :=
  action.answer run = result ∧ (action.after run).world = world

theorem gives_of_error {action : Action (Run σ) α} {run later : Run σ} {failure : Failure}
    (h : action run = .error failure later) : Gives action run (.error failure) later.world :=
  ⟨Action.answer_of_error h, by rw [Action.after_of_error h]⟩

theorem Gives.exists_ok {action : Action (Run σ) α} {run : Run σ} {a : α} {world : σ}
    (h : Gives action run (.ok a) world) : ∃ later, action run = .ok a later ∧ later.world = world :=
  ⟨_, Action.eq_ok_of_answer h.1, h.2⟩

/-- After a first step that succeeds, an action gives what its second step gives. -/
theorem Gives.bind {f : Action (Run σ) α} {g : α → Action (Run σ) β} {run middle : Run σ} {a : α}
    {result : Except Failure β} {world : σ} (first : f run = .ok a middle)
    (second : Gives (g a) middle result world) : Gives (f >>= g) run result world := by
  obtain ⟨hanswer, hworld⟩ := second
  constructor
  · rw [Action.answer_bind_of_ok first, hanswer]
  · rw [Action.after_bind_of_ok first, hworld]

theorem Gives.bind_error {f : Action (Run σ) α} {g : α → Action (Run σ) β} {run : Run σ}
    {failure : Failure} {world : σ} (first : Gives f run (.error failure) world) :
    Gives (f >>= g) run (.error failure) world := by
  obtain ⟨hanswer, hworld⟩ := first
  cases hf : f run with
  | ok a middle =>
    rw [Action.answer_of_ok hf] at hanswer
    cases hanswer
  | error other later =>
    rw [Action.answer_of_error hf] at hanswer
    cases hanswer
    rw [Action.after_of_error hf] at hworld
    rw [← hworld]
    exact gives_of_error (Action.bind_eq_of_error hf)

/-! ## In turn -/

/-- Carry out an action for one thing after another and collect the segments. -/
def inTurn (act : α → Action (Run σ) (List Segment)) : List α → Action (Run σ) (List Segment)
  | [] => pure []
  | first :: rest => do
    let made ← act first
    let others ← inTurn act rest
    pure (made ++ others)

theorem resolveSpecs_eq (specs : List InputSpec) :
    resolveSpecs defaults probe specs = inTurn (resolveSpec defaults probe) specs := by
  induction specs with
  | nil => rfl
  | cons spec rest ih => rw [resolveSpecs, inTurn, ih]

/-- The rule is that of an action on a run: the number of the next segment and the world are all that
it depends on. -/
def Follows (rule : α → Nat → σ → Except Failure (List Segment) → σ → Prop)
    (act : α → Action (Run σ) (List Segment)) : Prop :=
  ∀ thing (run : Run σ) result later,
    rule thing run.draft.next run.world result later → Gives (act thing) run result later

/-- Where each action follows its rule, all of them in turn follow the rules in turn: the segments
that an action makes are those that it numbers. -/
theorem InTurn.gives {rule : α → Nat → σ → Except Failure (List Segment) → σ → Prop}
    {act : α → Action (Run σ) (List Segment)} {P : α → Segment → Prop}
    (makes : ∀ thing, Makes (P thing) (act thing)) (follows : Follows rule act) :
    Follows (InTurn rule) (inTurn act) := by
  intro things run result later h
  -- The induction is on how the rules were followed. What carries it is that before each thing the
  -- run counts and stands where the rules do.
  generalize hnumber : run.draft.next = number at h
  generalize hworld : run.world = world at h
  induction h generalizing run with
  | done => exact ⟨rfl, hworld⟩
  | made hfirst _ ih =>
    subst hnumber hworld
    obtain ⟨middle, hact, hmiddle⟩ := (follows _ _ _ _ hfirst).exists_ok
    have hnext := ((makes _).of_ok hact).grows.next
    obtain ⟨last, hrest, hlast⟩ := (ih middle hnext hmiddle).exists_ok
    rw [← hlast]
    exact .bind hact (.bind hrest ⟨rfl, rfl⟩)
  | failsLater hfirst _ ih =>
    subst hnumber hworld
    obtain ⟨middle, hact, hmiddle⟩ := (follows _ _ _ _ hfirst).exists_ok
    have hnext := ((makes _).of_ok hact).grows.next
    exact .bind hact (ih middle hnext hmiddle).bind_error
  | fails hfirst =>
    subst hnumber hworld
    exact (follows _ _ _ _ hfirst).bind_error

/-! ## Ranges -/

theorem BeginsAt.punchInOf_eq {token : TimeToken} {result : Except Failure Timecode}
    (h : BeginsAt token result) : punchInOf token = result := by
  cases h with
  | point hpoint =>
    rw [punchInOf, pointOf, ClockTime.toTimecode?_eq, ← hpoint, Timecode.ofMillis?_toNat]
  | tooLarge hlarge =>
    rw [punchInOf, pointOf, ClockTime.toTimecode?_eq, Timecode.ofMillis?_eq_none_iff.2 hlarge]
  | reference => rfl

/-- The point at which a range ends: the next time, or the end of the stream. -/
def rangeEnd (probe : Probe σ) (duration punchIn : Timecode) :
    Option TimeToken → Action (Run σ) Timecode
  | some token => punchOutOf probe punchIn token
  | none => pure duration

/-- What the probe answers about the length of a file is passed on, or its failure is wrapped. -/
theorem referencedDuration_of_present {run : Run σ} {file : String}
    (present : probe.present file run.world = true) :
    referencedDuration probe file run =
      (inWorld (probe.duration file)).mapFailure (.unreadableReference run.draft.next file) run := by
  rw [referencedDuration, Action.get_bind, if_pos present]

theorem EndsAt.gives {duration punchIn : Timecode} {second : Option TimeToken} {run : Run σ}
    {result : Except Failure Timecode} {later : σ}
    (h : EndsAt probe run.draft.next duration punchIn second run.world result later) :
    Gives (rangeEnd probe duration punchIn second) run result later := by
  generalize hworld : run.world = world at h
  cases h with
  | stream => exact ⟨rfl, hworld⟩
  | point hpoint =>
    rw [rangeEnd, punchOutOf, pointOf, ClockTime.toTimecode?_eq, ← hpoint, Timecode.ofMillis?_toNat]
    exact ⟨rfl, hworld⟩
  | tooLarge hlarge =>
    rw [rangeEnd, punchOutOf, pointOf, ClockTime.toTimecode?_eq,
      Timecode.ofMillis?_eq_none_iff.2 hlarge]
    exact ⟨rfl, hworld⟩
  | reference hpresent hlength hend =>
    subst hworld
    rw [← Timecode.toNat_add] at hend
    rw [Timecode.eq_of_toNat hend]
    have hreference := referencedDuration_of_present hpresent
    simp only [Action.mapFailure, inWorld, Action.within, hlength] at hreference
    exact .bind hreference ⟨rfl, rfl⟩
  | @missing file _ hmissing =>
    subst hworld
    have hreference : referencedDuration probe file run =
        .error (.missingReference run.draft.next file) run := by
      rw [referencedDuration, Action.get_bind, hmissing]
      rfl
    exact (gives_of_error hreference).bind_error
  | unreadable hpresent hlength =>
    subst hworld
    have hreference := referencedDuration_of_present hpresent
    simp only [Action.mapFailure, inWorld, Action.within, hlength] at hreference
    exact (gives_of_error hreference).bind_error

section Feed

variable {kind : MediaKind} {source : SourceRef} {index : FrameNumber} {duration : Timecode}

theorem Plays.content_eq {number : Nat} {input : String} {body : SegmentBody}
    (h : Plays number kind source index input body) :
    content number ⟨kind, source, index, duration⟩ = .ok (input, body) := by
  cases h with
  | audio => rfl
  | video => rfl
  | image hdocument => simp [content, FrameSource.ofFile?, hdocument]
  | page hdocument => simp [content, FrameSource.ofFile?, hdocument, placeholder]
  | previous => rfl

theorem Unplayable.content_eq {number : Nat} {failure : Failure}
    (h : Unplayable number kind source index failure) :
    content number ⟨kind, source, index, duration⟩ = .error failure := by
  cases h with
  | previous hkind =>
    cases kind with
    | audio => rfl
    | video => rfl
    | frame => exact absurd rfl hkind
  | last hkind =>
    cases kind with
    | audio => rfl
    | video => rfl
    | frame => exact absurd rfl hkind

theorem Cuts.gives {run : Run σ} {punchIn punchOut : Timecode}
    {result : Except Failure (List Segment)}
    (h : Cuts run.draft.next kind source index punchIn punchOut result) :
    Gives (do
      let segment ← place ⟨kind, source, index, duration⟩ punchIn punchOut
      pure [segment]) run result run.world := by
  cases h with
  | @segment input body hplays =>
    have hplace : place ⟨kind, source, index, duration⟩ punchIn punchOut run =
        Run.create punchIn punchOut input body run := by
      rw [place, Action.get_bind, hplays.content_eq]
      rfl
    rw [← Draft.segment_create]
    exact .bind hplace ⟨rfl, rfl⟩
  | @unplayable failure hunplayable =>
    have hplace : place ⟨kind, source, index, duration⟩ punchIn punchOut run =
        .error failure run := by
      rw [place, Action.get_bind, hunplayable.content_eq]
      rfl
    exact (gives_of_error hplace).bind_error

theorem CutsBetween.gives {run : Run σ} {punchIn punchOut : Timecode}
    {result : Except Failure (List Segment)}
    (h : CutsBetween run.draft.next kind source index punchIn punchOut result) :
    Gives (accept ⟨kind, source, index, duration⟩ punchIn punchOut) run result run.world := by
  apply Gives.bind rfl
  cases h with
  | reversed hlt =>
    rw [if_pos hlt]
    exact ⟨rfl, rfl⟩
  | dropped heq =>
    rw [heq, if_neg (Nat.lt_irrefl _), if_pos rfl]
    exact ⟨rfl, rfl⟩
  | cut hlt hcuts =>
    rw [if_neg (by omega), if_neg (by omega)]
    exact hcuts.gives

/-- The range over the whole stream is cut whatever its length. -/
theorem Cuts.gives_whole {run : Run σ} {result : Except Failure (List Segment)}
    (h : Cuts run.draft.next kind source index .zero duration result) :
    Gives (resolveWhole ⟨kind, source, index, duration⟩) run result run.world := by
  rw [resolveWhole]
  apply Gives.bind rfl
  split
  -- A warning changes neither the number of the segment nor the world.
  · obtain ⟨warned, hwarn, hdraft, hworld⟩ : ∃ warned, warn [.emptyStream run.draft.next kind] run =
        .ok () warned ∧ warned.draft = run.draft ∧ warned.world = run.world := ⟨_, rfl, rfl, rfl⟩
    rw [← hdraft] at h
    rw [← hworld]
    exact .bind hwarn h.gives
  · exact h.gives

end Feed

/-- Make the segment of a time and the time after it. -/
def resolveRange (probe : Probe σ) (feed : Feed) (tokens : TimeToken × Option TimeToken) :
    Action (Run σ) (List Segment) := do
  let punchIn ← Action.ofExcept (punchInOf tokens.1)
  let punchOut ← rangeEnd probe feed.duration punchIn tokens.2
  accept feed punchIn punchOut

theorem resolveTimes_eq (feed : Feed) (times : List TimeToken) :
    resolveTimes probe feed times = inTurn (resolveRange probe feed) (pairs times) := by
  induction times using pairs.induct with
  | case1 => rfl
  | case2 tail => simp [resolveTimes, pairs, inTurn, resolveRange, rangeEnd]
  | case3 first second rest ih =>
    simp [resolveTimes, pairs, inTurn, resolveRange, rangeEnd, ih]

theorem asks_rangeEnd (duration punchIn : Timecode) (second : Option TimeToken) :
    Asks (rangeEnd probe duration punchIn second) := by
  cases second with
  | none => exact .pure _
  | some token => exact asks_punchOutOf punchIn token

theorem makes_resolveRange (feed : Feed) (tokens : TimeToken × Option TimeToken) :
    Makes (FedBy feed) (resolveRange probe feed tokens) := by
  refine (asks_ofExcept _).makes_bind fun _ punchIn _ _ => ?_
  exact (asks_rangeEnd feed.duration punchIn tokens.2).makes_bind fun _ _ _ _ => makes_accept feed _ _

theorem RangeRule.gives (probe : Probe σ) (kind : MediaKind) (source : SourceRef)
    (index : FrameNumber) (duration : Timecode) :
    Follows (RangeRule probe kind source index duration)
      (resolveRange probe ⟨kind, source, index, duration⟩) := by
  intro tokens run result later h
  have hpunchIn : ∀ {first : TimeToken} {punchIn : Timecode}, BeginsAt first (.ok punchIn) →
      Action.ofExcept (punchInOf first) run = .ok punchIn run := by
    intro first punchIn hbegins
    rw [hbegins.punchInOf_eq]
    rfl
  cases h with
  | beginning hbegins =>
    rw [resolveRange, hbegins.punchInOf_eq]
    exact (gives_of_error rfl).bind_error
  | ending hbegins hends => exact .bind (hpunchIn hbegins) hends.gives.bind_error
  | range hbegins hends hcuts =>
    obtain ⟨middle, hend, hmiddle⟩ := hends.gives.exists_ok
    -- Nothing is made before both ends are known, so the number is still the same.
    have hdraft := (asks_rangeEnd duration _ _).draft hend
    rw [← hdraft] at hcuts
    rw [← hmiddle]
    exact .bind (hpunchIn hbegins) (.bind hend hcuts.gives)

/-! ## Specifications -/

theorem ReadsFrom.sourceOf_eq {spec : InputSpec} {source : SourceRef} {number : Nat}
    (h : ReadsFrom defaults spec source) : sourceOf defaults number spec = .ok source := by
  cases h with
  | own hown => rw [sourceOf, hown]
  | default hown hdefault => rw [sourceOf, hown, hdefault]

theorem Selects.indexOf_eq {spec : InputSpec} {index : FrameNumber}
    (h : Selects defaults spec index) : indexOf defaults spec = index := by
  cases h with
  | own hown => rw [indexOf, hown]; rfl
  | default hown hdefault => rw [indexOf, hown, hdefault]; rfl
  | first hown hdefault => rw [indexOf, hown, hdefault]; rfl

theorem Lasts.gives {kind : MediaKind} {source : SourceRef} {run : Run σ}
    {result : Except Failure Timecode} {later : σ}
    (h : Lasts probe kind source run.world result later) :
    Gives (streamDuration probe kind source) run result later := by
  generalize hworld : run.world = world at h
  cases h with
  | probed hkind hpresent hduration =>
    subst hworld
    apply Gives.bind rfl
    rw [if_pos ⟨hkind, hpresent⟩]
    constructor <;> simp only [Action.answer, Action.after, inWorld, Action.within, hduration]
  | unprobed hkind hpresent hduration =>
    subst hworld
    apply Gives.bind rfl
    rw [if_pos ⟨hkind, hpresent⟩]
    constructor <;> simp only [Action.answer, Action.after, inWorld, Action.within, hduration]
  | frame hkind =>
    apply Gives.bind rfl
    rw [if_neg (fun h => h.1 hkind)]
    exact ⟨rfl, hworld⟩
  | absent habsent =>
    subst hworld
    apply Gives.bind rfl
    rw [if_neg (by simp [habsent])]
    exact ⟨rfl, rfl⟩
  | previous => exact ⟨rfl, hworld⟩

/-- The first part of a specification completes it and makes nothing. -/
theorem feedOf_of_reads {spec : InputSpec} {source : SourceRef} {index : FrameNumber}
    {duration : Timecode} {run : Run σ} {later : σ} (reads : ReadsFrom defaults spec source)
    (selects : Selects defaults spec index)
    (lasts : Lasts probe spec.kind source run.world (.ok duration) later) :
    ∃ middle, feedOf defaults probe spec run = .ok ⟨spec.kind, source, index, duration⟩ middle ∧
      middle.draft = run.draft ∧ middle.world = later := by
  obtain ⟨middle, hduration, hworld⟩ := lasts.gives.exists_ok
  refine ⟨middle, ?_, (asks_streamDuration spec.kind source).draft hduration, hworld⟩
  rw [feedOf, Action.get_bind, reads.sourceOf_eq]
  refine (Action.bind_eq_of_ok rfl).trans ((Action.bind_eq_of_ok hduration).trans ?_)
  rw [selects.indexOf_eq]
  rfl

theorem SpecRule.gives (defaults : Defaults) (probe : Probe σ) :
    Follows (SpecRule defaults probe) (resolveSpec defaults probe) := by
  intro spec run result later h
  generalize hworld : run.world = world at h
  cases h with
  | noSource hown hdefault =>
    have hfeed : feedOf defaults probe spec run =
        .error (.missingDefault run.draft.next spec.kind) run := by
      rw [feedOf, Action.get_bind, sourceOf, hown, hdefault]
      rfl
    rw [← hworld]
    exact (gives_of_error hfeed).bind_error
  | noLength hreads hlasts =>
    subst hworld
    apply Gives.bind_error
    rw [feedOf]
    apply Gives.bind rfl
    rw [hreads.sourceOf_eq]
    exact .bind rfl hlasts.gives.bind_error
  | whole hreads hselects hlasts htimes hcuts =>
    subst hworld
    obtain ⟨middle, hfeed, hdraft, hmiddle⟩ := feedOf_of_reads hreads hselects hlasts
    rw [← hdraft] at hcuts
    rw [← hmiddle]
    refine .bind hfeed ?_
    rw [if_pos (by simp [htimes])]
    exact hcuts.gives_whole
  | ranges hreads hselects hlasts htimes hranges =>
    subst hworld
    obtain ⟨middle, hfeed, hdraft, hmiddle⟩ := feedOf_of_reads hreads hselects hlasts
    rw [← hdraft, ← hmiddle] at hranges
    refine .bind hfeed ?_
    rw [if_neg (by simpa using htimes), resolveTimes_eq]
    exact InTurn.gives (makes_resolveRange _) (RangeRule.gives probe _ _ _ _) _ _ _ _ hranges

/-! ## All of it -/

/-- The warning at the end changes neither the segments nor the world. -/
theorem gives_resolve_iff {specs : List InputSpec} {run : Run σ}
    {result : Except Failure (List Segment)} {world : σ} :
    (((resolve defaults probe specs).answer run).map Timeline.segments = result ∧
      ((resolve defaults probe specs).after run).world = world) ↔
      Gives (resolveSpecs defaults probe specs) run result world := by
  rw [Gives, resolve]
  cases hspecs : resolveSpecs defaults probe specs run with
  | ok segments later =>
    rw [Action.answer_bind_of_ok hspecs, Action.after_bind_of_ok hspecs, Action.answer_of_ok hspecs,
      Action.after_of_ok hspecs]
    rfl
  | error failure later =>
    rw [Action.answer_bind_of_error hspecs, Action.after_bind_of_error hspecs,
      Action.answer_of_error hspecs, Action.after_of_error hspecs]
    rfl

theorem gives_of_inTurn {specs : List InputSpec} {run : Run σ}
    {result : Except Failure (List Segment)} {world : σ}
    (h : InTurn (SpecRule defaults probe) specs run.draft.next run.world result world) :
    Gives (resolveSpecs defaults probe specs) run result world := by
  rw [resolveSpecs_eq]
  exact InTurn.gives makes_resolveSpec (SpecRule.gives defaults probe) _ _ _ _ h

/-- What resolution answers is what the rules say. -/
theorem inTurn_of_gives {specs : List InputSpec} {run : Run σ}
    {result : Except Failure (List Segment)} {world : σ}
    (h : Gives (resolveSpecs defaults probe specs) run result world) :
    InTurn (SpecRule defaults probe) specs run.draft.next run.world result world := by
  -- The rules say something, and resolution gives it, so it is what resolution gives.
  obtain ⟨other, later, hother⟩ :=
    InTurn.total (SpecRule.total defaults probe) specs run.draft.next run.world
  obtain ⟨hanswer, hworld⟩ := gives_of_inTurn hother
  rw [h.1] at hanswer
  rw [h.2] at hworld
  rw [hanswer, hworld]
  exact hother

/-- Resolution yields exactly the segments that the rules for the specifications say in turn, with
the world that the questions to the probe leave, or else the failure with which the first of them
ends. -/
theorem resolve_iff_inTurn (defaults : Defaults) (probe : Probe σ) (specs : List InputSpec)
    (run : Run σ) (result : Except Failure (List Segment)) (world : σ) :
    (((resolve defaults probe specs).answer run).map Timeline.segments = result ∧
      ((resolve defaults probe specs).after run).world = world) ↔
      InTurn (SpecRule defaults probe) specs run.draft.next run.world result world := by
  rw [gives_resolve_iff]
  exact ⟨inTurn_of_gives, gives_of_inTurn⟩

end EpisodeCut.Timeline
