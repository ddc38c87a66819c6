import EpisodeCut.Proofs.Timeline.Ranges
import EpisodeCut.Proofs.Timeline.Stills

/-!
# What a resolution leaves on record

A resolution that succeeds numbers its segments without gaps, lets none of them end before it
begins, and registers the inputs that are new in the order of their first uses (`Recorded`). One that
fails leaves on record what the specifications before the range at fault leave. It is broken off
there (`BrokenOff`): up to that range the resolution succeeds, and with that range alone added it
fails as the whole does. So the range and all that follows take no number and register nothing
(`recorded_resolve`).
-/

set_option autoImplicit false

namespace EpisodeCut

/-! ## New inputs -/

theorem eraseDups_concat {α : Type} [DecidableEq α] (xs : List α) (x : α) :
    (xs ++ [x]).eraseDups = if x ∈ xs then xs.eraseDups else xs.eraseDups ++ [x] := by
  rw [List.eraseDups_append]
  split
  · next hmem => simp [List.removeAll, hmem]
  · next hmem => simp [List.removeAll, hmem, List.eraseDups_cons]

/-- The inputs of the segments that are not registered, each once, in the order of first uses. -/
def newInputs (registered : List String) (made : List Segment) : List String :=
  ((made.map Segment.input).filter (· ∉ registered)).eraseDups

theorem newInputs_concat (registered : List String) (made : List Segment) (segment : Segment) :
    newInputs registered (made ++ [segment]) =
      if segment.input ∈ registered ∨ segment.input ∈ made.map Segment.input
      then newInputs registered made else newInputs registered made ++ [segment.input] := by
  rw [newInputs, newInputs, List.map_append, List.filter_append]
  by_cases hold : segment.input ∈ registered
  · simp [hold]
  · have hkept : (List.map Segment.input [segment]).filter (· ∉ registered) = [segment.input] := by
      simp [hold]
    rw [hkept, eraseDups_concat]
    simp only [List.mem_filter, hold, not_false_eq_true, decide_true, and_true, false_or]

theorem mem_newInputs {registered : List String} {made : List Segment} {path : String} :
    path ∈ newInputs registered made ↔ path ∈ made.map Segment.input ∧ path ∉ registered := by
  simp [newInputs]

/-- Making segments appends their new inputs to the registry. -/
theorem Draft.paths_replay (draft : Draft) (made : List Segment) :
    (draft.replay made).registry.paths =
      draft.registry.paths ++ newInputs draft.registry.paths made := by
  -- Induction from the end: the last segment registers its input if nothing before it did.
  induction made using List.reverseRecOn with
  | nil => simp [newInputs]
  | append_singleton made segment ih =>
    rw [replay_append, replay_cons, replay_nil, withSegment, paths_create, Registry.paths_register,
      newInputs_concat, ih]
    by_cases hold : segment.input ∈ draft.registry.paths ∨ segment.input ∈ made.map Segment.input
    · rw [if_pos hold, if_pos]
      rw [List.mem_append, mem_newInputs]
      tauto
    · rw [if_neg hold, if_neg, List.append_assoc]
      rw [List.mem_append, mem_newInputs]
      tauto

/-- Files that were registered before keep their places. -/
theorem Draft.indexOf?_replay {draft : Draft} {made : List Segment} {path : String} {place : Nat}
    (h : draft.registry.indexOf? path = some place) :
    (draft.replay made).registry.indexOf? path = some place := by
  rw [Registry.indexOf?_eq_some_iff] at h ⊢
  rw [paths_replay, List.getElem?_append_left (List.getElem?_eq_some_iff.1 h).1]
  exact h

namespace Timeline

open Run

variable {σ α : Type} {defaults : Defaults} {probe : Probe σ}

/-! ## One thing after another -/

/-- What holds of all segments of each thing holds of all segments. -/
theorem forall_inTurn {act : α → Action (Run σ) (List Segment)} {P : Segment → Prop}
    (each : ∀ thing run made later, act thing run = .ok made later → ∀ segment ∈ made, P segment)
    {things : List α} {run later : Run σ} {made : List Segment}
    (h : inTurn act things run = .ok made later) : ∀ segment ∈ made, P segment := by
  induction things generalizing run made with
  | nil =>
    cases h
    simp
  | cons first rest ih =>
    obtain ⟨part, middle, hfirst, hrest⟩ := Action.bind_eq_ok h
    obtain ⟨others, last, hothers, hall⟩ := Action.bind_eq_ok hrest
    cases hall
    intro segment hsegment
    rcases List.mem_append.1 hsegment with hsegment | hsegment
    · exact each _ _ _ _ hfirst segment hsegment
    · exact ih hothers segment hsegment

/-- One thing more comes last. -/
theorem inTurn_concat {act : α → Action (Run σ) (List Segment)} {front : List α} {thing : α}
    {run middle later : Run σ} {made others : List Segment}
    (first : inTurn act front run = .ok made middle) (last : act thing middle = .ok others later) :
    inTurn act (front ++ [thing]) run = .ok (made ++ others) later := by
  induction front generalizing run made with
  | nil =>
    cases first
    rw [List.nil_append, inTurn, Action.bind_eq_of_ok last]
    simp only [inTurn, pure_bind, List.append_nil]
    rfl
  | cons next front ih =>
    obtain ⟨part, between, hnext, hrest⟩ := Action.bind_eq_ok first
    obtain ⟨more, done, hmore, hall⟩ := Action.bind_eq_ok hrest
    cases hall
    rw [List.cons_append, inTurn, Action.bind_eq_of_ok hnext, Action.bind_eq_of_ok (ih hmore),
      List.append_assoc]
    rfl

/-- Where it fails, one of the things fails after those before it. -/
theorem inTurn_eq_error {act : α → Action (Run σ) (List Segment)} {things : List α}
    {run later : Run σ} {failure : Failure} (h : inTurn act things run = .error failure later) :
    ∃ front thing back made middle, things = front ++ thing :: back ∧
      inTurn act front run = .ok made middle ∧ act thing middle = .error failure later := by
  induction things generalizing run with
  | nil => cases h
  | cons first rest ih =>
    rcases Action.bind_eq_error h with hfirst | ⟨part, between, hfirst, hothers⟩
    · exact ⟨[], first, rest, [], run, rfl, rfl, hfirst⟩
    · rcases Action.bind_eq_error hothers with hrest | ⟨others, last, -, hnone⟩
      · obtain ⟨front, thing, back, made, middle, rfl, hfront, hthing⟩ := ih hrest
        refine ⟨first :: front, thing, back, part ++ made, middle, rfl, ?_, hthing⟩
        rw [inTurn, Action.bind_eq_of_ok hfirst, Action.bind_eq_of_ok hfront]
        rfl
      · cases hnone

/-- Where one of the things fails after those before it, all of them fail. -/
theorem inTurn_error {act : α → Action (Run σ) (List Segment)} {front back : List α} {thing : α}
    {run middle later : Run σ} {made : List Segment} {failure : Failure}
    (first : inTurn act front run = .ok made middle) (last : act thing middle = .error failure later) :
    inTurn act (front ++ thing :: back) run = .error failure later := by
  induction front generalizing run made with
  | nil =>
    cases first
    exact Action.bind_eq_of_error last
  | cons next front ih =>
    obtain ⟨part, between, hnext, hrest⟩ := Action.bind_eq_ok first
    obtain ⟨more, done, hmore, hall⟩ := Action.bind_eq_ok hrest
    cases hall
    rw [List.cons_append, inTurn, Action.bind_eq_of_ok hnext, Action.bind_eq_of_error (ih hmore)]

/-! ## One range -/

/-- The segment that is placed has the range it is placed for. -/
theorem placed_eq_ok {feed : Feed} {punchIn punchOut : Timecode} {run later : Run σ}
    {made : List Segment}
    (h : (do
      let segment ← place feed punchIn punchOut
      pure [segment]) run = .ok made later) :
    ∀ segment ∈ made, segment.punchIn = punchIn ∧ segment.punchOut = punchOut := by
  obtain ⟨placed, middle, hplace, hmade⟩ := Action.bind_eq_ok h
  rw [place, Action.get_bind] at hplace
  obtain ⟨drawn, _, -, hcreate⟩ := Action.bind_eq_ok hplace
  cases hmade
  cases hcreate
  intro segment hsegment
  rw [List.mem_singleton.1 hsegment, Draft.segment_create]
  exact ⟨rfl, rfl⟩

/-- What cannot be placed changes nothing. -/
theorem placed_eq_error {feed : Feed} {punchIn punchOut : Timecode} {run later : Run σ}
    {failure : Failure}
    (h : (do
      let segment ← place feed punchIn punchOut
      pure [segment]) run = .error failure later) : later = run := by
  rcases Action.bind_eq_error h with hplace | ⟨_, _, -, hnone⟩
  · rw [place, Action.get_bind] at hplace
    rcases Action.bind_eq_error hplace with hcontent | ⟨drawn, middle, -, hcreate⟩
    · exact Action.eq_of_ofExcept_eq_error hcontent
    · cases hcreate
  · cases hnone

/-- A range that is accepted has a length, or it makes no segment. -/
theorem accept_eq_ok {feed : Feed} {punchIn punchOut : Timecode} {run later : Run σ}
    {made : List Segment} (h : accept feed punchIn punchOut run = .ok made later) :
    ∀ segment ∈ made, segment.punchIn.toNat < segment.punchOut.toNat := by
  rw [accept, Action.get_bind] at h
  split at h
  · cases h
  · split at h
    · cases h
      simp
    · next hreversed hempty =>
      intro segment hsegment
      obtain ⟨hin, hout⟩ := placed_eq_ok h segment hsegment
      rw [hin, hout]
      omega

theorem accept_eq_error {feed : Feed} {punchIn punchOut : Timecode} {run later : Run σ}
    {failure : Failure} (h : accept feed punchIn punchOut run = .error failure later) :
    later = run := by
  rw [accept, Action.get_bind] at h
  split at h
  · cases h
    rfl
  · split at h
    · cases h
    · exact placed_eq_error h

theorem resolveRange_eq_ok {feed : Feed} {tokens : TimeToken × Option TimeToken}
    {run later : Run σ} {made : List Segment}
    (h : resolveRange probe feed tokens run = .ok made later) :
    ∀ segment ∈ made, segment.punchIn.toNat < segment.punchOut.toNat := by
  obtain ⟨punchIn, first, -, hrest⟩ := Action.bind_eq_ok h
  obtain ⟨punchOut, second, -, haccept⟩ := Action.bind_eq_ok hrest
  exact accept_eq_ok haccept

/-- A range that fails leaves the draft as it is. -/
theorem resolveRange_eq_error {feed : Feed} {tokens : TimeToken × Option TimeToken}
    {run later : Run σ} {failure : Failure}
    (h : resolveRange probe feed tokens run = .error failure later) :
    later.draft = run.draft := by
  rcases Action.bind_eq_error h with hbegin | ⟨punchIn, first, hbegin, hrest⟩
  · rw [Action.eq_of_ofExcept_eq_error hbegin]
  obtain ⟨-, rfl⟩ := Action.ofExcept_eq_ok hbegin
  have hasks : Asks (rangeEnd probe feed.duration punchIn tokens.2) := asks_rangeEnd _ _ _
  rcases Action.bind_eq_error hrest with hend | ⟨punchOut, second, hend, haccept⟩
  · exact congrArg Prod.fst (hasks.of_error hend)
  · rw [accept_eq_error haccept]
    exact hasks.draft hend

/-! ## One specification -/

/-- The range of a specification without times begins at zero. -/
theorem resolveWhole_eq_ok {feed : Feed} {run later : Run σ} {made : List Segment}
    (h : resolveWhole feed run = .ok made later) :
    ∀ segment ∈ made, segment.punchIn = .zero := by
  intro segment hsegment
  rw [resolveWhole, Action.get_bind] at h
  split at h
  · obtain ⟨_, warned, -, hrest⟩ := Action.bind_eq_ok h
    exact (placed_eq_ok hrest segment hsegment).1
  · exact (placed_eq_ok h segment hsegment).1

theorem resolveWhole_eq_error {feed : Feed} {run later : Run σ} {failure : Failure}
    (h : resolveWhole feed run = .error failure later) : later.draft = run.draft := by
  rw [resolveWhole, Action.get_bind] at h
  split at h
  · rcases Action.bind_eq_error h with hwarn | ⟨_, warned, hwarn, hrest⟩
    · cases hwarn
    · rw [placed_eq_error hrest]
      exact (asks_warn _).draft hwarn
  · rw [placed_eq_error h]

/-- The ranges of a specification do not end before they begin, and only a range without times has no
length. -/
theorem resolveSpec_eq_ok {spec : InputSpec} {run later : Run σ} {made : List Segment}
    (h : resolveSpec defaults probe spec run = .ok made later) :
    ∀ segment ∈ made, segment.punchIn.toNat ≤ segment.punchOut.toNat ∧
      (spec.times ≠ [] → segment.punchIn.toNat < segment.punchOut.toNat) := by
  rw [resolveSpec] at h
  obtain ⟨feed, fed, -, hrest⟩ := Action.bind_eq_ok h
  split at hrest
  · next htimes =>
    intro segment hsegment
    have hzero : Timecode.zero.toNat = 0 := rfl
    rw [resolveWhole_eq_ok hrest segment hsegment, hzero]
    exact ⟨Nat.zero_le _, fun hnonempty => absurd (List.isEmpty_iff.1 htimes) hnonempty⟩
  · rw [resolveTimes_eq] at hrest
    intro segment hsegment
    have hlt := forall_inTurn (fun _ _ _ _ => resolveRange_eq_ok) hrest segment hsegment
    exact ⟨Nat.le_of_lt hlt, fun _ => hlt⟩

/-- The first pairs are those of the first times. -/
theorem pairs_take (times : List TimeToken) (count : Nat) :
    pairs (times.take (2 * count)) = (pairs times).take count := by
  induction times using pairs.induct generalizing count with
  | case1 => simp [pairs]
  | case2 tail => cases count <;> simp [pairs, Nat.mul_succ]
  | case3 first second rest ih =>
    cases count with
    | zero => rfl
    | succ count =>
      rw [Nat.mul_succ, List.take_succ_cons, List.take_succ_cons, pairs, pairs, List.take_succ_cons,
        ih]

theorem length_pairs (times : List TimeToken) : (pairs times).length = (times.length + 1) / 2 := by
  induction times using pairs.induct with
  | case1 => rfl
  | case2 tail => simp [pairs]
  | case3 first second rest ih =>
    simp only [pairs, List.length_cons, ih]
    omega

/-- Once a specification is completed, its ranges follow in turn, as many as are left of its times. -/
theorem resolveSpec_take {spec : InputSpec} {feed : Feed} {run fed : Run σ} {count : Nat}
    (hfeed : feedOf defaults probe spec run = .ok feed fed) (htimes : spec.times ≠ [])
    (hcount : 0 < count) :
    resolveSpec defaults probe { spec with times := spec.times.take (2 * count) } run =
      inTurn (resolveRange probe feed) ((pairs spec.times).take count) fed := by
  -- What a specification reads does not depend on its times.
  have hcut : feedOf defaults probe { spec with times := spec.times.take (2 * count) } run =
      .ok feed fed := hfeed
  have hnonempty : ¬(spec.times.take (2 * count)).isEmpty = true := by
    rw [List.isEmpty_iff, List.take_eq_nil_iff]
    rintro (hzero | hnone)
    · omega
    · exact htimes hnone
  rw [resolveSpec, Action.bind_eq_of_ok hcut, if_neg hnonempty, resolveTimes_eq, pairs_take]

/-- A specification that fails does so in its first range, or in a range after some that succeed. Up
to that range it fails in the same way, and the range leaves the draft as it is. -/
theorem resolveSpec_eq_error {spec : InputSpec} {run later : Run σ} {failure : Failure}
    (h : resolveSpec defaults probe spec run = .error failure later) :
    (resolveSpec defaults probe { spec with times := spec.times.take 2 } run = .error failure later ∧
      later.draft = run.draft) ∨
    ∃ ranges made middle, 0 < ranges ∧ 2 * ranges < spec.times.length ∧
      resolveSpec defaults probe { spec with times := spec.times.take (2 * ranges) } run =
        .ok made middle ∧
      resolveSpec defaults probe { spec with times := spec.times.take (2 * (ranges + 1)) } run =
        .error failure later ∧
      later.draft = middle.draft := by
  have hasks : Asks (feedOf defaults probe spec) := asks_feedOf spec
  rcases Action.bind_eq_error h with hfeed | ⟨feed, fed, hfeed, hrest⟩
  · have hfirst : feedOf defaults probe { spec with times := spec.times.take 2 } run =
        .error failure later := hfeed
    exact .inl ⟨Action.bind_eq_of_error hfirst, congrArg Prod.fst (hasks.of_error hfeed)⟩
  have hfed := hasks.draft hfeed
  split at hrest
  · next hwhole =>
    have hnone : spec.times = [] := List.isEmpty_iff.1 hwhole
    have hsame : { spec with times := spec.times.take 2 } = spec := by
      rw [hnone, List.take_nil, ← hnone]
    left
    rw [hsame, resolveWhole_eq_error hrest, hfed]
    exact ⟨h, rfl⟩
  next hranges =>
  have htimes : spec.times ≠ [] := fun hnone => hranges (List.isEmpty_iff.2 hnone)
  rw [resolveTimes_eq] at hrest
  obtain ⟨front, tokens, back, made, middle, hpairs, hfront, hfails⟩ := inTurn_eq_error hrest
  have hdraft := resolveRange_eq_error hfails
  -- The times of the ranges in front, and of these with the one that fails, are cut off in pairs.
  have hbefore : (pairs spec.times).take front.length = front := by
    rw [hpairs, List.take_left]
  have hthrough : (pairs spec.times).take (front.length + 1) = front ++ [tokens] := by
    rw [hpairs, List.take_length_add_append]
    rfl
  have hlast : resolveSpec defaults probe
      { spec with times := spec.times.take (2 * (front.length + 1)) } run =
        .error failure later := by
    rw [resolveSpec_take hfeed htimes (Nat.succ_pos _), hthrough]
    exact inTurn_error hfront hfails
  cases front with
  | nil =>
    -- A specification without times is played whole, so it cannot be kept with no range left.
    cases hfront
    left
    rw [hdraft, hfed]
    exact ⟨hlast, rfl⟩
  | cons pair front =>
    right
    refine ⟨(pair :: front).length, made, middle, Nat.succ_pos _, ?_, ?_, hlast, hdraft⟩
    · have hlength : (pairs spec.times).length = (pair :: front).length + (back.length + 1) := by
        rw [hpairs, List.length_append]
        rfl
      rw [length_pairs] at hlength
      omega
    · rw [resolveSpec_take hfeed htimes (List.length_pos_of_ne_nil (List.cons_ne_nil pair front)),
        hbefore]
      exact hfront

/-! ## All specifications -/

/-- The specifications broken off at a range: `cut` is all that stands before the range, `through`
is the same with the range. It is the first of its specification, or some whole ranges of the same
specification come before it. -/
inductive BrokenOff : (cut through specs : List InputSpec) → Prop
  | first (front : List InputSpec) (spec : InputSpec) (back : List InputSpec) :
      BrokenOff front (front ++ [{ spec with times := spec.times.take 2 }]) (front ++ spec :: back)
  | next (front : List InputSpec) (spec : InputSpec) (back : List InputSpec) (ranges : Nat) :
      0 < ranges → 2 * ranges < spec.times.length →
      BrokenOff (front ++ [{ spec with times := spec.times.take (2 * ranges) }])
        (front ++ [{ spec with times := spec.times.take (2 * (ranges + 1)) }])
        (front ++ spec :: back)

/-- Specifications that fail are broken off at a range: up to it they succeed, with it they fail as
all of them do, and it leaves the draft as it is. -/
theorem resolveSpecs_eq_error {specs : List InputSpec} {run later : Run σ} {failure : Failure}
    (h : resolveSpecs defaults probe specs run = .error failure later) :
    ∃ cut through made middle, BrokenOff cut through specs ∧
      resolveSpecs defaults probe cut run = .ok made middle ∧
      resolveSpecs defaults probe through run = .error failure later ∧
      later.draft = middle.draft := by
  simp only [resolveSpecs_eq] at h ⊢
  obtain ⟨front, spec, back, made, middle, rfl, hfront, hfails⟩ := inTurn_eq_error h
  rcases resolveSpec_eq_error hfails with
    ⟨hfirst, hdraft⟩ | ⟨ranges, others, last, hpos, hshort, hcut, hthrough, hdraft⟩
  · exact ⟨_, _, made, middle, .first front spec back, hfront, inTurn_error hfront hfirst, hdraft⟩
  · exact ⟨_, _, made ++ others, last, .next front spec back ranges hpos hshort,
      inTurn_concat hfront hcut, inTurn_error hfront hthrough, hdraft⟩

/-- What a resolution leaves on record: `segments` were made of the specifications in turn, between
the drafts `before` and `after`. -/
structure Recorded (defaults : Defaults) (probe : Probe σ) (before : Draft)
    (specs : List InputSpec) (segments : List Segment) (after : Draft) : Prop where
  numbers : segments.map Segment.number = List.range' before.next segments.length
  next : after.next = before.next + segments.length
  ranges : ∃ parts : List (List Segment), segments = parts.flatten ∧
    List.Forall₂ (fun spec part =>
      (∃ start stop : Run σ, resolveSpec defaults probe spec start = .ok part stop) ∧
      ∀ segment ∈ part, segment.punchIn.toNat ≤ segment.punchOut.toNat ∧
        (spec.times ≠ [] → segment.punchIn.toNat < segment.punchOut.toNat)) specs parts
  paths : after.registry.paths =
    before.registry.paths ++ newInputs before.registry.paths segments
  kept : ∀ path place, before.registry.indexOf? path = some place →
    after.registry.indexOf? path = some place

theorem ranges_of_resolveSpecs {specs : List InputSpec} {run later : Run σ} {made : List Segment}
    (h : resolveSpecs defaults probe specs run = .ok made later) :
    ∃ parts : List (List Segment), made = parts.flatten ∧
      List.Forall₂ (fun spec part =>
        (∃ start stop : Run σ, resolveSpec defaults probe spec start = .ok part stop) ∧
        ∀ segment ∈ part, segment.punchIn.toNat ≤ segment.punchOut.toNat ∧
          (spec.times ≠ [] → segment.punchIn.toNat < segment.punchOut.toNat)) specs parts := by
  induction specs generalizing run made with
  | nil =>
    cases h
    exact ⟨[], rfl, .nil⟩
  | cons spec rest ih =>
    obtain ⟨part, middle, hpart, hrest⟩ := Action.bind_eq_ok h
    obtain ⟨others, last, hothers, hall⟩ := Action.bind_eq_ok hrest
    cases hall
    obtain ⟨parts, rfl, hparts⟩ := ih hothers
    exact ⟨part :: parts, rfl, .cons ⟨⟨run, middle, hpart⟩, resolveSpec_eq_ok hpart⟩ hparts⟩

theorem recorded_of_resolveSpecs {specs : List InputSpec} {run later : Run σ}
    {made : List Segment} (h : resolveSpecs defaults probe specs run = .ok made later) :
    Recorded defaults probe run.draft specs made later.draft := by
  have hmade := (makes_resolveSpecs specs).of_ok h
  refine ⟨hmade.grows.numbers, hmade.grows.next, ranges_of_resolveSpecs h, ?_, ?_⟩
  · rw [hmade.replayed, Draft.paths_replay]
  · intro path place hplace
    rw [hmade.replayed]
    exact Draft.indexOf?_replay hplace

/-- The warning at the end leaves the draft as it is. -/
theorem resolve_eq_of_resolveSpecs {specs : List InputSpec} {run later : Run σ}
    {made : List Segment} (h : resolveSpecs defaults probe specs run = .ok made later) :
    ∃ last, resolve defaults probe specs run = .ok ⟨made⟩ last ∧ last.draft = later.draft := by
  rw [resolve, Action.bind_eq_of_ok h]
  exact ⟨_, rfl, rfl⟩

theorem resolve_eq_of_resolveSpecs_error {specs : List InputSpec} {run later : Run σ}
    {failure : Failure} (h : resolveSpecs defaults probe specs run = .error failure later) :
    resolve defaults probe specs run = .error failure later :=
  Action.bind_eq_of_error h

/-- A resolution that succeeds leaves its segments on record: numbered on from the draft without
gaps, none ending before it begins, and only one without times of its own without length; their new
inputs follow those registered before in the order of first uses, and no file changes its place. One
that fails is broken off at a range. What stands before the range is resolved, with the range added
the resolution ends with the same failure and in the same state, and what that state has on record is
what the resolution of what stands before the range leaves. -/
theorem recorded_resolve (defaults : Defaults) (probe : Probe σ) (specs : List InputSpec)
    (run : Run σ) :
    (∀ timeline later, resolve defaults probe specs run = .ok timeline later →
      Recorded defaults probe run.draft specs timeline.segments later.draft) ∧
    ∀ failure later, resolve defaults probe specs run = .error failure later →
      ∃ cut through timeline middle, BrokenOff cut through specs ∧
        resolve defaults probe cut run = .ok timeline middle ∧
        resolve defaults probe through run = .error failure later ∧
        middle.draft = later.draft ∧
        Recorded defaults probe run.draft cut timeline.segments later.draft := by
  constructor
  · intro timeline later h
    obtain ⟨made, middle, hspecs, hrest⟩ := Action.bind_eq_ok h
    have hrecorded := recorded_of_resolveSpecs hspecs
    cases hrest
    exact hrecorded
  · intro failure later h
    rcases Action.bind_eq_error h with hspecs | ⟨made, middle, -, hrest⟩
    · obtain ⟨cut, through, made, middle, hbroken, hcut, hthrough, hdraft⟩ :=
        resolveSpecs_eq_error hspecs
      obtain ⟨last, hresolve, hlast⟩ := resolve_eq_of_resolveSpecs hcut
      have hrecorded := recorded_of_resolveSpecs hcut
      rw [← hdraft] at hlast hrecorded
      exact ⟨cut, through, ⟨made⟩, last, hbroken, hresolve,
        resolve_eq_of_resolveSpecs_error hthrough, hlast, hrecorded⟩
    · cases hrest

/-- The tour, and of a song three seconds, nothing, and a range that ends before it begins. -/
def songTour : List InputSpec :=
  tour ++ [⟨.audio, some (.file "song.mp3"), none, [.timestamp .zero, .timestamp ⟨0, 0, 3, 0⟩,
    .timestamp ⟨0, 0, 5, 0⟩, .timestamp ⟨0, 0, 5, 0⟩, .timestamp ⟨0, 0, 9, 0⟩,
    .timestamp ⟨0, 0, 7, 0⟩]⟩]

theorem recorded_tours :
    (∃ later, resolve default blindProbe tour (.start ()) = .ok tourTimeline later ∧
      Recorded default blindProbe .empty tour tourTimeline.segments later.draft) ∧
    ∃ failure later, resolve default blindProbe songTour (.start ()) = .error failure later ∧
      ∃ cut through timeline middle, BrokenOff cut through songTour ∧
        resolve default blindProbe cut (.start ()) = .ok timeline middle ∧
        resolve default blindProbe through (.start ()) = .error failure later ∧
        middle.draft = later.draft ∧
        Recorded default blindProbe .empty cut timeline.segments later.draft := by
  have htour : (resolve default blindProbe tour).answer (.start ()) = .ok tourTimeline := by
    decide +kernel
  have hsong : (resolve default blindProbe songTour).answer (.start ()) =
      .error (.reversedRange 5 (.ofSeconds 9) (.ofSeconds 7)) := by
    decide +kernel
  have hresolve := Action.eq_ok_of_answer htour
  have hfails := Action.eq_error_of_answer hsong
  exact ⟨⟨_, hresolve, (recorded_resolve default blindProbe tour _).1 _ _ hresolve⟩,
    _, _, hfails, (recorded_resolve default blindProbe songTour _).2 _ _ hfails⟩

end Timeline

end EpisodeCut
