import EpisodeCut.Proofs.Run.Drafting
import EpisodeCut.Timeline.Resolve
import Mathlib.Data.List.Forall2

/-!
# Segments drawn from specifications

Which input and body a segment has, as its number and its specification determine them
(`DrawnFrom`). Resolution makes segments and does nothing else that is on record, also where it
fails (`made_resolve`); the segments that it answers are drawn from the specifications one after
another.
-/

set_option autoImplicit false

namespace EpisodeCut.Timeline

open Run

variable {σ : Type} {defaults : Defaults} {probe : Probe σ}

/-- The source of a specification, where it has one or its kind has a default file. -/
def sourceOf? (defaults : Defaults) (spec : InputSpec) : Option SourceRef :=
  spec.source.or ((defaults.get spec.kind).file.map SourceRef.file)

/-- The segment has the input and the body that its number has in a feed of the specification. -/
def DrawnFrom (defaults : Defaults) (spec : InputSpec) (segment : Segment) : Prop :=
  ∃ feed : Feed, feed.kind = spec.kind ∧ sourceOf? defaults spec = some feed.source ∧
    content segment.number feed = .ok (segment.input, segment.body)

theorem sourceOf?_of_sourceOf {number : Nat} {spec : InputSpec} {source : SourceRef}
    (h : sourceOf defaults number spec = .ok source) : sourceOf? defaults spec = some source := by
  unfold sourceOf at h
  unfold sourceOf?
  split at h
  · next hsource =>
    cases h
    rw [hsource]
    rfl
  · next hsource hfile =>
    cases h
    rw [hsource, hfile]
    rfl
  · cases h

/-! ## One segment -/

/-- The segment has the input and the body that its number has in a feed. -/
def FedBy (feed : Feed) (segment : Segment) : Prop :=
  content segment.number feed = .ok (segment.input, segment.body)

/-- Making the segment of a range either fails at once or makes the one segment that the feed
describes. -/
theorem makes_place (feed : Feed) (punchIn punchOut : Timecode) :
    Makes (σ := σ) (FedBy feed) (do
      let segment ← place feed punchIn punchOut
      pure [segment]) := by
  intro run
  cases hcontent : content run.draft.next feed with
  | error failure =>
    have hplace : place feed punchIn punchOut run = .error failure run := by
      rw [place, Action.get_bind, hcontent]
      rfl
    refine ⟨[], ?_, ?_⟩
    · rw [Action.after_bind_of_error hplace]
      exact .of_books rfl
    · intro answer later h
      rw [Action.bind_eq_of_error hplace] at h
      cases h
  | ok drawn =>
    obtain ⟨input, body⟩ := drawn
    have hplace : place feed punchIn punchOut run = Run.create punchIn punchOut input body run := by
      rw [place, Action.get_bind, hcontent]
      rfl
    refine ⟨[(run.draft.create punchIn punchOut input body).segment], ?_, ?_⟩
    · rw [Action.after_bind_of_ok hplace]
      refine ⟨Draft.grows_create _ _ _ _ _, ?_, rfl, ?_⟩
      · exact (Draft.withSegment_create _ _ _ _ _).symm
      · intro segment hsegment
        rw [List.mem_singleton.1 hsegment, FedBy, Draft.segment_create]
        exact hcontent
    · intro answer later h
      rw [Action.bind_eq_of_ok hplace] at h
      cases h
      rfl

/-! ## The segments of a specification -/

theorem makes_accept (feed : Feed) (punchIn punchOut : Timecode) :
    Makes (σ := σ) (FedBy feed) (accept feed punchIn punchOut) := by
  rw [accept]
  refine asks_get.makes_bind fun run same later h => ?_
  split
  · exact makes_throw _ _
  · split
    · exact (asks_warn _).makes_bind fun _ _ _ _ => makes_nil _
    · exact makes_place feed punchIn punchOut

theorem asks_referencedDuration (file : String) : Asks (referencedDuration probe file) := by
  rw [referencedDuration]
  refine asks_get.bind fun run => ?_
  split
  · exact (asks_inWorld _).mapFailure _
  · exact asks_throw _

theorem asks_punchOutOf (punchIn : Timecode) (token : TimeToken) :
    Asks (punchOutOf probe punchIn token) := by
  cases token with
  | timestamp clock => exact asks_ofExcept _
  | durationOf file => exact (asks_referencedDuration file).bind fun _ => .pure _

theorem makes_resolveTimes (feed : Feed) (times : List TimeToken) :
    Makes (FedBy feed) (resolveTimes probe feed times) := by
  induction times using resolveTimes.induct with
  | case1 => exact makes_nil _
  | case2 tail => exact (asks_ofExcept _).makes_bind fun _ _ _ _ => makes_accept feed _ _
  | case3 first second rest ih =>
    refine (asks_ofExcept _).makes_bind fun _ punchIn _ _ => ?_
    refine (asks_punchOutOf punchIn second).makes_bind fun _ punchOut _ _ => ?_
    exact (makes_accept feed punchIn punchOut).append ih

theorem makes_resolveWhole (feed : Feed) : Makes (σ := σ) (FedBy feed) (resolveWhole feed) := by
  rw [resolveWhole]
  refine asks_get.makes_bind fun run same later h => ?_
  split
  · exact (asks_warn _).makes_bind fun _ _ _ _ => makes_place feed _ _
  · exact makes_place feed _ _

theorem asks_streamDuration (kind : MediaKind) (source : SourceRef) :
    Asks (streamDuration probe kind source) := by
  cases source with
  | previousSegment => exact .pure _
  | file file =>
    refine asks_get.bind fun run => ?_
    split
    · exact asks_inWorld _
    · exact .pure _

theorem asks_feedOf (spec : InputSpec) : Asks (feedOf defaults probe spec) := by
  rw [feedOf]
  refine asks_get.bind fun run => ?_
  refine (asks_ofExcept _).bind fun source => ?_
  exact (asks_streamDuration spec.kind source).bind fun _ => .pure _

/-- What is fed to a specification is of its kind and comes from its source. -/
theorem feedOf_eq_ok {spec : InputSpec} {run later : Run σ} {feed : Feed}
    (h : feedOf defaults probe spec run = .ok feed later) :
    feed.kind = spec.kind ∧ sourceOf? defaults spec = some feed.source := by
  rw [feedOf] at h
  obtain ⟨same, middle, hget, hstep⟩ := Action.bind_eq_ok h
  obtain ⟨source, next, hsource, hrest⟩ := Action.bind_eq_ok hstep
  obtain ⟨duration, last, -, hfeed⟩ := Action.bind_eq_ok hrest
  cases hfeed
  exact ⟨rfl, sourceOf?_of_sourceOf (Action.ofExcept_eq_ok hsource).1⟩

theorem makes_resolveSpec (spec : InputSpec) :
    Makes (DrawnFrom defaults spec) (resolveSpec defaults probe spec) := by
  rw [resolveSpec]
  refine (asks_feedOf spec).makes_bind fun run feed later hfeed => ?_
  obtain ⟨hkind, hsource⟩ := feedOf_eq_ok hfeed
  have hfed : Makes (FedBy feed) (if spec.times.isEmpty then resolveWhole feed
      else resolveTimes probe feed spec.times) := by
    split
    · exact makes_resolveWhole feed
    · exact makes_resolveTimes feed spec.times
  exact hfed.imp fun segment h => ⟨feed, hkind, hsource, h⟩

/-! ## The segments of all specifications -/

/-- The segments are drawn from the specifications one after another. -/
def DrawnInTurn (defaults : Defaults) (specs : List InputSpec) (segments : List Segment) : Prop :=
  ∃ parts : List (List Segment), segments = parts.flatten ∧
    List.Forall₂ (fun spec part => ∀ segment ∈ part, DrawnFrom defaults spec segment) specs parts

/-- The segment is drawn from one of the specifications. -/
def DrawnFromSome (defaults : Defaults) (specs : List InputSpec) (segment : Segment) : Prop :=
  ∃ spec ∈ specs, DrawnFrom defaults spec segment

theorem DrawnFromSome.cons {spec : InputSpec} {specs : List InputSpec} {segment : Segment}
    (h : DrawnFromSome defaults specs segment) : DrawnFromSome defaults (spec :: specs) segment := by
  obtain ⟨other, hother, hdrawn⟩ := h
  exact ⟨other, List.mem_cons_of_mem spec hother, hdrawn⟩

theorem makes_resolveSpecs (specs : List InputSpec) :
    Makes (DrawnFromSome defaults specs) (resolveSpecs defaults probe specs) := by
  induction specs with
  | nil => exact makes_nil _
  | cons spec rest ih =>
    have hfirst : Makes (DrawnFromSome defaults (spec :: rest)) (resolveSpec defaults probe spec) :=
      (makes_resolveSpec spec).imp fun segment h => ⟨spec, List.mem_cons_self, h⟩
    exact hfirst.append (ih.imp fun segment h => h.cons)

theorem drawnInTurn_of_resolveSpecs {specs : List InputSpec} {run later : Run σ}
    {made : List Segment} (h : resolveSpecs defaults probe specs run = .ok made later) :
    DrawnInTurn defaults specs made := by
  induction specs generalizing run made with
  | nil =>
    cases h
    exact ⟨[], rfl, .nil⟩
  | cons spec rest ih =>
    rw [resolveSpecs] at h
    obtain ⟨part, middle, hpart, hrest⟩ := Action.bind_eq_ok h
    obtain ⟨others, last, hothers, hall⟩ := Action.bind_eq_ok hrest
    cases hall
    obtain ⟨parts, rfl, hparts⟩ := ih hothers
    exact ⟨part :: parts, rfl, .cons ((makes_resolveSpec spec).of_ok hpart).holds hparts⟩

/-- Resolution makes segments from the specifications and leaves everything else on record as it is,
whether it fails or not. -/
theorem made_resolve (defaults : Defaults) (probe : Probe σ) (specs : List InputSpec)
    (run : Run σ) :
    ∃ made, Made (DrawnFromSome defaults specs) run made
      ((resolve defaults probe specs).after run) := by
  have hmakes : Makes (DrawnFromSome defaults specs) (resolveSpecs defaults probe specs) :=
    makes_resolveSpecs specs
  obtain ⟨made, hmade, -⟩ := hmakes run
  refine ⟨made, ?_⟩
  cases hsegments : resolveSpecs defaults probe specs run with
  | error failure middle =>
    rw [resolve, Action.after_bind_of_error hsegments]
    rw [Action.after_of_error hsegments] at hmade
    exact hmade
  | ok segments middle =>
    rw [resolve, Action.after_bind_of_ok hsegments]
    rw [Action.after_of_ok hsegments] at hmade
    -- All that is left to do is to warn, which changes nothing that is on record.
    exact ⟨hmade.grows, hmade.replayed, hmade.artifacts, hmade.holds⟩

/-- A timeline that is resolved consists of all segments that were made. -/
theorem resolve_eq_ok {specs : List InputSpec} {run later : Run σ} {timeline : Timeline}
    (h : resolve defaults probe specs run = .ok timeline later) :
    Made (DrawnFromSome defaults specs) run timeline.segments later ∧
      DrawnInTurn defaults specs timeline.segments := by
  rw [resolve] at h
  obtain ⟨segments, middle, hsegments, hrest⟩ := Action.bind_eq_ok h
  cases hrest
  have hmade := (makes_resolveSpecs specs).of_ok hsegments
  exact ⟨⟨hmade.grows, hmade.replayed, hmade.artifacts, hmade.holds⟩,
    drawnInTurn_of_resolveSpecs hsegments⟩

end EpisodeCut.Timeline
