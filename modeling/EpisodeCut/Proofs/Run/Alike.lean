import EpisodeCut.Episode.Basic

/-!
# Runs in different worlds

Two probes that tell the same facts may work in quite different worlds. Actions that learn about the
world only through such probes do the same in both (`Run.Alike`): from one draft they give one answer
and leave one draft. Everything that is asked before images are made is of this kind
(`Timeline.alike_resolve`, `Episode.alike_frameSize`).
-/

set_option autoImplicit false

namespace EpisodeCut

/-! ## Facts about files -/

/-- What is the case about files, whenever one asks. -/
structure FileFacts where
  present : Path → Bool
  duration : Path → Except Failure Timecode
  videoSize : Path → Except Failure (Option FrameSize)

/-- The answers of a probe depend on nothing but the path: in every world they are the facts. -/
structure Probe.Tells {σ : Type} (probe : Probe σ) (facts : FileFacts) : Prop where
  present : ∀ path world, probe.present path world = facts.present path
  duration : ∀ path world, (probe.duration path).answer world = facts.duration path
  videoSize : ∀ path world, (probe.videoSize path).answer world = facts.videoSize path

namespace Run

variable {σ τ α β : Type}

/-! ## Actions that do the same -/

/-- From one draft two actions give one answer and leave one draft, whatever their worlds. -/
def Alike (f : Action (Run σ) α) (g : Action (Run τ) α) : Prop :=
  ∀ (run : Run σ) (other : Run τ), run.draft = other.draft →
    f.answer run = g.answer other ∧ (f.after run).draft = (g.after other).draft

theorem alike_pure (a : α) : Alike (pure a : Action (Run σ) α) (pure a : Action (Run τ) α) :=
  fun _ _ same => ⟨rfl, same⟩

theorem alike_throw (failure : Failure) :
    Alike (throw failure : Action (Run σ) α) (throw failure : Action (Run τ) α) :=
  fun _ _ same => ⟨rfl, same⟩

theorem alike_ofExcept (result : Except Failure α) :
    Alike (Action.ofExcept result : Action (Run σ) α)
      (Action.ofExcept result : Action (Run τ) α) := by
  cases result with
  | ok a => exact alike_pure a
  | error failure => exact alike_throw failure

/-- Two actions that give one answer both succeed or both fail. -/
theorem cases_of_answer_eq {f : Action σ α} {g : Action τ α} {world : σ} {other : τ}
    (h : f.answer world = g.answer other) :
    (∃ a later otherLater, f world = .ok a later ∧ g other = .ok a otherLater) ∨
    ∃ failure later otherLater, f world = .error failure later ∧
      g other = .error failure otherLater := by
  cases hf : f world with
  | ok a later =>
    rw [Action.answer_of_ok hf] at h
    exact Or.inl ⟨a, later, _, rfl, Action.eq_ok_of_answer h.symm⟩
  | error failure later =>
    rw [Action.answer_of_error hf] at h
    exact Or.inr ⟨failure, later, _, rfl, Action.eq_error_of_answer h.symm⟩

theorem Alike.bind {f : Action (Run σ) α} {g : Action (Run τ) α} {f' : α → Action (Run σ) β}
    {g' : α → Action (Run τ) β} (first : Alike f g) (second : ∀ a, Alike (f' a) (g' a)) :
    Alike (f >>= f') (g >>= g') := by
  intro run other same
  obtain ⟨hanswer, hdraft⟩ := first run other same
  rcases cases_of_answer_eq hanswer with ⟨a, middle, reached, hf, hg⟩ | ⟨failure, _, _, hf, hg⟩
  · rw [Action.after_of_ok hf, Action.after_of_ok hg] at hdraft
    rw [Action.answer_bind_of_ok hf, Action.answer_bind_of_ok hg, Action.after_bind_of_ok hf,
      Action.after_bind_of_ok hg]
    exact second a middle reached hdraft
  · rw [Action.after_of_error hf, Action.after_of_error hg] at hdraft
    rw [Action.answer_bind_of_error hf, Action.answer_bind_of_error hg,
      Action.after_bind_of_error hf, Action.after_bind_of_error hg]
    exact ⟨rfl, hdraft⟩

/-- Behind an emptied draft, what the drafts were before makes no difference. -/
theorem Alike.afresh {f : Action (Run σ) α} {g : Action (Run τ) α} (alike : Alike f g)
    (run : Run σ) (other : Run τ) :
    let fresh : Action (Run σ) α := modify (fun run => { run with draft := .empty }) >>= fun _ => f
    let otherFresh : Action (Run τ) α :=
      modify (fun run => { run with draft := .empty }) >>= fun _ => g
    fresh.answer run = otherFresh.answer other ∧
      (fresh.after run).draft = (otherFresh.after other).draft :=
  alike { run with draft := .empty } { other with draft := .empty } rfl

/-- Of the run only the draft can be read, and what is said of the world has to be the same. -/
theorem alike_get_bind {f : Run σ → Action (Run σ) α} {g : Run τ → Action (Run τ) α}
    (h : ∀ run other, run.draft = other.draft → Alike (f run) (g other)) :
    Alike (get >>= f) (get >>= g) :=
  fun run other same => h run other same run other same

/-- Warnings are not looked at any more. -/
theorem alike_warn (warnings others : List Warning) :
    Alike (warn warnings : Action (Run σ) Unit) (warn others : Action (Run τ) Unit) :=
  fun _ _ same => ⟨rfl, same⟩

theorem alike_create (punchIn punchOut : Timecode) (input : String) (body : SegmentBody) :
    Alike (create punchIn punchOut input body : Action (Run σ) Segment)
      (create punchIn punchOut input body : Action (Run τ) Segment) := by
  intro run other same
  simp only [Action.answer, Action.after, create, same, and_self]

theorem alike_inWorld {f : Action σ α} {g : Action τ α}
    (h : ∀ world other, f.answer world = g.answer other) : Alike (inWorld f) (inWorld g) := by
  intro run other same
  rcases cases_of_answer_eq (h run.world other.world) with
    ⟨a, world, otherWorld, hf, hg⟩ | ⟨failure, world, otherWorld, hf, hg⟩
  · simp only [Action.answer, Action.after, inWorld, Action.within, hf, hg, true_and]
    exact same
  · simp only [Action.answer, Action.after, inWorld, Action.within, hf, hg, true_and]
    exact same

theorem Alike.mapFailure {f : Action (Run σ) α} {g : Action (Run τ) α} (alike : Alike f g)
    (wrap : Failure → Failure) : Alike (f.mapFailure wrap) (g.mapFailure wrap) := by
  intro run other same
  obtain ⟨hanswer, hdraft⟩ := alike run other same
  rcases cases_of_answer_eq hanswer with
    ⟨a, later, otherLater, hf, hg⟩ | ⟨failure, later, otherLater, hf, hg⟩
  · rw [Action.after_of_ok hf, Action.after_of_ok hg] at hdraft
    simp only [Action.answer, Action.after, Action.mapFailure, hf, hg, true_and]
    exact hdraft
  · rw [Action.after_of_error hf, Action.after_of_error hg] at hdraft
    simp only [Action.answer, Action.after, Action.mapFailure, hf, hg, true_and]
    exact hdraft

end Run

open Run

variable {σ τ : Type} {facts : FileFacts} {probe : Probe σ} {other : Probe τ}

theorem alike_duration (tells : probe.Tells facts) (otherTells : other.Tells facts) (path : Path) :
    Alike (inWorld (probe.duration path)) (inWorld (other.duration path)) := by
  apply alike_inWorld
  intro world otherWorld
  rw [tells.duration, otherTells.duration]

theorem alike_videoSize (tells : probe.Tells facts) (otherTells : other.Tells facts)
    (path : Path) : Alike (inWorld (probe.videoSize path)) (inWorld (other.videoSize path)) := by
  apply alike_inWorld
  intro world otherWorld
  rw [tells.videoSize, otherTells.videoSize]

/-! ## Resolution -/

namespace Timeline

theorem alike_streamDuration (tells : probe.Tells facts) (otherTells : other.Tells facts)
    (kind : MediaKind) (source : SourceRef) :
    Alike (streamDuration probe kind source) (streamDuration other kind source) := by
  cases source with
  | previousSegment => exact alike_pure _
  | file file =>
    refine alike_get_bind fun run otherRun _ => ?_
    rw [tells.present, otherTells.present]
    split
    · exact alike_duration tells otherTells file
    · exact alike_pure _

theorem alike_feedOf (tells : probe.Tells facts) (otherTells : other.Tells facts)
    (defaults : Defaults) (spec : InputSpec) :
    Alike (feedOf defaults probe spec) (feedOf defaults other spec) := by
  refine alike_get_bind fun run otherRun same => ?_
  rw [same]
  refine (alike_ofExcept _).bind fun source => ?_
  exact (alike_streamDuration tells otherTells spec.kind source).bind fun _ => alike_pure _

theorem alike_place (feed : Feed) (punchIn punchOut : Timecode) :
    Alike (place feed punchIn punchOut : Action (Run σ) Segment)
      (place feed punchIn punchOut : Action (Run τ) Segment) := by
  refine alike_get_bind fun run otherRun same => ?_
  rw [same]
  exact (alike_ofExcept _).bind fun drawn => alike_create punchIn punchOut drawn.1 drawn.2

theorem alike_accept (feed : Feed) (punchIn punchOut : Timecode) :
    Alike (accept feed punchIn punchOut : Action (Run σ) (List Segment))
      (accept feed punchIn punchOut : Action (Run τ) (List Segment)) := by
  refine alike_get_bind fun run otherRun same => ?_
  split
  · rw [same]
    exact alike_throw _
  · split
    · exact (alike_warn _ _).bind fun _ => alike_pure _
    · exact (alike_place feed punchIn punchOut).bind fun _ => alike_pure _

theorem alike_punchOutOf (tells : probe.Tells facts) (otherTells : other.Tells facts)
    (punchIn : Timecode) (token : TimeToken) :
    Alike (punchOutOf probe punchIn token) (punchOutOf other punchIn token) := by
  cases token with
  | timestamp clock => exact alike_ofExcept _
  | durationOf file =>
    refine Alike.bind ?_ fun _ => alike_pure _
    refine alike_get_bind fun run otherRun same => ?_
    rw [tells.present, otherTells.present, same]
    split
    · exact (alike_duration tells otherTells file).mapFailure _
    · exact alike_throw _

theorem alike_resolveTimes (tells : probe.Tells facts) (otherTells : other.Tells facts)
    (feed : Feed) (times : List TimeToken) :
    Alike (resolveTimes probe feed times) (resolveTimes other feed times) := by
  induction times using resolveTimes.induct with
  | case1 => exact alike_pure _
  | case2 tail => exact (alike_ofExcept _).bind fun punchIn => alike_accept feed _ _
  | case3 first second rest ih =>
    refine (alike_ofExcept _).bind fun punchIn => ?_
    refine (alike_punchOutOf tells otherTells punchIn second).bind fun punchOut => ?_
    refine (alike_accept feed punchIn punchOut).bind fun made => ?_
    exact ih.bind fun _ => alike_pure _

theorem alike_resolveWhole (feed : Feed) :
    Alike (resolveWhole feed : Action (Run σ) (List Segment))
      (resolveWhole feed : Action (Run τ) (List Segment)) := by
  refine alike_get_bind fun run otherRun same => ?_
  split
  · refine (alike_warn _ _).bind fun _ => ?_
    exact (alike_place feed _ _).bind fun _ => alike_pure _
  · exact (alike_place feed _ _).bind fun _ => alike_pure _

theorem alike_resolveSpec (tells : probe.Tells facts) (otherTells : other.Tells facts)
    (defaults : Defaults) (spec : InputSpec) :
    Alike (resolveSpec defaults probe spec) (resolveSpec defaults other spec) := by
  refine (alike_feedOf tells otherTells defaults spec).bind fun feed => ?_
  split
  · exact alike_resolveWhole feed
  · exact alike_resolveTimes tells otherTells feed spec.times

theorem alike_resolve (tells : probe.Tells facts) (otherTells : other.Tells facts)
    (defaults : Defaults) (specs : List InputSpec) :
    Alike (resolve defaults probe specs) (resolve defaults other specs) := by
  have hspecs : Alike (resolveSpecs defaults probe specs) (resolveSpecs defaults other specs) := by
    induction specs with
    | nil => exact alike_pure _
    | cons spec rest ih =>
      refine (alike_resolveSpec tells otherTells defaults spec).bind fun made => ?_
      exact ih.bind fun _ => alike_pure _
  exact hspecs.bind fun segments => (alike_warn _ _).bind fun _ => alike_pure _

end Timeline

/-! ## The size of pages -/

namespace Episode

theorem alike_pictureSize (tells : probe.Tells facts) (otherTells : other.Tells facts)
    (segments : List Segment) : Alike (pictureSize probe segments) (pictureSize other segments) := by
  induction segments with
  | nil => exact alike_pure _
  | cons segment rest ih =>
    refine alike_get_bind fun run otherRun _ => ?_
    rw [tells.present, otherTells.present]
    split
    · refine (alike_videoSize tells otherTells segment.input).bind fun size => ?_
      cases size with
      | some size => exact alike_pure _
      | none => exact ih
    · exact ih

theorem alike_frameSize (tells : probe.Tells facts) (otherTells : other.Tells facts)
    (options : EpisodeOptions) (timeline : Timeline) :
    Alike (frameSize options probe timeline) (frameSize options other timeline) := by
  unfold frameSize
  split
  · exact alike_pure _
  · split
    · exact alike_pictureSize tells otherTells timeline.segments
    · exact alike_pure _

end Episode

end EpisodeCut
