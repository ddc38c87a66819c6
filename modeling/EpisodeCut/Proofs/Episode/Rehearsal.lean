import EpisodeCut.Proofs.Episode.Inputs
import EpisodeCut.Proofs.Frame.Script
import EpisodeCut.Proofs.Run.Alike

/-!
# Rehearsals

A rehearsal plans what will be rendered, without producing anything (`plan_rehearsed`). What is asked
before images are made depends on the facts about files alone (`Alike`), and the orders for images
are fixed before the first of them is given (`HasScript`). So a plan is the same in all studios that
know the same facts, whatever was planned or cleaned up in them before, unless an order fails, and
then it ends with this failure.
-/

set_option autoImplicit false

namespace EpisodeCut

/-- A probe that knows the facts without looking at anything. -/
def FileFacts.probe (facts : FileFacts) : Probe Unit where
  present path _ := facts.present path
  duration path := Action.ofExcept (facts.duration path)
  videoSize path := Action.ofExcept (facts.videoSize path)

theorem FileFacts.tells_probe (facts : FileFacts) : facts.probe.Tells facts where
  present _ _ := rfl
  duration path world := Action.answer_ofExcept (facts.duration path) world
  videoSize path world := Action.answer_ofExcept (facts.videoSize path) world

namespace Episode

open Run Timeline

variable {σ τ : Type} {facts : FileFacts} {options : EpisodeOptions} {config : Option String}

/-! ## Planning in two parts -/

/-- The stages of planning before images are made: what is played, and the size of pages. -/
def sketch (probe : Probe σ) (options : EpisodeOptions) (config : Option String) :
    Action (Run σ) (Timeline × FrameSize) := do
  modify fun run => { run with draft := .empty }
  let specs ← Action.ofExcept (specsOf options.defaults config)
  let timeline ← Timeline.resolve options.defaults probe specs
  if timeline.isEmpty then throw .nothingLeft
  let size ← frameSize options probe timeline
  pure (timeline, size)

/-- The other stages of planning, for which the files need not be looked at any more. -/
def develop (options : EpisodeOptions) (sketched : Timeline × FrameSize)
    (materializer : Materializer σ) : Action (Run σ) RenderPlan := do
  let resolved ← sketched.1.materialize (.ofOutput options.output) sketched.2 materializer
  let run ← get
  Action.ofExcept (planOf options resolved run.draft.registry)

/-- If nothing interrupts it, a plan is sketched and then developed. -/
theorem plan_eq_sketch (studio : Studio σ) (options : EpisodeOptions) (config : Option String) :
    plan studio options false config = (do
      let sketched ← sketch studio.probe options config
      develop options sketched studio.materializer) := by
  simp only [plan, sketch, develop, bind_assoc]
  refine bind_congr fun _ => bind_congr fun specs => bind_congr fun timeline => ?_
  cases timeline.isEmpty with
  | true => rfl
  | false =>
    simp only [Bool.false_eq_true, if_false, bind_assoc, pure_bind]
    rfl

/-- A sketch begins with an empty draft, so nothing of what was there before is left in it. -/
theorem sketch_alike {probe : Probe σ} {other : Probe τ} (tells : probe.Tells facts)
    (otherTells : other.Tells facts) (run : Run σ) (otherRun : Run τ) :
    (sketch probe options config).answer run = (sketch other options config).answer otherRun ∧
      ((sketch probe options config).after run).draft =
        ((sketch other options config).after otherRun).draft := by
  refine Alike.afresh ?_ run otherRun
  refine (alike_ofExcept _).bind fun specs => ?_
  refine (alike_resolve tells otherTells options.defaults specs).bind fun timeline => ?_
  have hsize := (alike_frameSize tells otherTells options timeline).bind fun size =>
    alike_pure (timeline, size)
  split
  · exact (alike_throw _).bind fun _ => hsize
  · exact hsize

/-- The registry is looked at, and what is planned follows from what it holds. -/
theorem planOf_eq_onDraft (options : EpisodeOptions) (resolved : ResolvedTimeline) :
    (do
      let run ← get
      Action.ofExcept (planOf options resolved run.draft.registry) : Action (Run σ) RenderPlan) =
      onDraft fun draft => (planOf options resolved draft.registry).map fun plan => (plan, draft) := by
  funext run
  rw [Action.get_bind, onDraft]
  cases planOf options resolved run.draft.registry <;> rfl

theorem hasScript_develop (options : EpisodeOptions) (sketched : Timeline × FrameSize) :
    HasScript fun _ materializer => develop options sketched materializer := by
  refine (hasScript_materialize sketched.1 _ sketched.2).bind fun resolved => ?_
  simp only [planOf_eq_onDraft]
  exact hasScript_onDraft _

/-! ## Plans in different studios -/

/-- The orders that planning gives and what it answers if none of them fails follow from the facts
about files, the options and the configuration. -/
theorem exists_answer_plan (facts : FileFacts) (options : EpisodeOptions)
    (config : Option String) :
    ∃ (calls : List (Nat × FrameOrder)) (result : Except Failure RenderPlan),
      ∀ (σ : Type) (studio : Studio σ) (run : Run σ), studio.probe.Tells facts →
        (plan studio options false config).answer run =
          match studio.materializer.carryOut calls
              ((sketch studio.probe options config).after run).world with
          | .ok _ => result
          | .error (number, cause) => .error (.frameFailed number cause) := by
  -- What is sketched from the facts alone is sketched in every studio.
  have halike : ∀ (σ : Type) (studio : Studio σ) (run : Run σ), studio.probe.Tells facts →
      (sketch studio.probe options config).answer run =
          (sketch facts.probe options config).answer (.start ()) ∧
        ((sketch studio.probe options config).after run).draft =
          ((sketch facts.probe options config).after (.start ())).draft :=
    fun σ studio run tells => sketch_alike tells facts.tells_probe run (.start ())
  cases hsketch : sketch facts.probe options config (.start ()) with
  | error failure later =>
    refine ⟨[], .error failure, ?_⟩
    intro σ studio run tells
    obtain ⟨hanswer, -⟩ := halike σ studio run tells
    rw [Action.answer_of_error hsketch] at hanswer
    rw [plan_eq_sketch, Action.answer_bind_of_error (Action.eq_error_of_answer hanswer)]
    rfl
  | ok sketched later =>
    obtain ⟨calls, result, hscript⟩ := hasScript_develop options sketched later.draft
    refine ⟨calls, result.map Prod.fst, ?_⟩
    intro σ studio run tells
    obtain ⟨hanswer, hdraft⟩ := halike σ studio run tells
    rw [Action.answer_of_ok hsketch] at hanswer
    rw [Action.after_of_ok hsketch] at hdraft
    rw [plan_eq_sketch, Action.answer_bind_of_ok (Action.eq_ok_of_answer hanswer)]
    generalize (sketch studio.probe options config).after run = reached at hdraft ⊢
    cases hcalls : studio.materializer.carryOut calls reached.world with
    | error refusal => exact hscript.failed σ _ reached refusal.1 refusal.2 hdraft hcalls
    | ok world =>
      cases hresult : result with
      | error failure => exact hscript.refused σ _ reached world failure hdraft hcalls hresult
      | ok planned =>
        obtain ⟨last, hlast, -⟩ :=
          hscript.done σ _ reached world planned.1 planned.2 hdraft hcalls hresult
        exact Action.answer_of_ok hlast

/-- What can be asked of a studio before an episode is planned in it. -/
inductive Call where
  | plan (interrupted : Bool) (config : Option String)
  | cleanup
  deriving DecidableEq, Repr

/-- The run that a call leaves, also where it fails. -/
def Call.perform (studio : Studio σ) (options : EpisodeOptions) (run : Run σ) : Call → Run σ
  | .plan interrupted config => (Episode.plan studio options interrupted config).after run
  | .cleanup => (Episode.cleanup studio options run).2

/-- The run that calls leave, one after the other. -/
def performCalls (studio : Studio σ) (options : EpisodeOptions) (calls : List Call)
    (run : Run σ) : Run σ :=
  calls.foldl (Call.perform studio options) run

/-- Whatever was asked of two studios before, and whatever happened then: if both know the same facts
about files and the materializer of one of them never fails, then both plan the same, as long as no
order fails in the other one. If an order fails there, the plan fails with the frame for which the
order was given. -/
theorem plan_rehearsed (facts : FileFacts) (options : EpisodeOptions) (config : Option String) :
    ∃ orders : List (Nat × FrameOrder),
      ∀ (σ τ : Type) (studio : Studio σ) (rehearsal : Studio τ) (before earlier : List Call)
        (run : Run σ) (other : Run τ),
        studio.probe.Tells facts → rehearsal.probe.Tells facts →
        rehearsal.materializer.Obliging →
          let reached := performCalls studio options before run
          let rehearsed := (plan rehearsal options false config).answer
            (performCalls rehearsal options earlier other)
          (studio.materializer.Obliging →
            (plan studio options false config).answer reached = rehearsed) ∧
          (plan studio options false config).answer reached =
            match studio.materializer.carryOut orders
                ((sketch studio.probe options config).after reached).world with
            | .ok _ => rehearsed
            | .error (number, cause) => .error (.frameFailed number cause) := by
  obtain ⟨orders, result, hanswer⟩ := exists_answer_plan facts options config
  -- A materializer that never fails gets to the end of the orders.
  have hobliging : ∀ (σ : Type) (studio : Studio σ) (run : Run σ), studio.probe.Tells facts →
      studio.materializer.Obliging → (plan studio options false config).answer run = result := by
    intro σ studio run tells obliging
    obtain ⟨later, hlater⟩ := obliging.exists_carryOut_eq_ok orders
      ((sketch studio.probe options config).after run).world
    rw [hanswer σ studio run tells, hlater]
  refine ⟨orders, ?_⟩
  intro σ τ studio rehearsal before earlier run other tells otherTells obliging reached rehearsed
  have hrehearsed : rehearsed = result := hobliging τ rehearsal _ otherTells obliging
  refine ⟨?_, ?_⟩
  · intro studioObliging
    rw [hrehearsed]
    exact hobliging σ studio reached tells studioObliging
  · rw [hrehearsed]
    exact hanswer σ studio reached tells

/-! ## A lecture planned twice -/

/-- A studio without files that lists all orders. -/
def listingStudio : Studio (Workspace × List FrameOrder) where
  probe := ⟨fun _ _ => false, fun _ => pure .zero, fun _ => pure none⟩
  materializer := Materializer.idle.recording
  workspace := Prod.fst
  setWorkspace workspace world := (workspace, world.2)

/-- What is the case where there are no files. -/
def noFiles : FileFacts :=
  ⟨fun _ => false, fun _ => .ok .zero, fun _ => .ok none⟩

theorem obliging_recording : (Materializer.idle.recording : Materializer (σ × _)).Obliging := by
  intro order world
  obtain ⟨inner, orders⟩ := world
  exact ⟨(inner, orders ++ [order]), Materializer.perform_recording order inner orders⟩

/-- A studio in which a plan has been interrupted plans the lecture as one does in which nothing has
happened. -/
theorem plan_rehearsed_lecture :
    listingStudio.probe.Tells noFiles ∧ quietStudio.probe.Tells noFiles ∧
      listingStudio.materializer.Obliging ∧ quietStudio.materializer.Obliging ∧
      (plan listingStudio lectureOptions false (some lectureText)).answer
          (performCalls listingStudio lectureOptions
            [.plan true (some lectureText), .cleanup, .plan false none]
            (.start (quietWorkspace, []))) =
        (plan quietStudio lectureOptions false (some lectureText)).answer
          (.start quietWorkspace) := by
  have htells : listingStudio.probe.Tells noFiles :=
    ⟨fun _ _ => rfl, fun _ _ => rfl, fun _ _ => rfl⟩
  have hquiet : quietStudio.probe.Tells noFiles :=
    ⟨fun _ _ => rfl, fun _ _ => rfl, fun _ _ => rfl⟩
  have hlisting : listingStudio.materializer.Obliging := obliging_recording
  have hidle : quietStudio.materializer.Obliging := Materializer.obliging_idle
  refine ⟨htells, hquiet, hlisting, hidle, ?_⟩
  obtain ⟨orders, horders⟩ := plan_rehearsed noFiles lectureOptions (some lectureText)
  exact (horders _ _ listingStudio quietStudio _ [] _ (.start quietWorkspace) htells hquiet
    hidle).1 hlisting

end Episode

end EpisodeCut
