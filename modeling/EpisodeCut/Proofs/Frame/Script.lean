import EpisodeCut.Proofs.Frame.Images
import EpisodeCut.Proofs.Frame.Orders

/-!
# Scripts

Which orders are given for a timeline, and what is answered in the end, is fixed before the first
order is given: it follows from the draft. A materializer learns the orders one after another, and
all that it can do about it is to fail (`Run.Scripted`). If it does, the frame for which the order
was given fails; otherwise everything goes as if nobody had been asked. Actions with a script can be
put one after another (`Run.HasScript.bind`), so making the images of a timeline has one
(`Timeline.hasScript_materialize`).
-/

set_option autoImplicit false

namespace EpisodeCut

/-! ## Carrying out orders -/

namespace Materializer

variable {σ : Type} {materializer : Materializer σ}

/-- Carry out orders for numbered segments, up to the first order that fails. The answer is the world
in the end, or the number of the segment and the cause. -/
def carryOut (materializer : Materializer σ) : List (Nat × FrameOrder) → σ → Except (Nat × Failure) σ
  | [], world => .ok world
  | (number, order) :: rest, world =>
    match materializer.perform order world with
    | .ok _ later => materializer.carryOut rest later
    | .error cause _ => .error (number, cause)

theorem carryOut_append (calls others : List (Nat × FrameOrder)) (world : σ) :
    materializer.carryOut (calls ++ others) world =
      (materializer.carryOut calls world).bind (materializer.carryOut others) := by
  induction calls generalizing world with
  | nil => rfl
  | cons call rest ih =>
    obtain ⟨number, order⟩ := call
    rw [List.cons_append, carryOut, carryOut]
    cases materializer.perform order world with
    | ok done later => exact ih later
    | error cause later => rfl

/-- A materializer that never fails. -/
def Obliging (materializer : Materializer σ) : Prop :=
  ∀ order world, ∃ later, materializer.perform order world = .ok () later

theorem obliging_idle : (idle : Materializer σ).Obliging :=
  fun _ world => ⟨world, rfl⟩

theorem Obliging.exists_carryOut_eq_ok (obliging : materializer.Obliging)
    (calls : List (Nat × FrameOrder)) (world : σ) :
    ∃ later, materializer.carryOut calls world = .ok later := by
  induction calls generalizing world with
  | nil => exact ⟨world, rfl⟩
  | cons call rest ih =>
    obtain ⟨number, order⟩ := call
    obtain ⟨later, hperform⟩ := obliging order world
    obtain ⟨last, hrest⟩ := ih later
    refine ⟨last, ?_⟩
    rw [carryOut, hperform]
    exact hrest

end Materializer

/-! ## Actions with a script -/

namespace Run

variable {α β : Type}

/-- From runs with this draft an action has its materializer carry out these calls. The first one
that fails decides; if none fails, the answer and the draft are as the script has them, and only the
materializer has changed the world. -/
structure Scripted (act : (σ : Type) → Materializer σ → Action (Run σ) α) (draft : Draft)
    (calls : List (Nat × FrameOrder)) (result : Except Failure (α × Draft)) : Prop where
  failed : ∀ (σ : Type) (materializer : Materializer σ) (run : Run σ) (number : Nat)
    (cause : Failure), run.draft = draft →
    materializer.carryOut calls run.world = .error (number, cause) →
    (act σ materializer).answer run = .error (.frameFailed number cause)
  refused : ∀ (σ : Type) (materializer : Materializer σ) (run : Run σ) (world : σ)
    (failure : Failure), run.draft = draft → materializer.carryOut calls run.world = .ok world →
    result = .error failure → (act σ materializer).answer run = .error failure
  done : ∀ (σ : Type) (materializer : Materializer σ) (run : Run σ) (world : σ) (a : α)
    (last : Draft), run.draft = draft → materializer.carryOut calls run.world = .ok world →
    result = .ok (a, last) →
    ∃ later, act σ materializer run = .ok a later ∧ later.draft = last ∧ later.world = world

/-- An action that has a script for every draft. -/
def HasScript (act : (σ : Type) → Materializer σ → Action (Run σ) α) : Prop :=
  ∀ draft, ∃ calls result, Scripted act draft calls result

/-- An action on the draft alone. -/
def onDraft {σ : Type} (step : Draft → Except Failure (α × Draft)) : Action (Run σ) α := fun run =>
  match step run.draft with
  | .ok (a, draft) => .ok a { run with draft := draft }
  | .error failure => .error failure run

/-- An action on the draft alone needs no calls. -/
theorem hasScript_onDraft (step : Draft → Except Failure (α × Draft)) :
    HasScript fun σ _ => (onDraft step : Action (Run σ) α) := by
  intro draft
  refine ⟨[], step draft, ?_, ?_, ?_⟩
  · intro σ materializer run number cause hdraft hcalls
    cases hcalls
  · intro σ materializer run world failure hdraft hcalls hstep
    apply Action.answer_of_error
    rw [onDraft, hdraft, hstep]
  · intro σ materializer run world a last hdraft hcalls hstep
    cases hcalls
    refine ⟨{ run with draft := last }, ?_, rfl, rfl⟩
    rw [onDraft, hdraft, hstep]

theorem ofExcept_eq_onDraft {σ : Type} (result : Except Failure α) :
    (Action.ofExcept result : Action (Run σ) α) =
      onDraft fun draft => result.map fun a => (a, draft) := by
  funext run
  cases result <;> rfl

theorem hasScript_ofExcept (result : Except Failure α) :
    HasScript fun σ _ => (Action.ofExcept result : Action (Run σ) α) := by
  simp only [ofExcept_eq_onDraft]
  exact hasScript_onDraft _

theorem hasScript_pure (a : α) : HasScript fun σ _ => (pure a : Action (Run σ) α) :=
  hasScript_ofExcept (.ok a)

section Bind

variable {f : (σ : Type) → Materializer σ → Action (Run σ) α}
  {g : α → (σ : Type) → Materializer σ → Action (Run σ) β} {draft middle : Draft}
  {calls others : List (Nat × FrameOrder)} {a : α}

/-- Of the calls of two actions, one of the first action's fails, or the second action begins as its
script says. -/
theorem Scripted.reaches (first : Scripted f draft calls (.ok (a, middle))) {σ : Type}
    (materializer : Materializer σ) {run : Run σ} (hdraft : run.draft = draft) :
    (∃ refusal, materializer.carryOut calls run.world = .error refusal ∧
      materializer.carryOut (calls ++ others) run.world = .error refusal) ∨
    ∃ reached, f σ materializer run = .ok a reached ∧ reached.draft = middle ∧
      materializer.carryOut (calls ++ others) run.world =
        materializer.carryOut others reached.world := by
  rw [Materializer.carryOut_append]
  cases hcalls : materializer.carryOut calls run.world with
  | error refusal => exact Or.inl ⟨refusal, rfl, rfl⟩
  | ok world =>
    obtain ⟨reached, hreached, hlast, hworld⟩ :=
      first.done σ materializer run world a middle hdraft hcalls rfl
    subst hworld
    exact Or.inr ⟨reached, hreached, hlast, rfl⟩

theorem Scripted.bind {result : Except Failure (β × Draft)}
    (first : Scripted f draft calls (.ok (a, middle)))
    (second : Scripted (g a) middle others result) :
    Scripted (fun σ materializer => f σ materializer >>= fun a => g a σ materializer) draft
      (calls ++ others) result := by
  refine ⟨?_, ?_, ?_⟩
  · intro σ materializer run number cause hdraft hcalls
    rcases first.reaches materializer hdraft with
      ⟨refusal, hpart, hall⟩ | ⟨reached, hreached, hlast, hothers⟩
    · rw [hall] at hcalls
      cases hcalls
      have hanswer := first.failed σ materializer run number cause hdraft hpart
      exact Action.answer_bind_of_error (Action.eq_error_of_answer hanswer)
    · rw [Action.answer_bind_of_ok hreached]
      exact second.failed σ materializer reached number cause hlast (hothers.symm.trans hcalls)
  · intro σ materializer run world failure hdraft hcalls hresult
    rcases first.reaches materializer hdraft with
      ⟨refusal, -, hall⟩ | ⟨reached, hreached, hlast, hothers⟩
    · rw [hall] at hcalls
      cases hcalls
    · rw [Action.answer_bind_of_ok hreached]
      exact second.refused σ materializer reached world failure hlast (hothers.symm.trans hcalls)
        hresult
  · intro σ materializer run world b last hdraft hcalls hresult
    rcases first.reaches materializer hdraft with
      ⟨refusal, -, hall⟩ | ⟨reached, hreached, hlast, hothers⟩
    · rw [hall] at hcalls
      cases hcalls
    · obtain ⟨later, hlater, hdone⟩ := second.done σ materializer reached world b last hlast
        (hothers.symm.trans hcalls) hresult
      exact ⟨later, (Action.bind_eq_of_ok hreached).trans hlater, hdone⟩

/-- Where the first action is refused, the second one never begins. -/
theorem Scripted.bind_of_refused {refusal : Failure}
    (first : Scripted f draft calls (.error refusal)) :
    Scripted (fun σ materializer => f σ materializer >>= fun a => g a σ materializer) draft calls
      (.error refusal) := by
  refine ⟨?_, ?_, ?_⟩
  · intro σ materializer run number cause hdraft hcalls
    have hanswer := first.failed σ materializer run number cause hdraft hcalls
    exact Action.answer_bind_of_error (Action.eq_error_of_answer hanswer)
  · intro σ materializer run world failure hdraft hcalls hresult
    cases hresult
    have hanswer := first.refused σ materializer run world refusal hdraft hcalls rfl
    exact Action.answer_bind_of_error (Action.eq_error_of_answer hanswer)
  · intro σ materializer run world b last hdraft hcalls hresult
    cases hresult

/-- The script of two actions is that of the first, and then that of the second for what the first
one leaves. -/
theorem HasScript.bind (first : HasScript f) (second : ∀ a, HasScript (g a)) :
    HasScript fun σ materializer => f σ materializer >>= fun a => g a σ materializer := by
  intro draft
  obtain ⟨calls, result, hfirst⟩ := first draft
  cases result with
  | error refusal => exact ⟨calls, .error refusal, hfirst.bind_of_refused⟩
  | ok answered =>
    obtain ⟨a, middle⟩ := answered
    obtain ⟨others, result, hsecond⟩ := second a middle
    exact ⟨calls ++ others, result, hfirst.bind hsecond⟩

end Bind

end Run

/-! ## Making images -/

namespace Timeline

open Run

/-- The orders for a segment are its calls, and they change nothing of the draft. -/
theorem scripted_performAll (number : Nat) (work : List FrameOrder) (draft : Draft) :
    Scripted (fun _ materializer => performAll materializer number work) draft
      (work.map fun order => (number, order)) (.ok ((), draft)) := by
  -- For one materializer and every run at once: each order leaves another world and one more
  -- recorded image.
  have hcases : ∀ (σ : Type) (materializer : Materializer σ) (run : Run σ),
      match materializer.carryOut (work.map fun order => (number, order)) run.world with
      | .ok world => ∃ later, performAll materializer number work run = .ok () later ∧
          later.draft = run.draft ∧ later.world = world
      | .error (failed, cause) =>
          (performAll materializer number work).answer run = .error (.frameFailed failed cause) := by
    intro σ materializer run
    induction work generalizing run with
    | nil => exact ⟨run, rfl, rfl, rfl⟩
    | cons order rest ih =>
      rw [List.map_cons, Materializer.carryOut]
      cases hperform : materializer.perform order run.world with
      | error cause world => exact Action.answer_of_error (performAll_cons_of_error hperform)
      | ok done world =>
        have hrest := ih
          { run with artifacts := run.artifacts.push order.destination, world := world }
        simp only [Action.answer, performAll_cons_of_ok hperform] at hrest ⊢
        exact hrest
  refine ⟨?_, ?_, ?_⟩
  · intro σ materializer run failed cause hdraft hcalls
    have h := hcases σ materializer run
    rw [hcalls] at h
    exact h
  · intro σ materializer run world failure hdraft hcalls hresult
    cases hresult
  · intro σ materializer run world a last hdraft hcalls hresult
    have h := hcases σ materializer run
    rw [hcalls] at h
    cases hresult
    rw [← hdraft]
    exact h

theorem adoptImage_eq_onDraft {σ : Type} (segment : Segment) (image : Path) :
    (adoptImage segment image : Action (Run σ) Unit) = onDraft fun draft =>
      (draft.registry.rename segment.input image (some (stillOptions segment.duration))).map
        fun registry => ((), { draft with registry := registry }) := by
  funext run
  rw [adoptImage_eq, onDraft]
  cases run.draft.registry.rename segment.input image (some (stillOptions segment.duration)) <;> rfl

theorem hasScript_adoptImage (segment : Segment) (image : Path) :
    HasScript fun σ _ => (adoptImage segment image : Action (Run σ) Unit) := by
  simp only [adoptImage_eq_onDraft]
  exact hasScript_onDraft _

variable {names : ArtifactNames} {size : FrameSize}

theorem hasScript_materializeOne (segments : List Segment) (segment : Segment) :
    HasScript fun _ materializer => materializeOne names size materializer segments segment := by
  cases hsource : segment.pendingSource? with
  | none =>
    simp only [materializeOne, hsource]
    exact hasScript_pure segment
  | some source =>
    simp only [materializeOne, hsource]
    refine (hasScript_ofExcept _).bind fun work => ?_
    refine HasScript.bind (fun draft => ⟨_, _, scripted_performAll _ work draft⟩) fun _ => ?_
    exact (hasScript_adoptImage _ _).bind fun _ => hasScript_pure _

theorem hasScript_materializeFrom (done left : List Segment) :
    HasScript fun _ materializer => materializeFrom names size materializer done left := by
  induction left generalizing done with
  | nil => exact hasScript_pure done
  | cons segment left ih =>
    exact (hasScript_materializeOne _ segment).bind fun made => ih (done ++ [made])

theorem hasScript_materialize (timeline : Timeline) (names : ArtifactNames) (size : FrameSize) :
    HasScript fun _ materializer => timeline.materialize names size materializer := by
  refine (hasScript_ofExcept _).bind fun _ => ?_
  exact (hasScript_materializeFrom [] timeline.segments).bind fun _ => hasScript_ofExcept _

end Timeline

end EpisodeCut
