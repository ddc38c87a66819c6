import EpisodeCut.Frame.Chain
import EpisodeCut.Proofs.Run.Drafting

/-!
# Orders carried out

A materializer carries out orders one after another until one fails (`Materializer.Performs`); one
that keeps a list of its orders shows which ones they were (`Performs.of_recording`). Every
destination is on record before its order is given, so also that of the order that failed
(`Run.Ordered`). The orders for one frame end in one of two ways: all are carried out, or the last
one given has failed and the frame with it (`performAll_cases`).
-/

set_option autoImplicit false

namespace EpisodeCut

/-! ## Recorded paths -/

namespace Artifacts

/-- The files among `files` that are not recorded yet, each of them once. -/
def fresh (recorded : List Path) : List Path → List Path
  | [] => []
  | file :: rest =>
    if recorded.any (·.same file) then fresh recorded rest
    else file :: fresh (recorded ++ [file]) rest

theorem mem_of_mem_fresh {path : Path} {recorded files : List Path} (h : path ∈ fresh recorded files) :
    path ∈ files := by
  induction files generalizing recorded with
  | nil => cases h
  | cons file rest ih =>
    rw [fresh] at h
    split at h
    · exact List.mem_cons_of_mem file (ih h)
    · rcases List.mem_cons.1 h with rfl | h
      · exact List.mem_cons_self
      · exact List.mem_cons_of_mem file (ih h)

/-- Record files one after another. -/
def pushAll (artifacts : Artifacts) (files : List Path) : Artifacts :=
  files.foldl push artifacts

theorem pushAll_append (artifacts : Artifacts) (files others : List Path) :
    artifacts.pushAll (files ++ others) = (artifacts.pushAll files).pushAll others :=
  List.foldl_append

/-- The recorded paths stay in front, and behind them come the files that were not recorded. -/
theorem paths_pushAll (artifacts : Artifacts) (files : List Path) :
    (artifacts.pushAll files).paths = artifacts.paths ++ fresh artifacts.paths files := by
  induction files generalizing artifacts with
  | nil => simp [pushAll, fresh]
  | cons file rest ih =>
    have hcons : artifacts.pushAll (file :: rest) = (artifacts.push file).pushAll rest := rfl
    rw [hcons, ih, push, fresh]
    split
    · rfl
    · simp

end Artifacts

/-! ## What a materializer does -/

namespace Materializer

variable {σ : Type} {materializer : Materializer σ}

/-- From one world to another a materializer carries out orders one after another. The outcome is
that of the last one, and only the last one can have failed. -/
inductive Performs (materializer : Materializer σ) :
    σ → List FrameOrder → Except Failure Unit → σ → Prop
  | done (world : σ) : Performs materializer world [] (.ok ()) world
  | failed {world after : σ} {order : FrameOrder} {cause : Failure} :
      materializer.perform order world = .error cause after →
        Performs materializer world [order] (.error cause) after
  | next {world middle after : σ} {order : FrameOrder} {rest : List FrameOrder}
      {outcome : Except Failure Unit} :
      materializer.perform order world = .ok () middle →
        Performs materializer middle rest outcome after →
          Performs materializer world (order :: rest) outcome after

theorem Performs.append {world middle after : σ} {given others : List FrameOrder}
    {outcome : Except Failure Unit} (first : materializer.Performs world given (.ok ()) middle)
    (second : materializer.Performs middle others outcome after) :
    materializer.Performs world (given ++ others) outcome after := by
  generalize hdone : (Except.ok () : Except Failure Unit) = done at first
  induction first with
  | done world => exact second
  | failed _ => cases hdone
  | next hperform _ ih => exact .next hperform (ih second hdone)

/-- A materializer that keeps a list does what it would do without, and puts the order on the list
whether it fails or not. -/
theorem perform_recording (order : FrameOrder) (world : σ) (orders : List FrameOrder) :
    materializer.recording.perform order (world, orders) =
      match materializer.perform order world with
      | .ok done after => .ok done (after, orders ++ [order])
      | .error cause after => .error cause (after, orders ++ [order]) := by
  have hlisted : materializer.recording.perform order (world, orders) =
      (materializer.perform order).within Prod.fst (fun world state => (world, state.2))
        (world, orders ++ [order]) := rfl
  rw [hlisted]
  simp only [Action.within]
  cases materializer.perform order world <;> rfl

theorem Performs.of_recording {before after : σ × List FrameOrder} {given : List FrameOrder}
    {outcome : Except Failure Unit}
    (h : materializer.recording.Performs before given outcome after) :
    after.2 = before.2 ++ given ∧ materializer.Performs before.1 given outcome after.1 := by
  induction h with
  | done world => exact ⟨(List.append_nil _).symm, .done _⟩
  | @failed before after order cause hperform =>
    obtain ⟨world, orders⟩ := before
    rw [perform_recording] at hperform
    cases hworld : materializer.perform order world with
    | ok done middle =>
      rw [hworld] at hperform
      cases hperform
    | error other middle =>
      rw [hworld] at hperform
      cases hperform
      exact ⟨rfl, .failed hworld⟩
  | @next before middle after order rest outcome hperform _ ih =>
    obtain ⟨world, orders⟩ := before
    rw [perform_recording] at hperform
    cases hworld : materializer.perform order world with
    | ok done reached =>
      rw [hworld] at hperform
      cases hperform
      obtain ⟨hlist, hrest⟩ := ih
      refine ⟨?_, .next hworld hrest⟩
      rw [hlist, List.append_assoc]
      rfl
    | error cause reached =>
      rw [hworld] at hperform
      cases hperform

end Materializer

/-! ## Orders of a run -/

namespace Run

variable {σ : Type} {materializer : Materializer σ}

/-- Between two states of a run orders were given, and the destination of each was recorded. -/
structure Ordered (materializer : Materializer σ) (run : Run σ) (given : List FrameOrder)
    (outcome : Except Failure Unit) (later : Run σ) : Prop where
  performed : materializer.Performs run.world given outcome later.world
  recorded : later.artifacts = run.artifacts.pushAll (given.map FrameOrder.destination)

theorem Ordered.refl (materializer : Materializer σ) (run : Run σ) :
    run.Ordered materializer [] (.ok ()) run :=
  ⟨.done _, rfl⟩

theorem Ordered.append {run middle later : Run σ} {given others : List FrameOrder}
    {outcome : Except Failure Unit} (first : run.Ordered materializer given (.ok ()) middle)
    (second : middle.Ordered materializer others outcome later) :
    run.Ordered materializer (given ++ others) outcome later := by
  refine ⟨first.performed.append second.performed, ?_⟩
  rw [second.recorded, first.recorded, List.map_append, Artifacts.pushAll_append]

end Run

namespace Timeline

variable {σ : Type}

theorem performAll_cons_of_error {materializer : Materializer σ} {number : Nat} {order : FrameOrder}
    {rest : List FrameOrder} {run : Run σ} {cause : Failure} {world : σ}
    (h : materializer.perform order run.world = .error cause world) :
    performAll materializer number (order :: rest) run =
      .error (.frameFailed number cause)
        { run with artifacts := run.artifacts.push order.destination, world := world } := by
  rw [performAll, Run.record, Action.modify_bind]
  apply Action.bind_eq_of_error
  simp only [Run.inWorld, Action.mapFailure, Action.within, h]

theorem performAll_cons_of_ok {materializer : Materializer σ} {number : Nat} {order : FrameOrder}
    {rest : List FrameOrder} {run : Run σ} {world : σ}
    (h : materializer.perform order run.world = .ok () world) :
    performAll materializer number (order :: rest) run =
      performAll materializer number rest
        { run with artifacts := run.artifacts.push order.destination, world := world } := by
  rw [performAll, Run.record, Action.modify_bind]
  refine Action.bind_eq_of_ok (a := ()) ?_
  simp only [Run.inWorld, Action.mapFailure, Action.within, h]

/-- The orders for a frame are all carried out, or they are given up to the first one that fails. In
both cases the draft stays as it is. -/
theorem performAll_cases (materializer : Materializer σ) (number : Nat) (work : List FrameOrder)
    (run : Run σ) :
    (∃ later, performAll materializer number work run = .ok () later ∧ later.draft = run.draft ∧
      run.Ordered materializer work (.ok ()) later) ∨
    ∃ first order rest cause later, work = first ++ order :: rest ∧
      performAll materializer number work run = .error (.frameFailed number cause) later ∧
      later.draft = run.draft ∧
      run.Ordered materializer (first ++ [order]) (.error cause) later := by
  induction work generalizing run with
  | nil => exact Or.inl ⟨run, rfl, rfl, .refl materializer run⟩
  | cons order rest ih =>
    cases hperform : materializer.perform order run.world with
    | error cause world =>
      right
      refine ⟨[], order, rest, cause, _, rfl, performAll_cons_of_error hperform, rfl, ?_⟩
      exact ⟨.failed hperform, rfl⟩
    | ok done world =>
      rw [performAll_cons_of_ok hperform]
      have hfirst : run.Ordered materializer [order] (.ok ())
          { run with artifacts := run.artifacts.push order.destination, world := world } :=
        ⟨.next hperform (.done world), rfl⟩
      -- What comes of the other orders is what comes of all of them.
      rcases ih { run with artifacts := run.artifacts.push order.destination, world := world } with
        ⟨later, hall, hdraft, hrest⟩ | ⟨first, last, left, cause, later, rfl, hfail, hdraft, hrest⟩
      · exact Or.inl ⟨later, hall, hdraft, hfirst.append hrest⟩
      · right
        exact ⟨order :: first, last, left, cause, later, rfl, hfail, hdraft, hfirst.append hrest⟩

end Timeline

end EpisodeCut
