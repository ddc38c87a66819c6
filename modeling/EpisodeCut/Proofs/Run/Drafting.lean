import EpisodeCut.Proofs.Registry.Index
import EpisodeCut.Run

/-!
# Drafts in the making

How the draft of a run grows while segments are made (`Draft.Grows`): the segments take consecutive
numbers, and the registered files are those from before and the inputs of the segments. The draft is
then the one that making the same segments again would give (`Draft.replay`).

What is said here of an action holds whether it fails or not. Actions that only ask or warn keep
what the run has on record (`Run.Asks`); actions that make segments let the draft grow by the
segments made so far, which are the answer if there is one (`Run.Makes`).
-/

set_option autoImplicit false

namespace EpisodeCut

/-! ## Growing drafts -/

/-- The draft `after` comes from the draft `before` by making segments. -/
structure Draft.Grows (before : Draft) (made : List Segment) (after : Draft) : Prop where
  numbers : made.map Segment.number = List.range' before.next made.length
  next : after.next = before.next + made.length
  paths : ∀ path, path ∈ after.registry.paths ↔
    path ∈ before.registry.paths ∨ path ∈ made.map Segment.input

namespace Draft

theorem Grows.refl (draft : Draft) : draft.Grows [] draft :=
  ⟨rfl, rfl, by simp⟩

theorem Grows.append {before middle after : Draft} {made others : List Segment}
    (first : before.Grows made middle) (second : middle.Grows others after) :
    before.Grows (made ++ others) after := by
  refine ⟨?_, ?_, ?_⟩
  · rw [List.map_append, first.numbers, second.numbers, first.next, List.length_append,
      ← List.range'_append_1]
  · rw [second.next, first.next, List.length_append, Nat.add_assoc]
  · intro path
    rw [second.paths, first.paths, List.map_append, List.mem_append, or_assoc]

/-- Making a segment registers its input, whether it is a still image or not. -/
theorem paths_create (draft : Draft) (punchIn punchOut : Timecode) (input : String)
    (body : SegmentBody) : (draft.create punchIn punchOut input body).draft.registry.paths =
      (draft.registry.register input).paths := by
  cases body with
  | audio stream => rfl
  | video stream => rfl
  | frame number state =>
    -- Only an image that exists is registered with options, which change no path.
    cases state with
    | pending source => rfl
    | materializing source => rfl
    | resolved image => exact Registry.paths_registerWithOptions _ _ _

theorem segment_create (draft : Draft) (punchIn punchOut : Timecode) (input : String)
    (body : SegmentBody) : (draft.create punchIn punchOut input body).segment =
      ⟨draft.next, punchIn, punchOut, input, body⟩ := by
  unfold create
  split <;> rfl

theorem grows_create (draft : Draft) (punchIn punchOut : Timecode) (input : String)
    (body : SegmentBody) : draft.Grows [(draft.create punchIn punchOut input body).segment]
      (draft.create punchIn punchOut input body).draft := by
  refine ⟨?_, ?_, ?_⟩
  · rw [segment_create]
    rfl
  · unfold create
    split <;> rfl
  · intro path
    rw [paths_create, Registry.mem_paths_register, segment_create, List.map_singleton,
      List.mem_singleton]

/-! ## Making segments again -/

/-- The draft in which a segment has been made. -/
def withSegment (draft : Draft) (segment : Segment) : Draft :=
  (draft.create segment.punchIn segment.punchOut segment.input segment.body).draft

/-- The draft in which segments have been made one after another. -/
def replay (draft : Draft) (made : List Segment) : Draft :=
  made.foldl withSegment draft

@[simp] theorem replay_nil (draft : Draft) : draft.replay [] = draft := rfl

@[simp] theorem replay_cons (draft : Draft) (segment : Segment) (made : List Segment) :
    draft.replay (segment :: made) = (draft.withSegment segment).replay made := rfl

theorem replay_append (draft : Draft) (made others : List Segment) :
    draft.replay (made ++ others) = (draft.replay made).replay others :=
  List.foldl_append

theorem withSegment_create (draft : Draft) (punchIn punchOut : Timecode) (input : String)
    (body : SegmentBody) :
    draft.withSegment (draft.create punchIn punchOut input body).segment =
      (draft.create punchIn punchOut input body).draft := by
  rw [withSegment, segment_create]

end Draft

namespace Run

variable {σ α β : Type}

/-! ## Actions that ask -/

/-- What a run has on record: its draft and its generated files. -/
def books (run : Run σ) : Draft × Artifacts :=
  (run.draft, run.artifacts)

/-- An action that leaves what is on record as it is. -/
def Asks (action : Action (Run σ) α) : Prop :=
  ∀ run, (action.after run).books = run.books

theorem Asks.of_ok {action : Action (Run σ) α} (asks : Asks action) {run later : Run σ} {a : α}
    (h : action run = .ok a later) : later.books = run.books := by
  rw [← asks run, Action.after_of_ok h]

theorem Asks.of_error {action : Action (Run σ) α} (asks : Asks action) {run later : Run σ}
    {failure : Failure} (h : action run = .error failure later) : later.books = run.books := by
  rw [← asks run, Action.after_of_error h]

theorem Asks.draft {action : Action (Run σ) α} (asks : Asks action) {run later : Run σ} {a : α}
    (h : action run = .ok a later) : later.draft = run.draft :=
  congrArg Prod.fst (asks.of_ok h)

theorem Asks.kept {action : Action (Run σ) α} (asks : Asks action) (run : Run σ) :
    (action.after run).artifacts = run.artifacts :=
  congrArg Prod.snd (asks run)

theorem Asks.pure (a : α) : Asks (pure a : Action (Run σ) α) :=
  fun _ => rfl

theorem Asks.bind {f : Action (Run σ) α} {g : α → Action (Run σ) β} (first : Asks f)
    (second : ∀ a, Asks (g a)) : Asks (f >>= g) := by
  intro run
  cases hf : f run with
  | ok a middle =>
    rw [Action.after_bind_of_ok hf, second a middle]
    exact first.of_ok hf
  | error failure middle =>
    rw [Action.after_bind_of_error hf]
    exact first.of_error hf

theorem asks_get : Asks (get : Action (Run σ) (Run σ)) :=
  fun _ => rfl

theorem asks_throw (failure : Failure) : Asks (throw failure : Action (Run σ) α) :=
  fun _ => rfl

theorem asks_ofExcept (result : Except Failure α) :
    Asks (Action.ofExcept result : Action (Run σ) α) := by
  intro run
  cases result <;> rfl

theorem asks_warn (warnings : List Warning) : Asks (warn warnings : Action (Run σ) Unit) :=
  fun _ => rfl

theorem asks_inWorld (action : Action σ α) : Asks (inWorld action) := by
  intro run
  simp only [Action.after, inWorld, Action.within]
  cases action run.world <;> rfl

theorem Asks.mapFailure {action : Action (Run σ) α} (asks : Asks action)
    (f : Failure → Failure) : Asks (action.mapFailure f) := by
  intro run
  rw [← asks run]
  simp only [Action.after, Action.mapFailure]
  cases action run <;> rfl

/-! ## Actions that make segments -/

/-- Between two states of a run segments were made, all of them with a property, and nothing else
was done that is on record. -/
structure Made (P : Segment → Prop) (run : Run σ) (made : List Segment) (later : Run σ) :
    Prop where
  grows : run.draft.Grows made later.draft
  replayed : later.draft = run.draft.replay made
  artifacts : later.artifacts = run.artifacts
  holds : ∀ segment ∈ made, P segment

theorem Made.of_books {P : Segment → Prop} {run later : Run σ} (h : later.books = run.books) :
    Made P run [] later := by
  obtain ⟨hdraft, hartifacts⟩ := Prod.mk.inj h
  refine ⟨?_, hdraft, hartifacts, by simp⟩
  rw [hdraft]
  exact .refl run.draft

/-- What was on record before is all that matters for what is made. -/
theorem Made.of_books_left {P : Segment → Prop} {run middle later : Run σ} {made : List Segment}
    (h : middle.books = run.books) (rest : Made P middle made later) : Made P run made later := by
  obtain ⟨hdraft, hartifacts⟩ := Prod.mk.inj h
  refine ⟨?_, ?_, rest.artifacts.trans hartifacts, rest.holds⟩
  · rw [← hdraft]
    exact rest.grows
  · rw [← hdraft]
    exact rest.replayed

theorem Made.append {P : Segment → Prop} {run middle later : Run σ} {made others : List Segment}
    (first : Made P run made middle) (second : Made P middle others later) :
    Made P run (made ++ others) later := by
  refine ⟨first.grows.append second.grows, ?_, second.artifacts.trans first.artifacts, ?_⟩
  · rw [second.replayed, first.replayed, Draft.replay_append]
  · intro segment hsegment
    rcases List.mem_append.1 hsegment with h | h
    · exact first.holds segment h
    · exact second.holds segment h

theorem Made.imp {P Q : Segment → Prop} {run later : Run σ} {made : List Segment}
    (h : Made P run made later) (imp : ∀ segment, P segment → Q segment) :
    Made Q run made later :=
  ⟨h.grows, h.replayed, h.artifacts, fun segment hsegment => imp segment (h.holds segment hsegment)⟩

/-- An action that makes segments with a property. If it succeeds, it answers them. -/
def Makes (P : Segment → Prop) (action : Action (Run σ) (List Segment)) : Prop :=
  ∀ run, ∃ made, Made P run made (action.after run) ∧
    ∀ answer later, action run = .ok answer later → answer = made

theorem Makes.of_ok {P : Segment → Prop} {action : Action (Run σ) (List Segment)}
    (makes : Makes P action) {run later : Run σ} {made : List Segment}
    (h : action run = .ok made later) : Made P run made later := by
  obtain ⟨segments, hmade, hanswer⟩ := makes run
  rw [Action.after_of_ok h, ← hanswer made later h] at hmade
  exact hmade

theorem Makes.imp {P Q : Segment → Prop} {action : Action (Run σ) (List Segment)}
    (makes : Makes P action) (imp : ∀ segment, P segment → Q segment) : Makes Q action := by
  intro run
  obtain ⟨made, hmade, hanswer⟩ := makes run
  exact ⟨made, hmade.imp imp, hanswer⟩

theorem makes_nil (P : Segment → Prop) : Makes P (pure [] : Action (Run σ) (List Segment)) := by
  intro run
  refine ⟨[], .of_books rfl, ?_⟩
  intro answer later h
  cases h
  rfl

theorem makes_throw (P : Segment → Prop) (failure : Failure) :
    Makes P (throw failure : Action (Run σ) (List Segment)) := by
  intro run
  refine ⟨[], .of_books rfl, ?_⟩
  intro answer later h
  cases h

theorem Asks.makes_bind {P : Segment → Prop} {f : Action (Run σ) α}
    {g : α → Action (Run σ) (List Segment)} (first : Asks f)
    (second : ∀ run a later, f run = .ok a later → Makes P (g a)) : Makes P (f >>= g) := by
  intro run
  cases hf : f run with
  | ok a middle =>
    obtain ⟨made, hmade, hanswer⟩ := second run a middle hf middle
    refine ⟨made, ?_, ?_⟩
    · rw [Action.after_bind_of_ok hf]
      exact hmade.of_books_left (first.of_ok hf)
    · intro answer later h
      rw [Action.bind_eq_of_ok hf] at h
      exact hanswer answer later h
  | error failure middle =>
    -- The question failed, so nothing was made.
    refine ⟨[], ?_, ?_⟩
    · rw [Action.after_bind_of_error hf]
      exact .of_books (first.of_error hf)
    · intro answer later h
      rw [Action.bind_eq_of_error hf] at h
      cases h

theorem Makes.append {P : Segment → Prop} {f g : Action (Run σ) (List Segment)}
    (first : Makes P f) (second : Makes P g) :
    Makes P (do let made ← f; let others ← g; pure (made ++ others)) := by
  intro run
  cases hf : f run with
  | error failure middle =>
    obtain ⟨made, hmade, -⟩ := first run
    rw [Action.after_of_error hf] at hmade
    refine ⟨made, ?_, ?_⟩
    · rw [Action.after_bind_of_error hf]
      exact hmade
    · intro answer later h
      rw [Action.bind_eq_of_error hf] at h
      cases h
  | ok made middle =>
    have hmade := first.of_ok hf
    obtain ⟨others, hothers, hanswer⟩ := second middle
    refine ⟨made ++ others, ?_, ?_⟩
    · rw [Action.after_bind_of_ok hf]
      -- The second action leaves its state behind also where the answers are put together.
      have hafter : (do let others ← g; pure (made ++ others)).after middle = g.after middle := by
        cases hg : g middle with
        | ok answer last => rw [Action.after_bind_of_ok hg, Action.after_of_ok hg]; rfl
        | error failure last => rw [Action.after_bind_of_error hg, Action.after_of_error hg]
      rw [hafter]
      exact hmade.append hothers
    · intro answer later h
      rw [Action.bind_eq_of_ok hf] at h
      obtain ⟨answered, last, hg, hpure⟩ := Action.bind_eq_ok h
      cases hpure
      rw [hanswer answered later hg]

end Run

end EpisodeCut
