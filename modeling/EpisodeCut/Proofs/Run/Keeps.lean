import EpisodeCut.Run

/-!
# Invariants of actions

An action keeps a property of states if it leaves the property behind wherever it finds it, also when
it fails (`Action.Keeps`). Steps that keep a property do so one after another (`Action.Keeps.bind`),
and what is kept in a part of a state is kept in the whole (`Action.keeps_within`).
-/

set_option autoImplicit false

namespace EpisodeCut.Action

variable {σ τ α β : Type} {I : σ → Prop}

/-- Whatever comes of the action, the property holds afterwards if it has held before. -/
def Keeps (I : σ → Prop) (action : Action σ α) : Prop :=
  ∀ s, I s → I (action.after s)

theorem keeps_pure (a : α) : Keeps I (pure a : Action σ α) :=
  fun _ h => h

theorem keeps_throw (failure : Failure) : Keeps I (throw failure : Action σ α) :=
  fun _ h => h

theorem keeps_modify {f : σ → σ} (h : ∀ s, I s → I (f s)) : Keeps I (modify f : Action σ Unit) :=
  h

theorem keeps_ofExcept (result : Except Failure α) : Keeps I (ofExcept result : Action σ α) := by
  cases result with
  | ok a => exact keeps_pure a
  | error failure => exact keeps_throw failure

/-- The second step may count on what the first one has answered. -/
theorem Keeps.bind_of_ok {f : Action σ α} {g : α → Action σ β} (first : Keeps I f)
    (second : ∀ s a t, f s = .ok a t → I t → I ((g a).after t)) : Keeps I (f >>= g) := by
  intro s h
  have hfirst := first s h
  cases hf : f s with
  | ok a t =>
    rw [after_of_ok hf] at hfirst
    rw [after_bind_of_ok hf]
    exact second s a t hf hfirst
  | error failure t =>
    rw [after_of_error hf] at hfirst
    rw [after_bind_of_error hf]
    exact hfirst

/-- The second step begins in the state that it is given. -/
theorem keeps_get_bind {g : σ → Action σ α} (h : ∀ s, I s → I ((g s).after s)) :
    Keeps I ((get : Action σ σ) >>= g) :=
  h

theorem after_set_bind (s t : σ) (g : Unit → Action σ α) :
    (((set t : Action σ Unit) >>= g) : Action σ α).after s = (g ()).after t :=
  rfl

theorem Keeps.bind {f : Action σ α} {g : α → Action σ β} (first : Keeps I f)
    (second : ∀ a, Keeps I (g a)) : Keeps I (f >>= g) :=
  first.bind_of_ok fun _ a t _ => second a t

theorem after_discard (f : Action σ α) (s : σ) : (Functor.discard f).after s = f.after s := by
  have hdiscard : Functor.discard f = EStateM.map (Function.const α PUnit.unit) f := rfl
  rw [hdiscard]
  simp only [after, EStateM.map]
  cases f s <;> rfl

theorem answer_discard (f : Action σ α) (s : σ) :
    (Functor.discard f).answer s = (f.answer s).map fun _ => () := by
  have hdiscard : Functor.discard f = EStateM.map (Function.const α PUnit.unit) f := rfl
  rw [hdiscard]
  simp only [answer, EStateM.map]
  cases f s <;> rfl

theorem Keeps.discard {f : Action σ α} (keeps : Keeps I f) : Keeps I (Functor.discard f) := by
  intro s h
  rw [after_discard]
  exact keeps s h

theorem after_mapFailure (change : Failure → Failure) (f : Action σ α) (s : σ) :
    (f.mapFailure change).after s = f.after s := by
  simp only [Action.mapFailure, after]
  cases f s <;> rfl

theorem after_andFinally (f : Action σ α) (last : σ → σ) (s : σ) :
    (f.andFinally last).after s = last (f.after s) := by
  simp only [andFinally, after]
  cases f s <;> rfl

theorem answer_andFinally (f : Action σ α) (last : σ → σ) (s : σ) :
    (f.andFinally last).answer s = f.answer s := by
  simp only [andFinally, answer]
  cases f s <;> rfl

theorem Keeps.mapFailure {f : Action σ α} (keeps : Keeps I f) (change : Failure → Failure) :
    Keeps I (f.mapFailure change) := by
  intro s h
  rw [after_mapFailure]
  exact keeps s h

theorem after_within (part : σ → τ) (put : τ → σ → σ) (action : Action τ α) (s : σ) :
    (action.within part put).after s = put (action.after (part s)) s := by
  simp only [Action.within, after]
  cases action (part s) <;> rfl

theorem answer_within (part : σ → τ) (put : τ → σ → σ) (action : Action τ α) (s : σ) :
    (action.within part put).answer s = action.answer (part s) := by
  simp only [Action.within, answer]
  cases action (part s) <;> rfl

/-- What is kept of a part of a state is kept of the whole. -/
theorem keeps_within {J : τ → Prop} {part : σ → τ} {put : τ → σ → σ} {action : Action τ α}
    (keeps : Keeps J action) (hpart : ∀ s, I s → J (part s))
    (hput : ∀ s t, I s → J t → I (put t s)) : Keeps I (action.within part put) := by
  intro s h
  rw [after_within]
  exact hput s _ h (keeps (part s) (hpart s h))

end EpisodeCut.Action
