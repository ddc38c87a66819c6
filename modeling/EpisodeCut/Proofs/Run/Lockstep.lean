import EpisodeCut.Run

/-!
# Actions in step

Two actions may be told quite different things and still take the same turns: from related states
both succeed, with related answers in related states, or both fail (`Action.Lockstep`). What they
fail with is not compared, nor what they leave behind when they fail. Actions that are put together
from actions in step are in step again.
-/

set_option autoImplicit false

namespace EpisodeCut

/-- Both computations succeed, with related values, or both fail. -/
inductive Concur {α β : Type} (V : α → β → Prop) : Except Failure α → Except Failure β → Prop
  | ok {a : α} {b : β} : V a b → Concur V (.ok a) (.ok b)
  | error (failure other : Failure) : Concur V (.error failure) (.error other)

namespace Concur

variable {α β γ δ : Type} {V : α → β → Prop} {W : γ → δ → Prop} {x : Except Failure α}
  {y : Except Failure β}

theorem refl (x : Except Failure α) : Concur Eq x x := by
  cases x with
  | ok a => exact .ok rfl
  | error failure => exact .error failure failure

theorem imp {W : α → β → Prop} (concur : Concur V x y) (h : ∀ a b, V a b → W a b) :
    Concur W x y := by
  cases concur with
  | ok related => exact .ok (h _ _ related)
  | error failure other => exact .error failure other

theorem map {f : α → γ} {g : β → δ} (concur : Concur V x y) (h : ∀ a b, V a b → W (f a) (g b)) :
    Concur W (x.map f) (y.map g) := by
  cases concur with
  | ok related => exact .ok (h _ _ related)
  | error failure other => exact .error failure other

theorem bind {f : α → Except Failure γ} {g : β → Except Failure δ} (concur : Concur V x y)
    (h : ∀ a b, V a b → Concur W (f a) (g b)) : Concur W (x >>= f) (y >>= g) := by
  cases concur with
  | ok related => exact h _ _ related
  | error failure other => exact .error failure other

theorem of_iff (both : (∃ a, x = .ok a) ↔ ∃ b, y = .ok b)
    (related : ∀ a b, x = .ok a → y = .ok b → V a b) : Concur V x y := by
  cases hx : x with
  | ok a =>
    obtain ⟨b, hy⟩ := both.1 ⟨a, hx⟩
    rw [hy]
    exact .ok (related a b hx hy)
  | error failure =>
    cases hy : y with
    | ok b =>
      obtain ⟨a, hok⟩ := both.2 ⟨b, hy⟩
      rw [hx] at hok
      cases hok
    | error other => exact .error failure other

end Concur

namespace Action

variable {σ τ α β γ δ : Type}

/-- Both actions have succeeded, and what they answered and left is related, or both have failed. -/
inductive Alongside (Q : α → σ → β → τ → Prop) :
    EStateM.Result Failure σ α → EStateM.Result Failure τ β → Prop
  | ok {a : α} {s : σ} {b : β} {t : τ} : Q a s b t → Alongside Q (.ok a s) (.ok b t)
  | error (failure : Failure) (s : σ) (other : Failure) (t : τ) :
      Alongside Q (.error failure s) (.error other t)

theorem Alongside.imp {Q R : α → σ → β → τ → Prop} {x : EStateM.Result Failure σ α}
    {y : EStateM.Result Failure τ β} (alongside : Alongside Q x y)
    (h : ∀ a s b t, x = .ok a s → y = .ok b t → Q a s b t → R a s b t) : Alongside R x y := by
  cases alongside with
  | ok related => exact .ok (h _ _ _ _ rfl rfl related)
  | error failure s other t => exact .error failure s other t

theorem Alongside.cases {Q : α → σ → β → τ → Prop} {x : EStateM.Result Failure σ α}
    {y : EStateM.Result Failure τ β} (alongside : Alongside Q x y) :
    (∃ a s b t, x = .ok a s ∧ y = .ok b t ∧ Q a s b t) ∨
      ∃ failure s other t, x = .error failure s ∧ y = .error other t := by
  cases alongside with
  | ok related => exact Or.inl ⟨_, _, _, _, rfl, rfl, related⟩
  | error failure s other t => exact Or.inr ⟨failure, s, other, t, rfl, rfl⟩

/-- What comes after two actions that were alongside each other. -/
theorem Alongside.bind {Q : α → σ → β → τ → Prop} {R : γ → σ → δ → τ → Prop} {f : Action σ α}
    {g : Action τ β} {next : α → Action σ γ} {otherNext : β → Action τ δ} {s : σ} {t : τ}
    (first : Alongside Q (f s) (g t))
    (second : ∀ a s b t, Q a s b t → Alongside R (next a s) (otherNext b t)) :
    Alongside R ((f >>= next) s) ((g >>= otherNext) t) := by
  rcases first.cases with
    ⟨a, later, b, otherLater, hf, hg, related⟩ | ⟨failure, later, other, otherLater, hf, hg⟩
  · rw [bind_eq_of_ok hf, bind_eq_of_ok hg]
    exact second a later b otherLater related
  · rw [bind_eq_of_error hf, bind_eq_of_error hg]
    exact .error failure later other otherLater

/-- From related states two actions both succeed, with related answers in related states, or both
fail. -/
def Lockstep (Rel : σ → τ → Prop) (V : α → β → Prop) (f : Action σ α) (g : Action τ β) : Prop :=
  ∀ s t, Rel s t → Alongside (fun a s b t => V a b ∧ Rel s t) (f s) (g t)

section Rules

variable {Rel : σ → τ → Prop} {V : α → β → Prop} {W : γ → δ → Prop}

theorem lockstep_pure {a : α} {b : β} (related : V a b) :
    Lockstep Rel V (pure a) (pure b) :=
  fun _ _ states => .ok ⟨related, states⟩

theorem lockstep_throw (failure other : Failure) :
    Lockstep Rel V (throw failure) (throw other) :=
  fun s t _ => .error failure s other t

theorem lockstep_ofExcept {x : Except Failure α} {y : Except Failure β} (concur : Concur V x y) :
    Lockstep Rel V (ofExcept x) (ofExcept y) := by
  cases concur with
  | ok related => exact lockstep_pure related
  | error failure other => exact lockstep_throw failure other

theorem Lockstep.bind {f : Action σ α} {g : Action τ β} {next : α → Action σ γ}
    {otherNext : β → Action τ δ} (first : Lockstep Rel V f g)
    (second : ∀ a b, V a b → Lockstep Rel W (next a) (otherNext b)) :
    Lockstep Rel W (f >>= next) (g >>= otherNext) := by
  intro s t states
  apply (first s t states).bind
  rintro a later b otherLater ⟨related, laterStates⟩
  exact second a b related later otherLater laterStates

/-- What is read of two related states is related. -/
theorem lockstep_get_bind {f : σ → Action σ γ} {g : τ → Action τ δ}
    (h : ∀ s t, Rel s t → Lockstep Rel W (f s) (g t)) : Lockstep Rel W (get >>= f) (get >>= g) :=
  fun s t states => h s t states s t states

theorem Lockstep.mapFailure {f : Action σ α} {g : Action τ β} (lockstep : Lockstep Rel V f g)
    (rename other : Failure → Failure) :
    Lockstep Rel V (f.mapFailure rename) (g.mapFailure other) := by
  intro s t states
  rcases (lockstep s t states).cases with
    ⟨a, later, b, otherLater, hf, hg, related⟩ | ⟨failure, later, refusal, otherLater, hf, hg⟩
  · simp only [Action.mapFailure, hf, hg]
    exact .ok related
  · simp only [Action.mapFailure, hf, hg]
    exact .error _ later _ otherLater

end Rules

end Action

namespace Run

open EpisodeCut.Action

variable {σ τ α β : Type}

/-- The drafts of two runs are related, and so are their worlds. -/
def Related (D : Draft → Draft → Prop) (World : σ → τ → Prop) (run : Run σ) (other : Run τ) :
    Prop :=
  D run.draft other.draft ∧ World run.world other.world

variable {D : Draft → Draft → Prop} {World : σ → τ → Prop} {V : α → β → Prop}

theorem lockstep_inWorld {f : Action σ α} {g : Action τ β} (lockstep : Lockstep World V f g) :
    Lockstep (Related D World) V (inWorld f) (inWorld g) := by
  rintro run other ⟨drafts, worlds⟩
  rcases (lockstep run.world other.world worlds).cases with
    ⟨a, later, b, otherLater, hf, hg, related, laterWorlds⟩ |
      ⟨failure, later, refusal, otherLater, hf, hg⟩
  · simp only [inWorld, within, hf, hg]
    exact .ok ⟨related, drafts, laterWorlds⟩
  · simp only [inWorld, within, hf, hg]
    exact .error _ _ _ _

/-- Warnings are not looked at any more. -/
theorem lockstep_warn (warnings others : List Warning) :
    Lockstep (Related D World) (fun _ _ => True) (warn warnings) (warn others) :=
  fun _ _ related => .ok ⟨trivial, related⟩

end Run

end EpisodeCut
