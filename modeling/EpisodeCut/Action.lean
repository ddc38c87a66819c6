import EpisodeCut.Failure

/-!
# Actions

An action changes a state and either answers or fails. What it did to the state before it failed
stays done, as it does in the world outside (`Action`). An action on a part of a state acts on the
whole (`Action.within`). What can be seen of an action is its answer (`Action.answer`) and the state
that it leaves (`Action.after`).
-/

set_option autoImplicit false

namespace EpisodeCut

/-- A computation on the state `σ` that keeps the state when it fails. -/
abbrev Action (σ α : Type) := EStateM Failure σ α

namespace Action

variable {σ τ α β : Type}

/-- The action that answers as `result` does and leaves the state alone. -/
def ofExcept : Except Failure α → Action σ α
  | .ok a => pure a
  | .error e => throw e

/-- Carry out an action on the part of a state that `get` reads and `set` replaces. -/
def within (get : σ → τ) (set : τ → σ → σ) (action : Action τ α) : Action σ α := fun s =>
  match action (get s) with
  | .ok a t => .ok a (set t s)
  | .error e t => .error e (set t s)

/-- Fail with `f e` where `action` fails with `e`. -/
def mapFailure (f : Failure → Failure) (action : Action σ α) : Action σ α := fun s =>
  match action s with
  | .ok a t => .ok a t
  | .error e t => .error (f e) t

/-- Carry out `after` once `action` has ended, whether it failed or not. -/
def andFinally (action : Action σ α) (after : σ → σ) : Action σ α := fun s =>
  match action s with
  | .ok a t => .ok a (after t)
  | .error e t => .error e (after t)

@[simp] theorem ofExcept_ok (a : α) (s : σ) : ofExcept (.ok a) s = .ok a s := rfl

@[simp] theorem ofExcept_error (e : Failure) (s : σ) :
    (ofExcept (.error e) : Action σ α) s = .error e s := rfl

/-! ## Steps of actions -/

/-- What an action in two steps succeeds with. -/
theorem bind_eq_ok {f : Action σ α} {g : α → Action σ β} {s u : σ} {b : β}
    (h : (f >>= g) s = .ok b u) : ∃ a t, f s = .ok a t ∧ g a t = .ok b u := by
  simp only [bind, EStateM.bind] at h
  cases hf : f s with
  | ok a t =>
    rw [hf] at h
    exact ⟨a, t, rfl, h⟩
  | error e t =>
    rw [hf] at h
    cases h

/-- What an action in two steps fails with: either step may be the one that fails. -/
theorem bind_eq_error {f : Action σ α} {g : α → Action σ β} {s u : σ} {e : Failure}
    (h : (f >>= g) s = .error e u) :
    f s = .error e u ∨ ∃ a t, f s = .ok a t ∧ g a t = .error e u := by
  simp only [bind, EStateM.bind] at h
  cases hf : f s with
  | ok a t =>
    rw [hf] at h
    exact .inr ⟨a, t, rfl, h⟩
  | error cause t =>
    rw [hf] at h
    cases h
    exact .inl rfl

theorem bind_eq_of_ok {f : Action σ α} {g : α → Action σ β} {s t : σ} {a : α}
    (h : f s = .ok a t) : (f >>= g) s = g a t := by
  simp only [bind, EStateM.bind, h]

theorem bind_eq_of_error {f : Action σ α} {g : α → Action σ β} {s t : σ} {e : Failure}
    (h : f s = .error e t) : (f >>= g) s = .error e t := by
  simp only [bind, EStateM.bind, h]

/-- Where the first steps of two actions end alike, so do the actions that go on alike. -/
theorem bind_eq_bind {f f' : Action σ α} {s t : σ} (h : f s = f' t) (g : α → Action σ β) :
    (f >>= g) s = (f' >>= g) t := by
  simp only [bind, EStateM.bind, h]

theorem get_bind (g : σ → Action σ β) (s : σ) : ((get : Action σ σ) >>= g) s = g s s :=
  rfl

theorem modify_bind (f : σ → σ) (g : Unit → Action σ β) (s : σ) :
    ((modify f : Action σ Unit) >>= g) s = g () (f s) :=
  rfl

/-- Whether an action succeeds in a state. -/
def succeeds (action : Action σ α) (s : σ) : Bool :=
  match action s with
  | .ok .. => true
  | .error .. => false

theorem exists_eq_ok {action : Action σ α} {s : σ} (h : action.succeeds s = true) :
    ∃ a t, action s = .ok a t := by
  unfold succeeds at h
  split at h
  · next a t hok => exact ⟨a, t, hok⟩
  · cases h

theorem ofExcept_eq_ok {result : Except Failure α} {s t : σ} {a : α}
    (h : ofExcept result s = .ok a t) : result = .ok a ∧ t = s := by
  cases result with
  | error e => cases h
  | ok b =>
    cases h
    exact ⟨rfl, rfl⟩

theorem eq_of_ofExcept_eq_error {result : Except Failure α} {s t : σ} {e : Failure}
    (h : ofExcept result s = .error e t) : t = s := by
  cases result with
  | error cause =>
    cases h
    rfl
  | ok a => cases h

/-- The state that an action leaves, whether it fails or not. -/
def after (action : Action σ α) (s : σ) : σ :=
  match action s with
  | .ok _ t => t
  | .error _ t => t

theorem after_of_ok {action : Action σ α} {s t : σ} {a : α} (h : action s = .ok a t) :
    action.after s = t := by
  simp only [after, h]

theorem after_of_error {action : Action σ α} {s t : σ} {e : Failure} (h : action s = .error e t) :
    action.after s = t := by
  simp only [after, h]

/-- The answer of an action, or the failure in the place of it. -/
def answer (action : Action σ α) (s : σ) : Except Failure α :=
  match action s with
  | .ok a _ => .ok a
  | .error e _ => .error e

theorem answer_of_ok {action : Action σ α} {s t : σ} {a : α} (h : action s = .ok a t) :
    action.answer s = .ok a := by
  simp only [answer, h]

theorem answer_of_error {action : Action σ α} {s t : σ} {e : Failure} (h : action s = .error e t) :
    action.answer s = .error e := by
  simp only [answer, h]

@[simp] theorem answer_ofExcept (result : Except Failure α) (s : σ) :
    (ofExcept result : Action σ α).answer s = result := by
  cases result <;> rfl

theorem eq_ok_of_answer {action : Action σ α} {s : σ} {a : α} (h : action.answer s = .ok a) :
    action s = .ok a (action.after s) := by
  simp only [answer, after] at h ⊢
  cases hs : action s with
  | ok b t =>
    rw [hs] at h
    cases h
    rfl
  | error e t =>
    rw [hs] at h
    cases h

theorem eq_error_of_answer {action : Action σ α} {s : σ} {e : Failure}
    (h : action.answer s = .error e) : action s = .error e (action.after s) := by
  simp only [answer, after] at h ⊢
  cases hs : action s with
  | ok b t =>
    rw [hs] at h
    cases h
  | error other t =>
    rw [hs] at h
    cases h
    rfl

/-- Where the first step succeeds, an action in two steps leaves what its second step leaves. -/
theorem after_bind_of_ok {f : Action σ α} {g : α → Action σ β} {s t : σ} {a : α}
    (h : f s = .ok a t) : (f >>= g).after s = (g a).after t := by
  simp only [after, bind_eq_of_ok h]

/-- Where the first step fails, an action in two steps ends there. -/
theorem after_bind_of_error {f : Action σ α} {g : α → Action σ β} {s t : σ} {e : Failure}
    (h : f s = .error e t) : (f >>= g).after s = t :=
  after_of_error (bind_eq_of_error h)

theorem answer_bind_of_ok {f : Action σ α} {g : α → Action σ β} {s t : σ} {a : α}
    (h : f s = .ok a t) : (f >>= g).answer s = (g a).answer t := by
  simp only [answer, bind_eq_of_ok h]

theorem answer_bind_of_error {f : Action σ α} {g : α → Action σ β} {s t : σ} {e : Failure}
    (h : f s = .error e t) : (f >>= g).answer s = .error e :=
  answer_of_error (bind_eq_of_error h)

/-- A last step that only looks at the answer leaves the state as it is. -/
theorem after_bind_ofExcept (f : Action σ α) (g : α → Except Failure β) (s : σ) :
    (f >>= fun a => ofExcept (g a)).after s = f.after s := by
  cases hf : f s with
  | ok a t =>
    rw [after_bind_of_ok hf, after_of_ok hf]
    cases hg : g a <;> simp only [after, ofExcept_ok, ofExcept_error]
  | error e t => rw [after_bind_of_error hf, after_of_error hf]

theorem answer_bind_ofExcept (f : Action σ α) (g : α → Except Failure β) (s : σ) :
    (f >>= fun a => ofExcept (g a)).answer s = (f.answer s).bind g := by
  cases hf : f s with
  | ok a t =>
    rw [answer_bind_of_ok hf, answer_of_ok hf]
    cases hg : g a <;> simp only [answer, ofExcept_ok, ofExcept_error, Except.bind, hg]
  | error e t =>
    rw [answer_bind_of_error hf, answer_of_error hf]
    rfl

end Action

end EpisodeCut
