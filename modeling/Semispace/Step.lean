/-!
# Operations whose effects remain

Operations on a state are written in `EStateM`: one that fails part-way keeps what it changed until
then. An operation that can fail without changing anything is an `Except` and is lifted.
-/

namespace Semispace

instance liftExcept {ε σ : Type} : MonadLift (Except ε) (EStateM ε σ) where
  monadLift
    | .ok a => pure a
    | .error e => throw e

/-- The state in which an operation ends, whether it fails or not. -/
def endState {ε σ α : Type} : EStateM.Result ε σ α → σ
  | .ok _ s => s
  | .error _ s => s

/-- What an operation answers, whatever state it ends in. -/
def answer {ε σ α : Type} : EStateM.Result ε σ α → Except ε α
  | .ok a _ => .ok a
  | .error e _ => .error e

@[simp] theorem run_liftM_ok {ε σ α : Type} (a : α) (s : σ) :
    (liftM (.ok a : Except ε α) : EStateM ε σ α).run s = .ok a s := rfl

@[simp] theorem run_liftM_error {ε σ α : Type} (e : ε) (s : σ) :
    (liftM (.error e : Except ε α) : EStateM ε σ α).run s = .error e s := rfl

@[simp] theorem endState_ok {ε σ α : Type} (a : α) (s : σ) :
    endState (.ok a s : EStateM.Result ε σ α) = s := rfl

@[simp] theorem endState_error {ε σ α : Type} (e : ε) (s : σ) :
    endState (.error e s : EStateM.Result ε σ α) = s := rfl

/-- An operation that answers gives its answer in the state in which it ends. -/
theorem eq_ok_get {ε σ α : Type} {r : EStateM.Result ε σ α} (h : (answer r).toOption.isSome = true) :
    r = .ok ((answer r).toOption.get h) (endState r) := by
  cases r with
  | ok a s => rfl
  | error e s => exact absurd h Bool.false_ne_true

theorem exists_of_isSome {ε σ α : Type} {r : EStateM.Result ε σ α} (h : (answer r).toOption.isSome = true) :
    ∃ a s, r = .ok a s := ⟨_, _, eq_ok_get h⟩

/-- An operation that answers with an error throws it in some state. -/
theorem exists_of_answer_error {ε σ α : Type} {r : EStateM.Result ε σ α} {e : ε} (h : answer r = .error e) :
    ∃ s, r = .error e s := by
  cases r with
  | ok a s => cases h
  | error e' s => cases h; exact ⟨s, rfl⟩

/-- One that answers with a value ends with it. -/
theorem exists_of_answer_ok {ε σ α : Type} {r : EStateM.Result ε σ α} {a : α} (h : answer r = .ok a) :
    ∃ s, r = .ok a s := by
  cases r with
  | ok a' s => cases h; exact ⟨s, rfl⟩
  | error e s => cases h

/-! ## Running one step after another -/

section
variable {ε σ α β : Type} {s s' : σ} {a : α} {e : ε}

theorem run_get_bind (f : σ → EStateM ε σ β) (s : σ) : (get >>= f).run s = (f s).run s := rfl

theorem run_bind_ok {x : EStateM ε σ α} (h : x.run s = .ok a s') (f : α → EStateM ε σ β) :
    (x >>= f).run s = (f a).run s' := by
  rw [EStateM.run_bind, h]

theorem run_bind_error {x : EStateM ε σ α} (h : x.run s = .error e s') (f : α → EStateM ε σ β) :
    (x >>= f).run s = .error e s' := by
  rw [EStateM.run_bind, h]

/-- A sequence that answers was answered at each step. -/
theorem exists_of_run_bind {x : EStateM ε σ α} {f : α → EStateM ε σ β} {b : β} (h : (x >>= f).run s = .ok b s') :
    ∃ a t, x.run s = .ok a t ∧ (f a).run t = .ok b s' := by
  rw [EStateM.run_bind] at h
  cases hr : x.run s with
  | ok a t =>
    rw [hr] at h
    exact ⟨a, t, rfl, h⟩
  | error e t =>
    rw [hr] at h
    cases h

theorem run_liftM_bind {x : Except ε α} (h : x = .ok a) (f : α → EStateM ε σ β) (s : σ) :
    ((liftM x : EStateM ε σ α) >>= f).run s = (f a).run s := by
  subst h; rfl

theorem run_liftM_bind_error {x : Except ε α} (h : x = .error e) (f : α → EStateM ε σ β) (s : σ) :
    ((liftM x : EStateM ε σ α) >>= f).run s = .error e s := by
  subst h; rfl

end

/-- An operation that leaves a part of its state as it is. -/
def Keeps {σ α β : Type} {ε : Type} (part : σ → β) (x : EStateM ε σ α) : Prop :=
  ∀ s, part (endState (x.run s)) = part s

namespace Keeps

variable {ε σ α β γ : Type} {part : σ → β}

theorem pure (a : α) : Keeps part (Pure.pure a : EStateM ε σ α) := fun _ => rfl

theorem throw (e : ε) : Keeps part (MonadExcept.throw e : EStateM ε σ α) := fun _ => rfl

theorem get : Keeps part (MonadState.get : EStateM ε σ σ) := fun _ => rfl

theorem lift (x : Except ε α) : Keeps part (liftM x : EStateM ε σ α) := by
  cases x <;> exact fun _ => rfl

theorem modify {f : σ → σ} (h : ∀ s, part (f s) = part s) :
    Keeps part (modifyGet fun s => (PUnit.unit, f s) : EStateM ε σ PUnit) :=
  fun s => h s

/-- What an operation leaves of a part is left by what keeps it. -/
theorem run_bind {x : EStateM ε σ α} {f : α → EStateM ε σ γ} {s : σ} {b : β} (hx : part (endState (x.run s)) = b)
    (hf : ∀ a, Keeps part (f a)) : part (endState ((x >>= f).run s)) = b := by
  rw [EStateM.run_bind]
  cases hr : x.run s with
  | ok a s' => rw [hr, endState_ok] at hx; exact (hf a s').trans hx
  | error e s' => rw [hr, endState_error] at hx; exact hx

theorem bind {x : EStateM ε σ α} {f : α → EStateM ε σ γ} (hx : Keeps part x)
    (hf : ∀ a, Keeps part (f a)) : Keeps part (x >>= f) :=
  fun s => run_bind (hx s) hf

end Keeps

end Semispace
