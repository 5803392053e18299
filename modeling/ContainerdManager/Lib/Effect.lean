import Mathlib.Order.Defs.Unbundled

/-!
# Computations that fail and change a state

`EStateM ε σ α` keeps the state it had when it failed. `after` is the state
a computation ends in either way, and `Keeps R` says that it is related to
the state it began in: a frame rule for every outcome at once. `attempt`
turns a failure into a value. `EndsWith` says of a computation that is given
another one that it runs it, and nothing after it.
-/

namespace Lib

variable {ε σ α β : Type}

/-- The state `m` ends in, failed or not. -/
def after (m : EStateM ε σ α) (s : σ) : σ :=
  match m s with
  | .ok _ s' => s'
  | .error _ s' => s'

theorem after_ok {m : EStateM ε σ α} {s s' : σ} {a : α} (h : m s = .ok a s') : after m s = s' := by
  rw [after, h]

theorem after_error {m : EStateM ε σ α} {s s' : σ} {e : ε} (h : m s = .error e s') :
    after m s = s' := by
  rw [after, h]

@[simp] theorem after_modify (f : σ → σ) (s : σ) :
    after (modify f : EStateM ε σ Unit) s = f s := rfl

/-- What `m` comes to. -/
def result (m : EStateM ε σ α) (s : σ) : Except ε α :=
  match m s with
  | .ok a _ => .ok a
  | .error e _ => .error e

theorem result_ok {m : EStateM ε σ α} {s s' : σ} {a : α} (h : m s = .ok a s') :
    result m s = .ok a := by
  rw [result, h]

theorem result_error {m : EStateM ε σ α} {s s' : σ} {e : ε} (h : m s = .error e s') :
    result m s = .error e := by
  rw [result, h]

theorem ok_of_result {m : EStateM ε σ α} {s : σ} {a : α} (h : (result m s).toOption = some a) :
    ∃ t, m s = .ok a t := by
  unfold result at h
  cases hm : m s with
  | ok b t =>
    rw [hm] at h
    cases h
    exact ⟨t, rfl⟩
  | error e t =>
    rw [hm] at h
    cases h

theorem error_of_result {m : EStateM ε σ α} {s : σ} {e : ε} (h : result m s = .error e) :
    m s = .error e (after m s) := by
  unfold result at h
  unfold after
  cases hm : m s with
  | ok b t =>
    rw [hm] at h
    cases h
  | error e t =>
    rw [hm] at h
    cases h
    rfl

/-- Run `m` and return its outcome. -/
def attempt (m : EStateM ε σ α) : EStateM ε σ (Except ε α) := fun s =>
  match m s with
  | .ok a s' => .ok (.ok a) s'
  | .error e s' => .ok (.error e) s'

theorem after_attempt (m : EStateM ε σ α) (s : σ) : after (attempt m) s = after m s := by
  unfold after attempt
  cases m s <;> rfl

theorem attempt_ok {m : EStateM ε σ α} {s s' : σ} {a : α} (h : m s = .ok a s') :
    attempt m s = .ok (.ok a) s' := by
  simp only [attempt, h]

theorem attempt_error {m : EStateM ε σ α} {s s' : σ} {e : ε} (h : m s = .error e s') :
    attempt m s = .ok (.error e) s' := by
  simp only [attempt, h]

theorem attempt_eq_ok {m : EStateM ε σ α} {s s' : σ} {a : α}
    (h : attempt m s = .ok (.ok a) s') : m s = .ok a s' := by
  cases hm : m s with
  | ok b t =>
    rw [attempt_ok hm] at h
    cases h
    rfl
  | error e t =>
    rw [attempt_error hm] at h
    cases h

theorem attempt_eq_error {m : EStateM ε σ α} {s s' : σ} {e : ε}
    (h : attempt m s = .ok (.error e) s') : m s = .error e s' := by
  cases hm : m s with
  | ok b t =>
    rw [attempt_ok hm] at h
    cases h
  | error e' t =>
    rw [attempt_error hm] at h
    cases h
    rfl

/-- An attempt never fails. -/
theorem attempt_eq (m : EStateM ε σ α) (s : σ) : ∃ r, attempt m s = .ok r (after m s) := by
  unfold after attempt
  cases m s <;> exact ⟨_, rfl⟩

/-! ## What holds if it fails -/

theorem forall_error_of_error {m : EStateM ε σ α} {s t : σ} {e : ε} {p : σ → Prop}
    (h : m s = .error e t) : (∀ e' t', m s = .error e' t' → p t') ↔ p t := by
  constructor
  · exact fun hp => hp e t h
  · intro hp e' t' h'
    rw [h] at h'
    cases h'
    exact hp

theorem forall_error_of_ok {m : EStateM ε σ α} {s t : σ} {a : α} {p : σ → Prop}
    (h : m s = .ok a t) : ∀ e' t', m s = .error e' t' → p t' := by
  intro e' t' h'
  rw [h] at h'
  cases h'

/-! ## Sequencing -/

theorem bind_ok {m : EStateM ε σ α} {f : α → EStateM ε σ β} {s s' : σ} {a : α}
    (h : m s = .ok a s') : (m >>= f) s = f a s' := by
  show EStateM.bind m f s = _
  rw [EStateM.bind, h]

theorem bind_error {m : EStateM ε σ α} {f : α → EStateM ε σ β} {s s' : σ} {e : ε}
    (h : m s = .error e s') : (m >>= f) s = .error e s' := by
  show EStateM.bind m f s = _
  rw [EStateM.bind, h]

theorem after_bind_ok {m : EStateM ε σ α} {f : α → EStateM ε σ β} {s s' : σ} {a : α}
    (h : m s = .ok a s') : after (m >>= f) s = after (f a) s' := by
  unfold after
  rw [bind_ok h]

theorem after_bind_error {m : EStateM ε σ α} {f : α → EStateM ε σ β} {s s' : σ} {e : ε}
    (h : m s = .error e s') : after (m >>= f) s = s' := after_error (bind_error h)

theorem bind_eq_ok {m : EStateM ε σ α} {f : α → EStateM ε σ β} {s t : σ} {b : β}
    (h : (m >>= f) s = .ok b t) : ∃ a s', m s = .ok a s' ∧ f a s' = .ok b t := by
  cases hm : m s with
  | ok a s' => exact ⟨a, s', rfl, by rwa [bind_ok hm] at h⟩
  | error e s' => rw [bind_error hm] at h; cases h

/-- `m` fails from `s`. -/
def Fails (m : EStateM ε σ α) (s : σ) : Prop := ∃ e t, m s = .error e t

theorem fails_of_error {m : EStateM ε σ α} {s t : σ} {e : ε} (h : m s = .error e t) : Fails m s :=
  ⟨e, t, h⟩

theorem fails_bind_of_ok {m : EStateM ε σ α} {f : α → EStateM ε σ β} {s s' : σ} {a : α}
    (h : m s = .ok a s') : Fails (m >>= f) s ↔ Fails (f a) s' := by
  unfold Fails
  rw [bind_ok h]

theorem Fails.bind {m : EStateM ε σ α} {s : σ} (h : Fails m s) (f : α → EStateM ε σ β) :
    Fails (m >>= f) s := by
  obtain ⟨e, t, h⟩ := h
  exact ⟨e, t, bind_error h⟩

/-! ## Frames -/

/-- Whatever its outcome, `m` leads from a state to one related to it. -/
def Keeps (R : σ → σ → Prop) (m : EStateM ε σ α) : Prop := ∀ s, R s (after m s)

variable {R : σ → σ → Prop}

theorem Keeps.ok {m : EStateM ε σ α} (h : Keeps R m) {s s' : σ} {a : α} (hm : m s = .ok a s') :
    R s s' := after_ok hm ▸ h s

theorem Keeps.error {m : EStateM ε σ α} (h : Keeps R m) {s s' : σ} {e : ε}
    (hm : m s = .error e s') : R s s' := after_error hm ▸ h s

theorem Keeps.attempt {m : EStateM ε σ α} (h : Keeps R m) : Keeps R (attempt m) := fun s => by
  rw [after_attempt]
  exact h s

theorem Keeps.bind [IsTrans σ R] {m : EStateM ε σ α} {f : α → EStateM ε σ β} (hm : Keeps R m)
    (hf : ∀ a, Keeps R (f a)) : Keeps R (m >>= f) := by
  intro s
  cases hr : m s with
  | ok a s' =>
    rw [after_bind_ok hr]
    exact IsTrans.trans _ _ _ (hm.ok hr) (hf a s')
  | error e s' =>
    rw [after_bind_error hr]
    exact hm.error hr

/-- What follows changes nothing. -/
theorem Keeps.bind_still {m : EStateM ε σ α} {f : α → EStateM ε σ β} (hm : Keeps R m)
    (hf : ∀ a s, after (f a) s = s) : Keeps R (m >>= f) := by
  intro s
  cases hr : m s with
  | ok a s' =>
    rw [after_bind_ok hr, hf]
    exact hm.ok hr
  | error e s' =>
    rw [after_bind_error hr]
    exact hm.error hr

theorem Keeps.pure [Std.Refl R] (a : α) : Keeps R (pure a : EStateM ε σ α) := fun s =>
  Std.Refl.refl s

theorem Keeps.throw [Std.Refl R] (e : ε) : Keeps R (throw e : EStateM ε σ α) := fun s =>
  Std.Refl.refl s

/-! ## Errors -/

/-- Every error `m` may fail with meets `φ`. -/
def Raises (φ : ε → Prop) (m : EStateM ε σ α) : Prop := ∀ s e t, m s = .error e t → φ e

variable {φ : ε → Prop}

theorem Raises.pure (a : α) : Raises φ (pure a : EStateM ε σ α) := fun _ _ _ h => by cases h

theorem Raises.throw {e : ε} (h : φ e) : Raises φ (throw e : EStateM ε σ α) := by
  intro s e' t he
  cases he
  exact h

theorem Raises.bind {m : EStateM ε σ α} {f : α → EStateM ε σ β} (hm : Raises φ m)
    (hf : ∀ a, Raises φ (f a)) : Raises φ (m >>= f) := by
  intro s e t he
  cases hr : m s with
  | ok a s' =>
    rw [bind_ok hr] at he
    exact hf a s' e t he
  | error e' s' =>
    rw [bind_error hr] at he
    cases he
    exact hm s e t hr

/-- An attempt has no error. -/
theorem Raises.attempt (m : EStateM ε σ α) : Raises φ (attempt m) := by
  intro s e t he
  obtain ⟨r, hr⟩ := attempt_eq m s
  rw [hr] at he
  cases he

/-- What follows an attempt knows its error. -/
theorem Raises.bind_attempt {m : EStateM ε σ α} {f : Except ε α → EStateM ε σ β} (hm : Raises φ m)
    (hf : ∀ r, (∀ e, r = .error e → φ e) → Raises φ (f r)) : Raises φ (Lib.attempt m >>= f) := by
  intro s e t he
  cases hr : m s with
  | ok a s' =>
    rw [bind_ok (attempt_ok hr)] at he
    exact hf (.ok a) nofun s' e t he
  | error e' s' =>
    rw [bind_ok (attempt_error hr)] at he
    refine hf (.error e') (fun e'' h => ?_) s' e t he
    cases h
    exact hm s e' s' hr

/-! ## What is done last -/

/-- The last thing `call` does from `s` is to run the computation it is given, whatever
that does. -/
def EndsWith (call : EStateM ε σ β → EStateM ε σ α) (s : σ) : Prop :=
  ∃ t, ∀ m, after (call m) s = after m t

theorem endsWith_bind_ok {γ : Type} {p : EStateM ε σ γ}
    {f : EStateM ε σ β → γ → EStateM ε σ α} {s t : σ} {c : γ} (h : p s = .ok c t) :
    EndsWith (fun m => p >>= f m) s ↔ EndsWith (fun m => f m c) t := by
  unfold EndsWith
  simp only [after_bind_ok h]

/-- A computation that ends in a fixed state does not end with the one it is given. -/
theorem not_endsWith {call : EStateM ε σ β → EStateM ε σ α} {s t u : σ}
    (h : ∀ m, after (call m) s = t) (hu : u ≠ t) (b : β) : ¬ EndsWith call s := by
  rintro ⟨r, hr⟩
  let stay : EStateM ε σ β := fun _ => .ok b u
  exact hu ((hr stay).symm.trans (h stay))

theorem not_endsWith_bind_error {γ : Type} {p : EStateM ε σ γ}
    {f : EStateM ε σ β → γ → EStateM ε σ α} {s t u : σ} {e : ε} (h : p s = .error e t) (hu : u ≠ t)
    (b : β) : ¬ EndsWith (fun m => p >>= f m) s :=
  not_endsWith (fun _ => after_bind_error h) hu b

end Lib
