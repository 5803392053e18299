import ContainerdManager.Lib.Effect

/-!
# Programs of atomic steps

A `Prog σ ε α` takes its steps one at a time on a state `σ` it may share with
others: between two steps the state may change. A step waits until it is
ready, changes the state, and goes on in a way that depends on the state it
was taken in. `run` is the program alone, as a computation of
`Lib.Effect`; `Lib.Pool` interleaves several. `Steps R p` is the frame rule
for both: every step of `p` leads from a state to one related to it by `R`.
-/

namespace Lib

inductive Prog (σ ε α : Type) where
  | ret (a : α)
  | fail (e : ε)
  | step (ready : σ → Bool) (f : σ → σ) (k : σ → Prog σ ε α)

namespace Prog

variable {σ τ ε α β : Type}

def bind : Prog σ ε α → (α → Prog σ ε β) → Prog σ ε β
  | ret a, g => g a
  | fail e, _ => fail e
  | step ready f k, g => step ready f fun s => (k s).bind g

def tryCatch : Prog σ ε α → (ε → Prog σ ε α) → Prog σ ε α
  | ret a, _ => ret a
  | fail e, g => g e
  | step ready f k, g => step ready f fun s => (k s).tryCatch g

instance : Monad (Prog σ ε) where
  pure := ret
  bind := bind

instance : MonadExceptOf ε (Prog σ ε) where
  throw := fail
  tryCatch := tryCatch

/-- The outcome of a program as a value. -/
def attempt : Prog σ ε α → Prog σ ε (Except ε α)
  | ret a => ret (.ok a)
  | fail e => ret (.error e)
  | step ready f k => step ready f fun s => (k s).attempt

/-- A computation taken as one step. -/
def atomic (m : EStateM ε σ α) : Prog σ ε α :=
  step (fun _ => true) (after m) fun s =>
    match m s with
    | .ok a _ => ret a
    | .error e _ => fail e

/-- A step that waits for `ready`. -/
def await (ready : σ → Bool) (f : σ → σ) : Prog σ ε Unit := step ready f fun _ => ret ()

/-- Run `q` after `p`, whatever the outcome of `p`. -/
def ensuring (p : Prog σ ε α) (q : Prog σ ε Unit) : Prog σ ε α :=
  p.attempt.bind fun r => q.bind fun _ =>
    match r with
    | .ok a => ret a
    | .error e => fail e

/-- A program on a part of a larger state. -/
def zoom (get : τ → σ) (put : τ → σ → τ) : Prog σ ε α → Prog τ ε α
  | ret a => ret a
  | fail e => fail e
  | step ready f k =>
    step (fun t => ready (get t)) (fun t => put t (f (get t))) fun t => (k (get t)).zoom get put

/-- What a program that has no step left came to. -/
def result? : Prog σ ε α → Option (Except ε α)
  | ret a => some (.ok a)
  | fail e => some (.error e)
  | step _ _ _ => none

/-- The program alone: nobody else takes a step, and nothing it waits for is held. -/
def run : Prog σ ε α → EStateM ε σ α
  | ret a => pure a
  | fail e => throw e
  | step _ f k => fun s => (k s).run (f s)

/-! ## Running alone -/

@[simp] theorem run_pure (a : α) : run (pure a : Prog σ ε α) = pure a := rfl

@[simp] theorem run_ret (a : α) : run (ret a : Prog σ ε α) = pure a := rfl

@[simp] theorem run_throw (e : ε) : run (throw e : Prog σ ε α) = throw e := rfl

@[simp] theorem run_fail (e : ε) : run (fail e : Prog σ ε α) = throw e := rfl

@[simp] theorem run_bind (p : Prog σ ε α) (g : α → Prog σ ε β) :
    run (p >>= g) = run p >>= fun a => run (g a) := by
  show run (p.bind g) = _
  induction p with
  | ret a => rfl
  | fail e => rfl
  | step ready f k ih =>
    funext s
    exact congrFun (ih s) (f s)

@[simp] theorem run_atomic (m : EStateM ε σ α) : run (atomic m) = m := by
  funext s
  show run (match m s with | .ok a _ => ret a | .error e _ => fail e) (after m s) = m s
  cases h : m s with
  | ok a t => rw [after_ok h]; rfl
  | error e t => rw [after_error h]; rfl

@[simp] theorem run_attempt (p : Prog σ ε α) : run p.attempt = Lib.attempt p.run := by
  induction p with
  | ret a => rfl
  | fail e => rfl
  | step ready f k ih =>
    funext s
    exact congrFun (ih s) (f s)

@[simp] theorem run_await (ready : σ → Bool) (f : σ → σ) :
    run (await ready f : Prog σ ε Unit) = fun s => .ok () (f s) := rfl

theorem run_ensuring (p : Prog σ ε α) (q : Prog σ ε Unit) :
    run (p.ensuring q) = Lib.attempt p.run >>= fun r => run q >>= fun _ =>
      match r with
      | .ok a => pure a
      | .error e => throw e := by
  show run (p.attempt >>= fun r => q >>= fun _ => _) = _
  rw [run_bind, run_attempt]
  congr 1
  funext r
  rw [run_bind]
  cases r <;> rfl

/-- What follows a program that ran, when it succeeds itself, changes neither value nor error. -/
theorem run_ensuring_ok {p : Prog σ ε α} {q : Prog σ ε Unit} {s t u : σ} {a : α}
    (hp : run p s = .ok a t) (hq : run q t = .ok () u) : run (p.ensuring q) s = .ok a u := by
  rw [run_ensuring, bind_ok (attempt_ok hp), bind_ok hq]
  rfl

theorem run_ensuring_error {p : Prog σ ε α} {q : Prog σ ε Unit} {s t u : σ} {e : ε}
    (hp : run p s = .error e t) (hq : run q t = .ok () u) : run (p.ensuring q) s = .error e u := by
  rw [run_ensuring, bind_ok (attempt_error hp), bind_ok hq]
  rfl

theorem after_ensuring (p : Prog σ ε α) (q : Prog σ ε Unit) (s : σ) :
    after (run (p.ensuring q)) s = after (run q) (after (run p) s) := by
  rw [run_ensuring]
  obtain ⟨r, hr⟩ := attempt_eq (run p) s
  have hbind : ∀ t, after (run q >>= fun _ => (match r with
      | .ok a => pure a
      | .error e => throw e : EStateM ε σ α)) t = after (run q) t := by
    intro t
    cases hq : run q t with
    | ok u t' =>
      rw [after_ok hq]
      cases r with
      | ok a => exact after_ok (bind_ok hq)
      | error e => exact after_error (bind_ok hq)
    | error e t' => rw [after_error hq, after_bind_error hq]
  rw [← hbind]
  exact after_bind_ok hr

/-! ## Frames -/

/-- Every step leads from a state to one related to it. -/
def Steps (R : σ → σ → Prop) : Prog σ ε α → Prop
  | ret _ => True
  | fail _ => True
  | step _ f k => ∀ s, R s (f s) ∧ (k s).Steps R

variable {R : σ → σ → Prop}

theorem Steps.any (p : Prog σ ε α) : Steps (fun _ _ => True) p := by
  induction p with
  | ret a => trivial
  | fail e => trivial
  | step ready f k ih => exact fun s => ⟨trivial, ih s⟩

theorem Steps.pure (a : α) : Steps R (pure a : Prog σ ε α) := trivial

theorem Steps.throw (e : ε) : Steps R (throw e : Prog σ ε α) := trivial

theorem Steps.bind {p : Prog σ ε α} {g : α → Prog σ ε β} (hp : Steps R p)
    (hg : ∀ a, Steps R (g a)) : Steps R (p >>= g) := by
  show Steps R (p.bind g)
  induction p with
  | ret a => exact hg a
  | fail e => trivial
  | step ready f k ih => exact fun s => ⟨(hp s).1, ih s (hp s).2⟩

theorem Steps.attempt {p : Prog σ ε α} (hp : Steps R p) : Steps R p.attempt := by
  induction p with
  | ret a => trivial
  | fail e => trivial
  | step ready f k ih => exact fun s => ⟨(hp s).1, ih s (hp s).2⟩

theorem Steps.atomic {m : EStateM ε σ α} (h : Keeps R m) : Steps R (Prog.atomic m) := by
  intro s
  refine ⟨h s, ?_⟩
  show Steps R (match m s with | .ok a _ => ret a | .error e _ => fail e)
  cases m s <;> trivial

theorem Steps.await {ready : σ → Bool} {f : σ → σ} (h : ∀ s, R s (f s)) :
    Steps R (Prog.await ready f : Prog σ ε Unit) := fun s => ⟨h s, trivial⟩

theorem Steps.ensuring {p : Prog σ ε α} {q : Prog σ ε Unit} (hp : Steps R p) (hq : Steps R q) :
    Steps R (p.ensuring q) := by
  refine .bind hp.attempt fun r => .bind hq fun _ => ?_
  cases r <;> trivial

theorem Steps.mono {R' : σ → σ → Prop} {p : Prog σ ε α} (h : Steps R p)
    (hR : ∀ s t, R s t → R' s t) : Steps R' p := by
  induction p with
  | ret a => trivial
  | fail e => trivial
  | step ready f k ih => exact fun s => ⟨hR _ _ (h s).1, ih s (h s).2⟩

/-- A program alone keeps what its steps keep. -/
theorem Steps.keeps [Std.Refl R] [IsTrans σ R] {p : Prog σ ε α} (h : Steps R p) :
    Keeps R p.run := by
  induction p with
  | ret a => exact .pure a
  | fail e => exact .throw e
  | step ready f k ih =>
    intro s
    exact IsTrans.trans _ _ _ (h s).1 (ih s (h s).2 (f s))

/-- The frame of a program on a part of the state. -/
theorem Steps.zoom {get : τ → σ} {put : τ → σ → τ} {R' : τ → τ → Prop} {p : Prog σ ε α}
    (h : Steps R p) (hR : ∀ t s, R (get t) s → R' t (put t s)) : Steps R' (p.zoom get put) := by
  induction p with
  | ret a => trivial
  | fail e => trivial
  | step ready f k ih => exact fun t => ⟨hR _ _ (h (get t)).1, ih _ (h (get t)).2⟩

/-! ## Returned values -/

/-- Every value the program may return meets `φ`. -/
def Returns (φ : α → Prop) : Prog σ ε α → Prop
  | ret a => φ a
  | fail _ => True
  | step _ _ k => ∀ s, (k s).Returns φ

theorem Returns.pure {φ : α → Prop} {a : α} (h : φ a) : Returns φ (pure a : Prog σ ε α) := h

theorem Returns.any (p : Prog σ ε α) : Returns (fun _ => True) p := by
  induction p with
  | ret a => trivial
  | fail e => trivial
  | step ready f k ih => exact ih

theorem Returns.mono {φ ψ : α → Prop} {p : Prog σ ε α} (h : Returns φ p) (hφ : ∀ a, φ a → ψ a) :
    Returns ψ p := by
  induction p with
  | ret a => exact hφ a h
  | fail e => trivial
  | step ready f k ih => exact fun s => ih s (h s)

theorem Returns.bind {φ : α → Prop} {ψ : β → Prop} {p : Prog σ ε α} {g : α → Prog σ ε β}
    (hp : Returns φ p) (hg : ∀ a, φ a → Returns ψ (g a)) : Returns ψ (p >>= g) := by
  show Returns ψ (p.bind g)
  induction p with
  | ret a => exact hg a hp
  | fail e => trivial
  | step ready f k ih => exact fun s => ih s (hp s)

theorem Returns.zoom {φ : α → Prop} {p : Prog σ ε α} (h : Returns φ p) (get : τ → σ)
    (put : τ → σ → τ) :
    Returns φ (p.zoom get put) := by
  induction p with
  | ret a => exact h
  | fail e => trivial
  | step ready f k ih => exact fun t => ih _ (h (get t))

theorem Returns.run_ok {φ : α → Prop} {p : Prog σ ε α} (h : Returns φ p) {s t : σ} {a : α}
    (hr : run p s = .ok a t) : φ a := by
  induction p generalizing s with
  | ret b =>
    cases hr
    exact h
  | fail e => cases hr
  | step ready f k ih => exact ih s (h s) hr

/-- Sequencing a frame, with what is known of the value in between. -/
theorem Steps.bindReturns {φ : α → Prop} {p : Prog σ ε α} {g : α → Prog σ ε β} (hp : Steps R p)
    (hφ : Returns φ p) (hg : ∀ a, φ a → Steps R (g a)) : Steps R (p >>= g) := by
  show Steps R (p.bind g)
  induction p with
  | ret a => exact hg a hφ
  | fail e => trivial
  | step ready f k ih => exact fun s => ⟨(hp s).1, ih s (hp s).2 (hφ s)⟩

/-! ## Errors -/

/-- Every error the program may fail with meets `φ`. -/
def Throws (φ : ε → Prop) : Prog σ ε α → Prop
  | ret _ => True
  | fail e => φ e
  | step _ _ k => ∀ s, (k s).Throws φ

section Throws

variable {φ : ε → Prop}

theorem Throws.pure (a : α) : Throws φ (pure a : Prog σ ε α) := trivial

theorem Throws.throw {e : ε} (h : φ e) : Throws φ (throw e : Prog σ ε α) := h

theorem Throws.mono {ψ : ε → Prop} {p : Prog σ ε α} (h : Throws φ p) (hφ : ∀ e, φ e → ψ e) :
    Throws ψ p := by
  induction p with
  | ret a => trivial
  | fail e => exact hφ e h
  | step ready f k ih => exact fun s => ih s (h s)

theorem Throws.bind {p : Prog σ ε α} {g : α → Prog σ ε β} (hp : Throws φ p)
    (hg : ∀ a, Throws φ (g a)) : Throws φ (p >>= g) := by
  show Throws φ (p.bind g)
  induction p with
  | ret a => exact hg a
  | fail e => exact hp
  | step ready f k ih => exact fun s => ih s (hp s)

theorem Throws.atomic {m : EStateM ε σ α} (h : Raises φ m) : Throws φ (Prog.atomic m) := by
  intro s
  show Throws φ (match m s with | .ok a _ => ret a | .error e _ => fail e)
  cases hm : m s with
  | ok a t => trivial
  | error e t => exact h s e t hm

theorem Throws.await (ready : σ → Bool) (f : σ → σ) :
    Throws φ (Prog.await ready f : Prog σ ε Unit) := fun _ => trivial

theorem Throws.attempt (p : Prog σ ε α) : Throws φ p.attempt := by
  induction p with
  | ret a => trivial
  | fail e => trivial
  | step ready f k ih => exact ih

/-- The outcome of `p` as a value has an error of `p` in it. -/
theorem Throws.returns_attempt {p : Prog σ ε α} (h : Throws φ p) :
    Returns (fun r => ∀ e, r = .error e → φ e) p.attempt := by
  induction p with
  | ret a => exact nofun
  | fail e =>
    rintro e' he
    cases he
    exact h
  | step ready f k ih => exact fun s => ih s (h s)

/-- Sequencing, with what is known of the value in between. -/
theorem Throws.bindReturns {ψ : α → Prop} {p : Prog σ ε α} {g : α → Prog σ ε β}
    (hp : Throws φ p) (hψ : Returns ψ p) (hg : ∀ a, ψ a → Throws φ (g a)) :
    Throws φ (p >>= g) := by
  show Throws φ (p.bind g)
  induction p with
  | ret a => exact hg a hψ
  | fail e => exact hp
  | step ready f k ih => exact fun s => ih s (hp s) (hψ s)

theorem Throws.ensuring {p : Prog σ ε α} {q : Prog σ ε Unit} (hp : Throws φ p)
    (hq : Throws φ q) : Throws φ (p.ensuring q) := by
  refine .bindReturns (.attempt p) hp.returns_attempt fun r hr => .bind hq fun _ => ?_
  cases r with
  | ok a => trivial
  | error e => exact hr e rfl

end Throws

/-! ## Programs that are dropped -/

/-- The state in which the program alone is dropped, after `n` steps if it has as many. -/
def dropped : Nat → Prog σ ε α → σ → σ
  | n + 1, step _ f k, s => dropped n (k s) (f s)
  | _, _, s => s

/-- How many steps the program takes alone. -/
def length : Prog σ ε α → σ → Nat
  | ret _, _ => 0
  | fail _, _ => 0
  | step _ f k, s => (k s).length (f s) + 1

/-- Run for at most `n` steps; a program that takes more is dropped and comes to nothing. -/
def timeout (n : Nat) (p : Prog σ ε α) (s : σ) : Option (Except ε α) × σ :=
  (if p.length s ≤ n then some (result p.run s) else none, dropped n p s)

@[simp] theorem dropped_zero (p : Prog σ ε α) (s : σ) : dropped 0 p s = s := by
  cases p <;> rfl

@[simp] theorem dropped_ret (n : Nat) (a : α) (s : σ) :
    dropped n (ret a : Prog σ ε α) s = s := by
  cases n <;> rfl

@[simp] theorem dropped_fail (n : Nat) (e : ε) (s : σ) :
    dropped n (fail e : Prog σ ε α) s = s := by
  cases n <;> rfl

/-- A program that is done is not dropped. -/
theorem dropped_of_length_le {p : Prog σ ε α} {n : Nat} {s : σ} (h : p.length s ≤ n) :
    dropped n p s = after p.run s := by
  induction p generalizing n s with
  | ret a => exact dropped_ret n a s
  | fail e => exact dropped_fail n e s
  | step ready f k ih =>
    cases n with
    | zero => exact absurd h (Nat.not_succ_le_zero _)
    | succ n => exact ih s (Nat.le_of_succ_le_succ h)

/-- What is dropped has kept what its steps keep. -/
theorem Steps.dropped [Std.Refl R] [IsTrans σ R] {p : Prog σ ε α} (h : Steps R p) (n : Nat)
    (s : σ) : R s (p.dropped n s) := by
  induction p generalizing n s with
  | ret a => rw [dropped_ret]; exact Std.Refl.refl s
  | fail e => rw [dropped_fail]; exact Std.Refl.refl s
  | step ready f k ih =>
    cases n with
    | zero => exact Std.Refl.refl s
    | succ n => exact IsTrans.trans _ _ _ (h s).1 (ih s (h s).2 n (f s))

section Bind

variable {p : Prog σ ε α} {g : α → Prog σ ε β} {n : Nat} {s t : σ}

/-- Dropped in its first part. -/
theorem dropped_bind_of_le (h : n ≤ p.length s) : dropped n (p >>= g) s = dropped n p s := by
  show dropped n (p.bind g) s = _
  induction p generalizing n s with
  | ret a =>
    cases Nat.le_zero.mp h
    rw [dropped_zero, dropped_zero]
  | fail e => exact (dropped_fail n e s).trans (dropped_fail n e s).symm
  | step ready f k ih =>
    cases n with
    | zero => rfl
    | succ n => exact ih s (Nat.le_of_succ_le_succ h)

/-- Dropped after its first part. -/
theorem dropped_bind_ok {a : α} (h : p.run s = .ok a t) :
    dropped (p.length s + n) (p >>= g) s = dropped n (g a) t := by
  show dropped _ (p.bind g) s = _
  induction p generalizing s with
  | ret b =>
    cases h
    rw [length, Nat.zero_add]
    rfl
  | fail e => cases h
  | step ready f k ih =>
    rw [length, Nat.add_right_comm]
    exact ih s h

/-- There is no part after one that fails. -/
theorem dropped_bind_error {e : ε} (h : p.run s = .error e t) :
    dropped n (p >>= g) s = dropped n p s := by
  show dropped n (p.bind g) s = _
  induction p generalizing n s with
  | ret b => cases h
  | fail e => exact (dropped_fail n e s).trans (dropped_fail n e s).symm
  | step ready f k ih =>
    cases n with
    | zero => rfl
    | succ n => exact ih s h

theorem length_bind_ok {a : α} (h : p.run s = .ok a t) :
    (p >>= g).length s = p.length s + (g a).length t := by
  show (p.bind g).length s = _
  induction p generalizing s with
  | ret b =>
    cases h
    exact (Nat.zero_add _).symm
  | fail e => cases h
  | step ready f k ih =>
    show ((k s).bind g).length (f s) + 1 = (k s).length (f s) + 1 + _
    rw [ih s h, Nat.add_right_comm]

@[simp] theorem length_atomic (m : EStateM ε σ α) (s : σ) : (atomic m).length s = 1 := by
  show Prog.length (match m s with | .ok a _ => ret a | .error e _ => fail e) _ + 1 = 1
  cases m s <;> rfl

end Bind

/-- The program takes `count` steps whenever it succeeds. -/
def Takes (count : Nat) (p : Prog σ ε α) : Prop :=
  ∀ s t a, p.run s = .ok a t → p.length s = count

theorem Takes.pure (a : α) : Takes 0 (pure a : Prog σ ε α) := fun _ _ _ _ => rfl

theorem Takes.throw {count : Nat} (e : ε) : Takes count (throw e : Prog σ ε α) := by
  intro s t a h
  cases h

theorem Takes.atomic (m : EStateM ε σ α) : Takes 1 (atomic m) := fun s _ _ _ => length_atomic m s

theorem Takes.bind {p : Prog σ ε α} {g : α → Prog σ ε β} {m n : Nat} (hp : Takes m p)
    (hg : ∀ a, Takes n (g a)) : Takes (m + n) (p >>= g) := by
  intro s t b h
  rw [run_bind] at h
  obtain ⟨a, u, hrun, hrest⟩ := bind_eq_ok h
  rw [length_bind_ok hrun, hp s u a hrun, hg a u t b hrest]

theorem bind_assoc {γ : Type} (p : Prog σ ε α) (g : α → Prog σ ε β) (h : β → Prog σ ε γ) :
    p >>= g >>= h = p >>= fun a => g a >>= h := by
  show (p.bind g).bind h = p.bind fun a => (g a).bind h
  induction p with
  | ret a => rfl
  | fail e => rfl
  | step ready f k ih => simp only [Prog.bind, ih]

/-! ## Programs on a part of the state -/

/-- A computation on a part of the state. -/
def lift (get : τ → σ) (put : τ → σ → τ) (m : EStateM ε σ α) : EStateM ε τ α := fun t =>
  match m (get t) with
  | .ok a s => .ok a (put t s)
  | .error e s => .error e (put t s)

theorem after_lift (get : τ → σ) (put : τ → σ → τ) (m : EStateM ε σ α) (t : τ) :
    after (lift get put m) t = put t (after m (get t)) := by
  unfold after lift
  cases m (get t) <;> rfl

theorem result_lift (get : τ → σ) (put : τ → σ → τ) (m : EStateM ε σ α) (t : τ) :
    result (lift get put m) t = result m (get t) := by
  unfold result lift
  cases m (get t) <;> rfl

/-- `m'` does on a larger state what `m` does on a part of it. -/
def Tracks (get : τ → σ) (m' : EStateM ε τ α) (m : EStateM ε σ α) : Prop :=
  ∀ t, result m' t = result m (get t) ∧ get (after m' t) = after m (get t)

section Tracks

variable {get : τ → σ} {m' : EStateM ε τ α} {m : EStateM ε σ α}

theorem Tracks.lift {put : τ → σ → τ} (hput : ∀ t s, get (put t s) = s) (m : EStateM ε σ α) :
    Tracks get (lift get put m) m := fun t =>
  ⟨result_lift get put m t, by rw [after_lift, hput]⟩

theorem Tracks.ok (h : Tracks get m' m) {t t' : τ} {a : α} (hr : m' t = .ok a t') :
    m (get t) = .ok a (get t') := by
  obtain ⟨hresult, hafter⟩ := h t
  rw [result_ok hr] at hresult
  rw [after_ok hr] at hafter
  obtain ⟨s, hs⟩ := ok_of_result (congrArg Except.toOption hresult.symm)
  rw [hs, hafter, after_ok hs]

theorem Tracks.error (h : Tracks get m' m) {t t' : τ} {e : ε} (hr : m' t = .error e t') :
    m (get t) = .error e (get t') := by
  obtain ⟨hresult, hafter⟩ := h t
  rw [result_error hr] at hresult
  rw [after_error hr] at hafter
  rw [hafter]
  exact error_of_result hresult.symm

theorem Tracks.bind {f' : α → EStateM ε τ β} {f : α → EStateM ε σ β} (h : Tracks get m' m)
    (hf : ∀ a, Tracks get (f' a) (f a)) : Tracks get (m' >>= f') (m >>= f) := by
  intro t
  cases hr : m' t with
  | ok a t' =>
    unfold result after
    rw [bind_ok hr, bind_ok (h.ok hr)]
    exact hf a t'
  | error e t' =>
    unfold result after
    rw [bind_error hr, bind_error (h.error hr)]
    exact ⟨rfl, rfl⟩

end Tracks

theorem zoom_atomic (get : τ → σ) (put : τ → σ → τ) (m : EStateM ε σ α) :
    (atomic m).zoom get put = atomic (lift get put m) := by
  unfold atomic
  simp only [zoom]
  congr 1
  · funext t
    exact (after_lift get put m t).symm
  · funext t
    unfold lift
    cases m (get t) <;> rfl

theorem zoom_await (get : τ → σ) (put : τ → σ → τ) (ready : σ → Bool) (f : σ → σ) :
    (await ready f : Prog σ ε Unit).zoom get put =
      await (fun t => ready (get t)) fun t => put t (f (get t)) := rfl

theorem zoom_attempt (get : τ → σ) (put : τ → σ → τ) (p : Prog σ ε α) :
    p.attempt.zoom get put = (p.zoom get put).attempt := by
  induction p with
  | ret a => rfl
  | fail e => rfl
  | step ready f k ih => simp only [attempt, zoom, ih]

theorem zoom_bind (get : τ → σ) (put : τ → σ → τ) (p : Prog σ ε α) (g : α → Prog σ ε β) :
    (p >>= g).zoom get put = p.zoom get put >>= fun a => (g a).zoom get put := by
  show (p.bind g).zoom get put = (p.zoom get put).bind _
  induction p with
  | ret a => rfl
  | fail e => rfl
  | step ready f k ih => simp only [Prog.bind, Prog.zoom, ih]

theorem zoom_ensuring (get : τ → σ) (put : τ → σ → τ) (p : Prog σ ε α) (q : Prog σ ε Unit) :
    (p.ensuring q).zoom get put = (p.zoom get put).ensuring (q.zoom get put) := by
  show (p.attempt >>= fun r => q >>= fun _ => _).zoom get put = _
  rw [zoom_bind, zoom_attempt]
  show _ = (p.zoom get put).attempt >>= fun r => q.zoom get put >>= fun _ => _
  congr 1
  funext r
  rw [zoom_bind]
  cases r <;> rfl

end Prog

end Lib
