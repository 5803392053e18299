import ContainerdManager.Lib.Pool

/-!
# Programs that share an invariant

The agreement of programs that owe each other nothing but an invariant.
`Yields I P p` says that `p`, when it finds `I` before each of its steps,
leaves `I` after each, and returns a value that meets `P`. Programs that
yield do so in every interleaving (`Pool.run_yields`), and alone.
-/

namespace Lib

variable {ι σ ε α β : Type} {I : σ → Prop} {P : α → Prop}

namespace Prog

def Yields (I : σ → Prop) (P : α → Prop) : Prog σ ε α → Prop
  | ret a => P a
  | fail _ => True
  | step _ f k => ∀ s, I s → I (f s) ∧ (k s).Yields I P

theorem Yields.pure {a : α} (h : P a) : Yields I P (pure a : Prog σ ε α) := h

theorem Yields.throw (e : ε) : Yields I P (throw e : Prog σ ε α) := trivial

theorem Yields.mono {Q : α → Prop} {p : Prog σ ε α} (h : p.Yields I P) (hP : ∀ a, P a → Q a) :
    p.Yields I Q := by
  induction p with
  | ret a => exact hP a h
  | fail e => trivial
  | step ready f k ih => exact fun s hs => ⟨(h s hs).1, ih s (h s hs).2⟩

theorem Yields.bind {Q : β → Prop} {p : Prog σ ε α} {g : α → Prog σ ε β} (hp : p.Yields I P)
    (hg : ∀ a, P a → (g a).Yields I Q) : (p >>= g).Yields I Q := by
  show (p.bind g).Yields I Q
  induction p with
  | ret a => exact hg a hp
  | fail e => trivial
  | step ready f k ih => exact fun s hs => ⟨(hp s hs).1, ih s (hp s hs).2⟩

theorem Yields.atomic {m : EStateM ε σ α}
    (h : ∀ s, I s → I (after m s) ∧ ∀ a t, m s = .ok a t → P a) :
    (Prog.atomic m).Yields I P := by
  unfold Prog.atomic Yields
  intro s hs
  refine ⟨(h s hs).1, ?_⟩
  beta_reduce
  split
  next a t hm => exact (h s hs).2 a t hm
  next => trivial

/-- Alone. -/
theorem Yields.run {p : Prog σ ε α} (h : p.Yields I P) {s : σ} (hs : I s) :
    I (after p.run s) ∧ ∀ a t, p.run s = .ok a t → P a := by
  induction p generalizing s with
  | ret a =>
    refine ⟨hs, fun b t hr => ?_⟩
    cases hr
    exact h
  | fail e => exact ⟨hs, fun b t hr => by cases hr⟩
  | step ready f k ih => exact ih s (h s hs).2 (h s hs).1

end Prog

namespace Pool

variable [DecidableEq ι] {Φ : ι → α → Prop}

/-- **In every interleaving** the invariant holds, and what has been returned meets its
predicate. -/
theorem run_yields {p t : Pool ι σ ε α} {sched : List ι} (hI : I p.state)
    (hp : ∀ i, (p.progs i).Yields I (Φ i)) (hr : run step p sched = some t) :
    I t.state ∧ ∀ i a, (t.progs i).result? = some (.ok a) → Φ i a := by
  have h : I t.state ∧ ∀ i, (t.progs i).Yields I (Φ i) := by
    refine run_inv (I := fun p : Pool ι σ ε α => I p.state ∧ ∀ i, (p.progs i).Yields I (Φ i))
      ?_ ⟨hI, hp⟩ (along_of_forall (p := fun _ => True) fun _ _ => trivial) hr
    rintro p i p' ⟨hI, hp⟩ - hs
    obtain ⟨ready, f, k, hi, -, rfl⟩ := step_eq_some hs
    have hstep := hp i
    rw [hi] at hstep
    refine ⟨(hstep _ hI).1, fun j => ?_⟩
    show (Function.update p.progs i (k p.state) j).Yields I (Φ j)
    by_cases hj : j = i
    · subst hj
      rw [Function.update_self]
      exact (hstep _ hI).2
    · rw [Function.update_of_ne hj]
      exact hp j
  refine ⟨h.1, fun i a ha => ?_⟩
  have hi := h.2 i
  cases hprog : t.progs i with
  | ret b =>
    rw [hprog] at ha hi
    cases ha
    exact hi
  | fail e => rw [hprog] at ha; cases ha
  | step ready f k => rw [hprog] at ha; cases ha

end Pool

end Lib
