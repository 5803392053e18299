import ContainerdManager.Lib.Pool

/-!
# Answers of programs that look

Two rules for a program that looks at a shared state again and again, among
others that change it. `Shows E K p`: every outcome of `p` is one of `K`, or
shows in a state that `p` takes a step in; in every interleaving such a step
can be pointed to (`Pool.run_shows`). `Soon I R n p`: if every state `p`
takes a step in meets `I`, then `p` comes to an outcome that meets `R` in `n`
steps of its own (`Pool.run_soon`). `Throughout Φ p` says that `Φ` holds of
what is left of `p` for as long as it has not returned.
-/

namespace Lib

variable {ι σ ε α β : Type}

namespace Prog

def Shows (E : σ → Except ε α → Prop) : (Except ε α → Prop) → Prog σ ε α → Prop
  | K, ret a => K (.ok a)
  | K, fail e => K (.error e)
  | K, step _ _ k => ∀ s, Shows E (fun r => K r ∨ E s r) (k s)

def Soon (I : σ → Prop) (R : Except ε α → Prop) : Nat → Prog σ ε α → Prop
  | _, ret a => R (.ok a)
  | _, fail e => R (.error e)
  | 0, step _ _ _ => False
  | n + 1, step _ _ k => ∀ s, I s → Soon I R n (k s)

def Throughout (Φ : Prog σ ε α → Prop) : Prog σ ε α → Prop
  | ret _ => True
  | fail _ => True
  | step ready f k => Φ (step ready f k) ∧ ∀ s, Throughout Φ (k s)

/-! ## Outcomes that show -/

section Shows

variable {E : σ → Except ε α → Prop} {K K' : Except ε α → Prop}

theorem Shows.mono {p : Prog σ ε α} (h : p.Shows E K) (hK : ∀ r, K r → K' r) : p.Shows E K' := by
  induction p generalizing K K' with
  | ret a => exact hK _ h
  | fail e => exact hK _ h
  | step ready f k ih => exact fun s => ih s (h s) fun r hr => hr.imp (hK r) id

theorem Shows.atomic {m : EStateM ε σ α} (h : ∀ s, K (result m s) ∨ E s (result m s)) :
    (Prog.atomic m).Shows E K := by
  unfold Prog.atomic Shows
  intro s
  have hs := h s
  beta_reduce
  split
  next a t hm => rwa [result_ok hm] at hs
  next e t hm => rwa [result_error hm] at hs

theorem Shows.returned {p : Prog σ ε α} (h : p.Shows E K) {r : Except ε α}
    (hr : p.result? = some r) : K r := by
  cases p with
  | ret a => cases hr; exact h
  | fail e => cases hr; exact h
  | step ready f k => cases hr

/-- A value that showed in a state of `p` may be used to show what follows. -/
theorem Shows.bind {F : σ → Except ε β → Prop} {L : Except ε β → Prop} {p : Prog σ ε β}
    {g : β → Prog σ ε α} (hp : p.Shows F L) (hL : ∀ b, L (.ok b) → (g b).Shows E K)
    (hE : ∀ s b, F s (.ok b) → (g b).Shows E fun r => K r ∨ E s r)
    (hLe : ∀ e, L (.error e) → K (.error e)) (hEe : ∀ s e, F s (.error e) → E s (.error e)) :
    (p >>= g).Shows E K := by
  show (p.bind g).Shows E K
  induction p generalizing K L with
  | ret b => exact hL b hp
  | fail e => exact hLe e hp
  | step ready f k ih =>
    intro s
    refine ih s (hp s) (fun b hb => ?_) (fun s' b hb => ?_) fun e he => he.imp (hLe e) (hEe s e)
    · rcases hb with hb | hb
      · exact (hL b hb).mono fun _ => .inl
      · exact hE s b hb
    · exact (hE s' b hb).mono fun r hr => hr.imp .inl id

theorem Shows.attempt {F : σ → Except ε (Except ε α) → Prop} {L : Except ε (Except ε α) → Prop}
    {p : Prog σ ε α} (hp : p.Shows E K) (hK : ∀ r, K r → L (.ok r))
    (hE : ∀ s r, E s r → F s (.ok r)) : p.attempt.Shows F L := by
  induction p generalizing K L with
  | ret a => exact hK _ hp
  | fail e => exact hK _ hp
  | step ready f k ih => exact fun s => ih s (hp s) fun r hr => hr.imp (hK r) (hE s r)

end Shows

/-! ## Outcomes that are near -/

section Soon

variable {I : σ → Prop} {R : Except ε α → Prop} {n : Nat}

theorem Soon.returned {p : Prog σ ε α} (h : p.Soon I R n) {r : Except ε α}
    (hr : p.result? = some r) : R r := by
  cases p with
  | ret a => cases hr; cases n <;> exact h
  | fail e => cases hr; cases n <;> exact h
  | step ready f k => cases hr

theorem Soon.pure {a : α} (h : R (.ok a)) : (pure a : Prog σ ε α).Soon I R n := by
  cases n <;> exact h

/-- With steps to spare. -/
theorem Soon.mono {p : Prog σ ε α} (h : p.Soon I R n) {n' : Nat} (hn : n ≤ n') :
    p.Soon I R n' := by
  induction p generalizing n n' with
  | ret a => cases n <;> cases n' <;> exact h
  | fail e => cases n <;> cases n' <;> exact h
  | step ready f k ih =>
    cases n with
    | zero => exact h.elim
    | succ n =>
      cases n' with
      | zero => exact absurd hn (Nat.not_succ_le_zero n)
      | succ n' => exact fun s hs => ih s (h s hs) (Nat.le_of_succ_le_succ hn)

theorem Soon.atomic {m : EStateM ε σ α} (h : ∀ s, I s → R (result m s)) :
    (Prog.atomic m).Soon I R 1 := by
  intro s hs
  have hr := h s hs
  beta_reduce
  split
  next a t hm => rwa [result_ok hm] at hr
  next e t hm => rwa [result_error hm] at hr

theorem Soon.bind {L : Except ε β → Prop} {m : Nat} {p : Prog σ ε β} {g : β → Prog σ ε α}
    (hp : p.Soon I L m) (hg : ∀ b, L (.ok b) → (g b).Soon I R n)
    (he : ∀ e, L (.error e) → R (.error e)) : (p >>= g).Soon I R (m + n) := by
  show (p.bind g).Soon I R (m + n)
  induction p generalizing m with
  | ret b => exact (hg b (hp.returned rfl)).mono (Nat.le_add_left n m)
  | fail e =>
    have hR := he e (hp.returned rfl)
    show (fail e).Soon I R (m + n)
    cases m + n <;> exact hR
  | step ready f k ih =>
    cases m with
    | zero => exact hp.elim
    | succ m =>
      rw [Nat.succ_add]
      exact fun s hs => ih s (hp s hs)

theorem Soon.attempt {L : Except ε (Except ε α) → Prop} {p : Prog σ ε α} (hp : p.Soon I R n)
    (h : ∀ r, R r → L (.ok r)) : p.attempt.Soon I L n := by
  induction p generalizing n with
  | ret a => exact .pure (h _ (hp.returned rfl))
  | fail e => exact .pure (h _ (hp.returned rfl))
  | step ready f k ih =>
    cases n with
    | zero => exact hp.elim
    | succ n => exact fun s hs => ih s (hp s hs)

end Soon

section Throughout

variable {Φ : Prog σ ε α → Prop}

theorem Throughout.now {p : Prog σ ε α} (h : p.Throughout Φ) (hp : p.result? = none) : Φ p := by
  cases p with
  | ret a => cases hp
  | fail e => cases hp
  | step ready f k => exact h.1

theorem Throughout.atomic {m : EStateM ε σ α} (h : Φ (Prog.atomic m)) :
    (Prog.atomic m).Throughout Φ := by
  refine ⟨h, fun s => ?_⟩
  beta_reduce
  split <;> trivial

theorem Throughout.bind {Ψ : Prog σ ε β → Prop} {p : Prog σ ε β} {g : β → Prog σ ε α}
    (hp : p.Throughout Ψ) (hΨ : ∀ q, Ψ q → Φ (q >>= g)) (hg : ∀ b, (g b).Throughout Φ) :
    (p >>= g).Throughout Φ := by
  show (p.bind g).Throughout Φ
  induction p with
  | ret b => exact hg b
  | fail e => trivial
  | step ready f k ih => exact ⟨hΨ _ hp.1, fun s => ih s (hp.2 s)⟩

theorem Throughout.attempt {Ψ : Prog σ ε (Except ε α) → Prop} {p : Prog σ ε α}
    (hp : p.Throughout Φ) (h : ∀ q, Φ q → Ψ q.attempt) : p.attempt.Throughout Ψ := by
  induction p with
  | ret a => trivial
  | fail e => trivial
  | step ready f k ih => exact ⟨h _ hp.1, fun s => ih s (hp.2 s)⟩

end Throughout

end Prog

/-! ## In every interleaving -/

namespace Pool

open Prog

variable [DecidableEq ι] {p t : Pool ι σ ε α} {i : ι} {sched : List ι}

/-- **An outcome shows** in a state that the program took a step in. -/
theorem run_shows {E : σ → Except ε α → Prop} {K : Except ε α → Prop}
    (h : (p.progs i).Shows E K) (hr : run step p sched = some t) {r : Except ε α}
    (hres : (t.progs i).result? = some r) :
    K r ∨ ∃ before later q, sched = before ++ i :: later ∧ run step p before = some q ∧
      E q.state r := by
  induction sched generalizing p K with
  | nil =>
    cases hr
    exact .inl (h.returned hres)
  | cons j sched ih =>
    obtain ⟨p', hs, hrest⟩ := run_cons.mp hr
    obtain ⟨ready, f, k, hj, -, hp'⟩ := step_eq_some hs
    have hlater : (∃ before later q, sched = before ++ i :: later ∧
        run step p' before = some q ∧ E q.state r) →
        ∃ before later q, j :: sched = before ++ i :: later ∧ run step p before = some q ∧
          E q.state r := by
      rintro ⟨before, later, q, rfl, hq, hE⟩
      exact ⟨j :: before, later, q, rfl, run_cons.mpr ⟨p', hs, hq⟩, hE⟩
    by_cases hij : i = j
    · subst hij
      rw [hj] at h
      have hk : (p'.progs i).Shows E fun r => K r ∨ E p.state r := by
        rw [hp']
        show (Function.update p.progs i (k p.state) i).Shows E _
        rw [Function.update_self]
        exact h p.state
      rcases ih hk hrest with (hK | hE) | hfound
      · exact .inl hK
      · exact .inr ⟨[], sched, p, rfl, run_nil p, hE⟩
      · exact .inr (hlater hfound)
    · have hk : (p'.progs i).Shows E K := by
        rw [hp']
        show (Function.update p.progs j (k p.state) i).Shows E K
        rw [Function.update_of_ne hij]
        exact h
      exact (ih hk hrest).imp id hlater

theorem run_throughout {Φ : Prog σ ε α → Prop} (h : (p.progs i).Throughout Φ)
    (hr : run step p sched = some t) : (t.progs i).Throughout Φ := by
  refine run_inv (I := fun p : Pool ι σ ε α => (p.progs i).Throughout Φ) (fun p j p' h _ hs => ?_)
    h (along_of_forall (p := fun _ => True) fun _ _ => trivial) hr
  obtain ⟨ready, f, k, hj, -, rfl⟩ := step_eq_some hs
  show (Function.update p.progs j (k p.state) i).Throughout Φ
  by_cases hij : i = j
  · subst hij
    rw [Function.update_self]
    rw [hj] at h
    exact h.2 p.state
  · rw [Function.update_of_ne hij]
    exact h

/-- **An outcome that is near is reached** in so many steps of the program. -/
theorem run_soon {I : σ → Prop} {R : Except ε α → Prop} {n : Nat} (h : (p.progs i).Soon I R n)
    (hI : Along step (fun p j => j = i → I p.state) p sched) (hr : run step p sched = some t) :
    (∀ r, (t.progs i).result? = some r → R r) ∧
      ((t.progs i).result? = none → sched.count i < n) := by
  induction sched generalizing p n with
  | nil =>
    cases hr
    refine ⟨fun r => h.returned, fun hres => ?_⟩
    cases n with
    | zero =>
      cases hp : t.progs i with
      | step ready f k => rw [hp] at h; exact h.elim
      | ret a => rw [hp] at hres; cases hres
      | fail e => rw [hp] at hres; cases hres
    | succ n => exact Nat.succ_pos n
  | cons j sched ih =>
    obtain ⟨p', hs, hrest⟩ := run_cons.mp hr
    obtain ⟨ready, f, k, hj, -, hp'⟩ := step_eq_some hs
    by_cases hij : j = i
    · subst hij
      rw [hj] at h
      cases n with
      | zero => exact h.elim
      | succ n =>
        have hk : (p'.progs j).Soon I R n := by
          rw [hp']
          show (Function.update p.progs j (k p.state) j).Soon I R n
          rw [Function.update_self]
          exact h p.state (hI.1 rfl)
        obtain ⟨hsome, hnone⟩ := ih hk (hI.2 p' hs) hrest
        refine ⟨hsome, fun hres => ?_⟩
        rw [List.count_cons_self]
        exact Nat.succ_lt_succ (hnone hres)
    · have hk : (p'.progs i).Soon I R n := by
        rw [hp']
        show (Function.update p.progs j (k p.state) i).Soon I R n
        rw [Function.update_of_ne (Ne.symm hij)]
        exact h
      rw [List.count_cons_of_ne hij]
      exact ih hk (hI.2 p' hs) hrest

end Pool

end Lib
