import ContainerdManager.Lib.Prog
import ContainerdManager.Lib.Runs
import Mathlib.Logic.Function.Basic

/-!
# Programs that take turns

A `Pool` is a shared state and one program for every index; `Pool.step p i`
lets program `i` take its next step. A `Proto` is what the programs agree
on: an invariant of the state and a ghost value, and what each program may
do to them. `Safe` is a proof that one program keeps to the agreement while
all others do; `Pool.run_inv` puts the proofs together for every
interleaving. An assertion about the state is `Stable` for `i` when no other
program can make it false.
-/

namespace Lib

structure Pool (ι σ ε α : Type) where
  state : σ
  progs : ι → Prog σ ε α

variable {ι σ ε α β γ : Type}

namespace Pool

variable [DecidableEq ι]

/-- Program `i` takes its next step, if it has one and that step is ready. -/
def step (p : Pool ι σ ε α) (i : ι) : Option (Pool ι σ ε α) :=
  match p.progs i with
  | .ret _ => none
  | .fail _ => none
  | .step ready f k =>
    if ready p.state then
      some { state := f p.state, progs := Function.update p.progs i (k p.state) }
    else none

theorem step_eq_some {p p' : Pool ι σ ε α} {i : ι} (h : p.step i = some p') :
    ∃ ready f k, p.progs i = .step ready f k ∧ ready p.state = true ∧
      p' = { state := f p.state, progs := Function.update p.progs i (k p.state) } := by
  unfold step at h
  split at h
  · cases h
  · cases h
  · rename_i ready f k hp
    split at h
    · rename_i hr
      exact ⟨ready, f, k, hp, hr, (Option.some.inj h).symm⟩
    · cases h

/-- Every program has returned. -/
def Done (p : Pool ι σ ε α) : Prop := ∀ i, ∃ r, (p.progs i).result? = some r

end Pool

/-! ## Agreements -/

structure Proto (ι σ γ : Type) where
  inv : σ → γ → Prop
  /-- What program `i` may do in one step. -/
  guar : ι → σ → γ → σ → γ → Prop
  /-- The steps of program `i` the agreement is about. -/
  allowed : ι → σ → σ → Prop := fun _ _ _ => True

variable (G : Proto ι σ γ)

/-- No other program makes `P` false. -/
def Stable (i : ι) (P : σ → γ → Prop) : Prop :=
  ∀ j, j ≠ i → ∀ s c s' c', G.inv s c → G.guar j s c s' c' → G.inv s' c' → P s c → P s' c'

theorem Stable.and_const {G : Proto ι σ γ} {i : ι} {P : σ → γ → Prop} (h : Stable G i P)
    (p : Prop) :
    Stable G i fun s c => p ∧ P s c :=
  fun j hj s c s' c' hi hg hi' hP => ⟨hP.1, h j hj s c s' c' hi hg hi' hP.2⟩

theorem Stable.never {G : Proto ι σ γ} {i : ι} : Stable G i fun _ _ => False :=
  fun _ _ _ _ _ _ _ _ _ h => h

/-- From a state where `P` holds, `p` keeps to the agreement and returns with `Q`. -/
def Safe (i : ι) (Q : Except ε α → σ → γ → Prop) : (σ → γ → Prop) → Prog σ ε α → Prop
  | P, .ret a => ∀ s c, G.inv s c → P s c → Q (.ok a) s c
  | P, .fail e => ∀ s c, G.inv s c → P s c → Q (.error e) s c
  | P, .step ready f k => ∀ s c, G.inv s c → P s c → ready s = true → G.allowed i s (f s) →
    ∃ c' P', G.inv (f s) c' ∧ G.guar i s c (f s) c' ∧ Stable G i P' ∧ P' (f s) c' ∧
      Safe i Q P' (k s)

variable {G} {i : ι} {P P' : σ → γ → Prop} {Q Q' : Except ε α → σ → γ → Prop}

/-- What holds after a step that answers with a value or with a code of its own. -/
def Replied {δ : Type} (good bad : σ → γ → Prop) : Except ε (Except δ α) → σ → γ → Prop
  | .ok (.ok _) => good
  | .ok (.error _) => bad
  | .error _ => fun _ _ => False

/-- What holds at the end, by the outcome. -/
def Ends (good : α → σ → γ → Prop) (bad : σ → γ → Prop) : Except ε α → σ → γ → Prop
  | .ok a => good a
  | .error _ => bad

theorem Stable.replied {δ : Type} {good bad : σ → γ → Prop} (hg : Stable G i good)
    (hb : Stable G i bad) (r : Except ε (Except δ α)) : Stable G i (Replied good bad r) := by
  rcases r with e | code | a
  · exact .never
  · exact hb
  · exact hg

theorem Safe.pre {p : Prog σ ε α} (h : Safe G i Q P p)
    (hP : ∀ s c, G.inv s c → P' s c → P s c) : Safe G i Q P' p := by
  cases p with
  | ret a => exact fun s c hi hp => h s c hi (hP s c hi hp)
  | fail e => exact fun s c hi hp => h s c hi (hP s c hi hp)
  | step ready f k => exact fun s c hi hp => h s c hi (hP s c hi hp)

/-- A program that is never reached. -/
theorem Safe.unreachable {p : Prog σ ε α} (h : ∀ s c, G.inv s c → ¬ P s c) : Safe G i Q P p := by
  cases p with
  | ret a => exact fun s c hi hp => absurd hp (h s c hi)
  | fail e => exact fun s c hi hp => absurd hp (h s c hi)
  | step ready f k => exact fun s c hi hp => absurd hp (h s c hi)

theorem Safe.post {p : Prog σ ε α} (h : Safe G i Q P p)
    (hQ : ∀ r s c, G.inv s c → Q r s c → Q' r s c) : Safe G i Q' P p := by
  induction p generalizing P with
  | ret a => exact fun s c hi hp => hQ _ s c hi (h s c hi hp)
  | fail e => exact fun s c hi hp => hQ _ s c hi (h s c hi hp)
  | step ready f k ih =>
    intro s c hi hp hr ha
    obtain ⟨c', P1, hi', hg, hst, hp', hk⟩ := h s c hi hp hr ha
    exact ⟨c', P1, hi', hg, hst, hp', ih s hk⟩

theorem Safe.pure {a : α} (h : ∀ s c, G.inv s c → P s c → Q (.ok a) s c) :
    Safe G i Q P (pure a : Prog σ ε α) := h

theorem Safe.throw {e : ε} (h : ∀ s c, G.inv s c → P s c → Q (.error e) s c) :
    Safe G i Q P (throw e : Prog σ ε α) := h

/-- **Sequencing**: what the first program returns with is what the second starts from. -/
theorem Safe.bind {p : Prog σ ε α} {g : α → Prog σ ε β} {R : Except ε β → σ → γ → Prop}
    (hp : Safe G i Q P p) (hg : ∀ a, Safe G i R (Q (.ok a)) (g a))
    (he : ∀ e s c, G.inv s c → Q (.error e) s c → R (.error e) s c) : Safe G i R P (p >>= g) := by
  show Safe G i R P (p.bind g)
  induction p generalizing P with
  | ret a => exact (hg a).pre hp
  | fail e => exact fun s c hi h => he e s c hi (hp s c hi h)
  | step ready f k ih =>
    intro s c hi h hr ha
    obtain ⟨c', P1, hi', hgu, hst, hp', hk⟩ := hp s c hi h hr ha
    exact ⟨c', P1, hi', hgu, hst, hp', ih s hk⟩

theorem Safe.attempt {p : Prog σ ε α} {R : Except ε (Except ε α) → σ → γ → Prop}
    (hp : Safe G i Q P p) (hR : ∀ r s c, G.inv s c → Q r s c → R (.ok r) s c) :
    Safe G i R P p.attempt := by
  induction p generalizing P with
  | ret a => exact fun s c hi h => hR _ s c hi (hp s c hi h)
  | fail e => exact fun s c hi h => hR _ s c hi (hp s c hi h)
  | step ready f k ih =>
    intro s c hi h hr ha
    obtain ⟨c', P1, hi', hgu, hst, hp', hk⟩ := hp s c hi h hr ha
    exact ⟨c', P1, hi', hgu, hst, hp', ih s hk⟩

/-- One step, whose outcome says what holds after it. -/
theorem Safe.atomic {m : EStateM ε σ α} (hst : ∀ r, Stable G i (Q r))
    (h : ∀ s c, G.inv s c → P s c → G.allowed i s (after m s) →
      ∃ c', G.inv (after m s) c' ∧ G.guar i s c (after m s) c' ∧ Q (result m s) (after m s) c') :
    Safe G i Q P (Prog.atomic m) := by
  intro s c hi hp _ ha
  obtain ⟨c', hi', hg, hq⟩ := h s c hi hp ha
  refine ⟨c', Q (result m s), hi', hg, hst _, hq, ?_⟩
  cases hm : m s with
  | ok a t =>
    rw [result_ok hm]
    simp only [hm]
    exact fun s c _ hq => hq
  | error e t =>
    rw [result_error hm]
    simp only [hm]
    exact fun s c _ hq => hq

/-- A step that waits. -/
theorem Safe.await {ready : σ → Bool} {f : σ → σ} {Q : Except ε Unit → σ → γ → Prop}
    (hst : Stable G i (Q (.ok ())))
    (h : ∀ s c, G.inv s c → P s c → ready s = true → G.allowed i s (f s) →
      ∃ c', G.inv (f s) c' ∧ G.guar i s c (f s) c' ∧ Q (.ok ()) (f s) c') :
    Safe G i Q P (Prog.await ready f : Prog σ ε Unit) := by
  intro s c hi hp hr ha
  obtain ⟨c', hi', hg, hq⟩ := h s c hi hp hr ha
  exact ⟨c', Q (.ok ()), hi', hg, hst, hq, fun s c _ hq => hq⟩

/-- **Frame**: steps within `R` keep an assertion that `R` keeps. -/
theorem Safe.steps {R : σ → σ → Prop} {p : Prog σ ε α} (hp : p.Steps R) (hst : Stable G i P)
    (h : ∀ s c s', G.inv s c → P s c → G.allowed i s s' → R s s' →
      ∃ c', G.inv s' c' ∧ G.guar i s c s' c' ∧ P s' c') :
    Safe G i (fun _ => P) P p := by
  induction p with
  | ret a => exact fun _ _ _ hp => hp
  | fail e => exact fun _ _ _ hp => hp
  | step ready f k ih =>
    intro s c hi hps _ ha
    obtain ⟨c', hi', hg, hp'⟩ := h s c _ hi hps ha (hp s).1
    exact ⟨c', P, hi', hg, hst, hp', ih s (hp s).2⟩

/-- The same, with what is known of the value returned. -/
theorem Safe.returning {R : σ → σ → Prop} {φ : α → Prop} {p : Prog σ ε α} (hp : p.Steps R)
    (hφ : p.Returns φ) (hst : Stable G i P)
    (h : ∀ s c s', G.inv s c → P s c → G.allowed i s s' → R s s' →
      ∃ c', G.inv s' c' ∧ G.guar i s c s' c' ∧ P s' c') :
    Safe G i (fun r s c => P s c ∧ ∀ a, r = .ok a → φ a) P p := by
  induction p with
  | ret a =>
    intro s c _ hs
    refine ⟨hs, fun b hb => ?_⟩
    cases hb
    exact hφ
  | fail e => exact fun s c _ hs => ⟨hs, fun b hb => by cases hb⟩
  | step ready f k ih =>
    intro s c hi hps _ ha
    obtain ⟨c', hi', hg, hp'⟩ := h s c _ hi hps ha (hp s).1
    exact ⟨c', P, hi', hg, hst, hp', ih s (hp s).2 (hφ s)⟩

/-- The same program, with what is known of its errors. -/
theorem Safe.throws {φ : ε → Prop} {p : Prog σ ε α} (h : Safe G i Q P p) (hφ : p.Throws φ) :
    Safe G i (fun r s c => Q r s c ∧ ∀ e, r = .error e → φ e) P p := by
  induction p generalizing P with
  | ret a => exact fun s c hi hp => ⟨h s c hi hp, nofun⟩
  | fail e =>
    refine fun s c hi hp => ⟨h s c hi hp, fun e' he => ?_⟩
    cases he
    exact hφ
  | step ready f k ih =>
    intro s c hi hp hr ha
    obtain ⟨c', P1, hi', hg, hst, hp', hk⟩ := h s c hi hp hr ha
    exact ⟨c', P1, hi', hg, hst, hp', ih s hk (hφ s)⟩

/-- The same program from states that meet `M`, which no step makes false. -/
theorem Safe.keeping {M : σ → Prop} {p : Prog σ ε α} (h : Safe G i Q P p)
    (hM : ∀ j s c s' c', G.guar j s c s' c' → M s → M s') :
    Safe G i (fun r s c => Q r s c ∧ M s) (fun s c => P s c ∧ M s) p := by
  induction p generalizing P with
  | ret a => exact fun s c hi hp => ⟨h s c hi hp.1, hp.2⟩
  | fail e => exact fun s c hi hp => ⟨h s c hi hp.1, hp.2⟩
  | step ready f k ih =>
    intro s c hi hp hr ha
    obtain ⟨c', P1, hi', hg, hst, hp', hk⟩ := h s c hi hp.1 hr ha
    refine ⟨c', fun s c => P1 s c ∧ M s, hi', hg, ?_, ⟨hp', hM i _ _ _ _ hg hp.2⟩, ih s hk⟩
    exact fun j hj s c s' c' hi hg hi' hP =>
      ⟨hst j hj s c s' c' hi hg hi' hP.1, hM j s c s' c' hg hP.2⟩

/-- Whatever the outcome of `p`, `q` runs next. -/
theorem Safe.ensuring {p : Prog σ ε α} {q : Prog σ ε Unit} {R : Except ε α → σ → γ → Prop}
    (hp : Safe G i Q P p) (hq : ∀ r, Safe G i (fun _ => R r) (Q r) q)
    (hR : ∀ r e s c, G.inv s c → R r s c → R (.error e) s c) : Safe G i R P (p.ensuring q) := by
  refine .bind (Q := fun r' s c => ∃ r, r' = .ok r ∧ Q r s c)
    (hp.attempt fun r s c _ h => ⟨r, rfl, h⟩) (fun r => ?_) (fun e s c _ h => ?_)
  · refine .bind (Q := fun _ => R r) ((hq r).pre ?_) (fun _ => ?_)
      (fun e s c hi h => hR r e s c hi h)
    · rintro s c - ⟨r', hr, h⟩
      cases hr
      exact h
    · cases r <;> exact fun s c _ h => h
  · obtain ⟨r, hr, -⟩ := h
    cases hr

/-- The same for a `q` that does not fail, which changes the outcome no more. -/
theorem Safe.ensuring_ok {p : Prog σ ε α} {q : Prog σ ε Unit} {R : Except ε α → σ → γ → Prop}
    (hp : Safe G i Q P p)
    (hq : ∀ r, Safe G i (fun r' s c => (∃ u, r' = .ok u) ∧ R r s c) (Q r) q) :
    Safe G i R P (p.ensuring q) := by
  refine .bind (Q := fun r' s c => ∃ r, r' = .ok r ∧ Q r s c)
    (hp.attempt fun r s c _ h => ⟨r, rfl, h⟩) (fun r => ?_) (fun e s c _ h => ?_)
  · refine .bind ((hq r).pre ?_) (fun _ => ?_) fun e s c _ h => ?_
    · rintro s c - ⟨r', hr, h⟩
      cases hr
      exact h
    · cases r <;> exact fun s c _ h => h.2
    · obtain ⟨u, hu⟩ := h.1
      cases hu
  · obtain ⟨r, hr, -⟩ := h
    cases hr

/-! ## All together -/

namespace Pool

variable [DecidableEq ι] (G) (Q : ι → Except ε α → σ → γ → Prop)

/-- Program `i` has a proof from an assertion that holds now. -/
def Keeping (p : Pool ι σ ε α) (c : γ) (i : ι) : Prop :=
  ∃ P, Stable G i P ∧ P p.state c ∧ Safe G i (Q i) P (p.progs i)

/-- The agreement holds and every program keeps to it. -/
def Agrees (p : Pool ι σ ε α) (c : γ) : Prop := G.inv p.state c ∧ ∀ i, p.Keeping G Q c i

variable {G Q}

/-- One step keeps the agreement and is within what its program may do. -/
theorem Agrees.step {p p' : Pool ι σ ε α} {c : γ} {i : ι} (h : p.Agrees G Q c)
    (hs : p.step i = some p') (ha : G.allowed i p.state p'.state) :
    ∃ c', p'.Agrees G Q c' ∧ G.guar i p.state c p'.state c' := by
  obtain ⟨ready, f, k, hp, hr, rfl⟩ := step_eq_some hs
  obtain ⟨P, hst, hP, hsafe⟩ := h.2 i
  rw [hp] at hsafe
  obtain ⟨c', P', hi', hg, hst', hP', hk⟩ := hsafe _ _ h.1 hP hr ha
  refine ⟨c', ⟨hi', fun j => ?_⟩, hg⟩
  by_cases hj : j = i
  · subst hj
    refine ⟨P', hst', hP', ?_⟩
    show Safe G j (Q j) P' (Function.update p.progs j (k p.state) j)
    rw [Function.update_self]
    exact hk
  · obtain ⟨Pj, hstj, hPj, hj'⟩ := h.2 j
    refine ⟨Pj, hstj, hstj i (Ne.symm hj) _ _ _ _ h.1 hg hi' hPj, ?_⟩
    show Safe G j (Q j) Pj (Function.update p.progs i (k p.state) j)
    rw [Function.update_of_ne hj]
    exact hj'

/-- A schedule whose steps the agreement is about. -/
def Allowed (G : Proto ι σ γ) (p : Pool ι σ ε α) (sched : List ι) : Prop :=
  Along step (fun p i => ∀ p', p.step i = some p' → G.allowed i p.state p'.state) p sched

theorem allowed_of_forall (h : ∀ i s s', G.allowed i s s') (p : Pool ι σ ε α) (sched : List ι) :
    p.Allowed G sched := by
  induction sched generalizing p with
  | nil => trivial
  | cons i sched ih => exact ⟨fun _ _ => h _ _ _, fun p' _ => ih p'⟩

/-- What every step keeps, and what it gives, along a schedule. -/
theorem along_of_steps {R : σ → σ → Prop} {I : σ → Prop} {ok : ι → σ → σ → Prop}
    (hI : ∀ s s', I s → R s s' → I s') (hok : ∀ i s s', I s → ok i s s') {p : Pool ι σ ε α}
    (hp : ∀ i, (p.progs i).Steps R) (h : I p.state) (sched : List ι) :
    Along step (fun p i => ∀ p', p.step i = some p' → ok i p.state p'.state) p sched := by
  induction sched generalizing p with
  | nil => trivial
  | cons i sched ih =>
    refine ⟨fun p' _ => hok i _ _ h, fun p' hs => ?_⟩
    obtain ⟨ready, f, k, hi, -, rfl⟩ := step_eq_some hs
    have hstep := hp i
    rw [hi] at hstep
    refine ih (fun j => ?_) (hI _ _ h (hstep _).1)
    show (Function.update p.progs i (k p.state) j).Steps R
    by_cases hj : j = i
    · subst hj
      rw [Function.update_self]
      exact (hstep _).2
    · rw [Function.update_of_ne hj]
      exact hp j

/-- **Rely and guarantee**: programs that keep to the agreement one by one keep to it in every
interleaving, together with what every permitted step keeps of the ghost value. -/
theorem run_agrees_with {J : γ → Prop} (hJ : ∀ i s c s' c', G.guar i s c s' c' → J c → J c')
    {p t : Pool ι σ ε α} {c : γ} {sched : List ι} (h : p.Agrees G Q c) (hc : J c)
    (ha : p.Allowed G sched) (hr : run step p sched = some t) : ∃ c', t.Agrees G Q c' ∧ J c' := by
  refine run_inv (I := fun p => ∃ c', p.Agrees G Q c' ∧ J c') ?_ ⟨c, h, hc⟩ ha hr
  rintro p i p' ⟨c, h, hc⟩ hok hs
  obtain ⟨c', h', hg⟩ := h.step hs (hok p' hs)
  exact ⟨c', h', hJ _ _ _ _ _ hg hc⟩

/-- The same for what the steps of the scheduled programs keep, when all steps are permitted. -/
theorem run_agrees_by {J : γ → Prop} {p t : Pool ι σ ε α} {c : γ} {sched : List ι}
    (hall : ∀ i s s', G.allowed i s s')
    (hJ : ∀ i ∈ sched, ∀ s c s' c', G.guar i s c s' c' → J c → J c') (h : p.Agrees G Q c)
    (hc : J c) (hr : run step p sched = some t) : ∃ c', t.Agrees G Q c' ∧ J c' := by
  refine run_inv (I := fun p => ∃ c, p.Agrees G Q c ∧ J c) ?_ ⟨c, h, hc⟩
    (along_of_forall fun i hi => hi) hr
  rintro p i p' ⟨c, h, hc⟩ hi hs
  obtain ⟨c', h', hg⟩ := h.step hs (hall i _ _)
  exact ⟨c', h', hJ i hi _ _ _ _ hg hc⟩

theorem run_agrees {p t : Pool ι σ ε α} {c : γ} {sched : List ι} (h : p.Agrees G Q c)
    (ha : p.Allowed G sched) (hr : run step p sched = some t) : ∃ c', t.Agrees G Q c' := by
  obtain ⟨c', h', -⟩ :=
    run_agrees_with (J := fun _ => True) (fun _ _ _ _ _ _ _ => trivial) h trivial ha hr
  exact ⟨c', h'⟩

omit [DecidableEq ι] in
/-- A program that has returned did so with its postcondition. -/
theorem Agrees.returned {p : Pool ι σ ε α} {c : γ} {i : ι} {r : Except ε α} (h : p.Agrees G Q c)
    (hr : (p.progs i).result? = some r) : Q i r p.state c := by
  obtain ⟨P, -, hP, hsafe⟩ := h.2 i
  cases hp : p.progs i with
  | ret a =>
    rw [hp] at hr hsafe
    cases hr
    exact hsafe _ _ h.1 hP
  | fail e =>
    rw [hp] at hr hsafe
    cases hr
    exact hsafe _ _ h.1 hP
  | step ready f k => rw [hp] at hr; cases hr

end Pool

end Lib
