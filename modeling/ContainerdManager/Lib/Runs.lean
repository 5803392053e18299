import Mathlib.Data.List.Basic
import Mathlib.Data.List.Induction

/-!
# Runs of a partial step function

`step s a` is the state after action `a`, or `none` when `a` is not enabled
in `s`. `run` chains actions. `Along ok s acts` says that every step of the
run of `acts` from `s` is taken in a state where `ok` holds of it; `run_inv`
is the induction rule for an invariant that needs such a side condition.
`foldl_prefix_iff` is the rule for a total step, in both directions.
-/

namespace Lib

variable {σ α : Type} (step : σ → α → Option σ)

/-- The state after a sequence of actions, if each is enabled in turn. -/
def run : σ → List α → Option σ
  | s, [] => some s
  | s, a :: acts => (step s a).bind fun s' => run s' acts

/-- Every step of the run is taken in a state that meets `ok`. -/
def Along (ok : σ → α → Prop) : σ → List α → Prop
  | _, [] => True
  | s, a :: acts => ok s a ∧ ∀ s', step s a = some s' → Along ok s' acts

variable {step}

instance Along.decidable {ok : σ → α → Prop} [∀ s a, Decidable (ok s a)] :
    ∀ (s : σ) (acts : List α), Decidable (Along step ok s acts)
  | _, [] => .isTrue trivial
  | s, a :: acts =>
    match h : step s a with
    | none => decidable_of_iff (ok s a) (by simp [Along, h])
    | some s' =>
      haveI : Decidable (Along step ok s' acts) := Along.decidable s' acts
      decidable_of_iff (ok s a ∧ Along step ok s' acts) (by simp [Along, h])

@[simp] theorem run_nil (s : σ) : run step s [] = some s := rfl

theorem run_cons {s t : σ} {a : α} {acts : List α} :
    run step s (a :: acts) = some t ↔ ∃ s', step s a = some s' ∧ run step s' acts = some t := by
  simp [run, Option.bind_eq_some_iff]

theorem run_append {s t : σ} {as bs : List α} :
    run step s (as ++ bs) = some t ↔ ∃ m, run step s as = some m ∧ run step m bs = some t := by
  induction as generalizing s with
  | nil => simp
  | cons a as ih =>
    simp only [List.cons_append, run_cons, ih]
    constructor
    · rintro ⟨s', hs, m, hm, ht⟩
      exact ⟨m, ⟨s', hs, hm⟩, ht⟩
    · rintro ⟨m, ⟨s', hs, hm⟩, ht⟩
      exact ⟨s', hs, m, hm, ht⟩

theorem along_left {ok : σ → α → Prop} {s : σ} {as bs : List α} (h : Along step ok s (as ++ bs)) :
    Along step ok s as := by
  induction as generalizing s with
  | nil => trivial
  | cons a as ih => exact ⟨h.1, fun s' hs => ih (h.2 s' hs)⟩

theorem along_snoc {ok : σ → α → Prop} {s m : σ} {as : List α} {a : α} (h : Along step ok s as)
    (hm : run step s as = some m) (ha : ok m a) : Along step ok s (as ++ [a]) := by
  induction as generalizing s with
  | nil => cases hm; exact ⟨ha, fun _ _ => trivial⟩
  | cons b as ih =>
    obtain ⟨s', hs, hm⟩ := run_cons.mp hm
    refine ⟨h.1, fun s'' hs'' => ?_⟩
    rw [hs] at hs''
    cases hs''
    exact ih (h.2 s' hs) hm

theorem along_mono {ok ok' : σ → α → Prop} (h : ∀ s a, ok s a → ok' s a) {s : σ} {acts : List α}
    (hs : Along step ok s acts) : Along step ok' s acts := by
  induction acts generalizing s with
  | nil => trivial
  | cons a acts ih => exact ⟨h s a hs.1, fun s' hs' => ih (hs.2 s' hs')⟩

theorem along_of_forall {p : α → Prop} {s : σ} {acts : List α} (h : ∀ a ∈ acts, p a) :
    Along step (fun _ a => p a) s acts := by
  induction acts generalizing s with
  | nil => trivial
  | cons a acts ih =>
    exact ⟨h a List.mem_cons_self, fun s' _ => ih fun b hb => h b (List.mem_cons_of_mem a hb)⟩

theorem along_and {ok ok' : σ → α → Prop} {s : σ} {acts : List α} (h : Along step ok s acts)
    (h' : Along step ok' s acts) : Along step (fun s a => ok s a ∧ ok' s a) s acts := by
  induction acts generalizing s with
  | nil => trivial
  | cons a acts ih => exact ⟨⟨h.1, h'.1⟩, fun s' hs => ih (h.2 s' hs) (h'.2 s' hs)⟩

variable (step) in
/-- A run evaluated to a state that meets `p`. -/
theorem run_eval (s : σ) (acts : List α) (p : σ → Prop) [DecidablePred p]
    (h : ((run step s acts).any fun t => decide (p t)) = true) :
    ∃ t, run step s acts = some t ∧ p t := by
  obtain ⟨t, ht, hp⟩ := (Option.any_eq_true _ _).mp h
  exact ⟨t, ht, of_decide_eq_true hp⟩

/-- **Invariant rule**: what every allowed step keeps holds after the run. -/
theorem run_inv {ok : σ → α → Prop} {I : σ → Prop}
    (hstep : ∀ s a s', I s → ok s a → step s a = some s' → I s')
    {s t : σ} {acts : List α} (h0 : I s) (hok : Along step ok s acts)
    (hr : run step s acts = some t) : I t := by
  induction acts generalizing s with
  | nil => cases hr; exact h0
  | cons a acts ih =>
    obtain ⟨s', hs, hr⟩ := run_cons.mp hr
    exact ih (hstep s a s' h0 hok.1 hs) (hok.2 s' hs) hr

/-- A side condition may use the invariant. -/
theorem along_inv {ok : σ → α → Prop} {I : σ → Prop}
    (hstep : ∀ s a s', I s → ok s a → step s a = some s' → I s') {s : σ} {acts : List α}
    (h0 : I s) (hok : Along step ok s acts) : Along step (fun s a => I s ∧ ok s a) s acts := by
  induction acts generalizing s with
  | nil => trivial
  | cons a acts ih =>
    exact ⟨⟨h0, hok.1⟩, fun s' hs => ih (hstep s a s' h0 hok.1 hs) (hok.2 s' hs)⟩

/-- **A total step keeps `I` along a whole run exactly when each of its steps meets `ok`**, where a
step from a state that meets `I` keeps it exactly when it meets `ok`. -/
theorem foldl_prefix_iff (f : σ → α → σ) (I : σ → Prop) (ok : σ → α → Prop) {s : σ}
    {acts : List α} (h0 : I s) (hstep : ∀ done a, done ++ [a] <+: acts → I (done.foldl f s) →
      (I (f (done.foldl f s) a) ↔ ok (done.foldl f s) a)) :
    (∀ done, done <+: acts → I (done.foldl f s)) ↔
      ∀ done a, done ++ [a] <+: acts → ok (done.foldl f s) a := by
  constructor
  · intro h done a hp
    refine (hstep done a hp (h done ((List.prefix_append _ _).trans hp))).mp ?_
    have := h _ hp
    rwa [List.foldl_append] at this
  · intro h done
    induction done using List.reverseRecOn with
    | nil => exact fun _ => h0
    | append_singleton done a ih =>
      intro hp
      rw [List.foldl_append]
      exact (hstep done a hp (ih ((List.prefix_append _ _).trans hp))).mpr (h done a hp)

end Lib
