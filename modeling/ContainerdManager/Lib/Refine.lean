import ContainerdManager.Lib.Runs

/-!
# Runs of a specification

A specification is a relation: `R a t u` says that action `a` may lead from
`t` to `u`. `Path R t as u` chains actions. `path_of_run` is the rule of
refinement: if every step of a partial step function, taken in a state that
meets an invariant, is allowed by the relation between what the states are
abstracted to, then so is every run. `Path.inv` is the induction rule for the
paths themselves.
-/

namespace Lib

variable {σ τ α : Type}

inductive Path (R : α → τ → τ → Prop) : τ → List α → τ → Prop where
  | nil (t : τ) : Path R t [] t
  | cons {t u v : τ} {a : α} {acts : List α} : R a t u → Path R u acts v → Path R t (a :: acts) v

variable {R : α → τ → τ → Prop}

/-- **Invariant rule**: what every action of the path keeps holds at its end. -/
theorem Path.inv {I : τ → Prop} {t u : τ} {acts : List α} (h : Path R t acts u) (h0 : I t)
    (hstep : ∀ a ∈ acts, ∀ t u, I t → R a t u → I u) : I u := by
  induction h with
  | nil t => exact h0
  | cons hs _ ih =>
    exact ih (hstep _ List.mem_cons_self _ _ h0 hs)
      fun a ha => hstep a (List.mem_cons_of_mem _ ha)

/-- One action more. -/
theorem Path.concat {t u v : τ} {acts : List α} {a : α} (h : Path R t acts u) (ha : R a u v) :
    Path R t (acts ++ [a]) v := by
  induction h with
  | nil t => exact .cons ha (.nil v)
  | cons hs _ ih => exact .cons hs (ih ha)

end Lib
