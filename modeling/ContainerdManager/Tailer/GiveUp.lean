import ContainerdManager.Tailer.Runs

/-!
# When the tailer gives up

Without a stop signal the loop of the tailer ends only by giving up, after
`maxConsecutiveErrors` passes over one stream that fail in a row. What has
become of the passes is read off the run itself (`outcomes`); the counters
of the loop are those of its ends.
-/

namespace ContainerdManager.Tailer

open Lib Logs

def isError {ε α : Type} : Except ε α → Bool
  | .ok _ => false
  | .error _ => true

/-- The stream of the pass a step makes, if it makes one, and whether the pass fails. -/
def TailSys.outcome (s : TailSys) : TailAct → Option (LogStream × Bool)
  | .write _ _ => none
  | .tick env _ => s.tailer.pc.stream.map fun stream =>
    (stream, isError (drainIntoEvents env (s.raw stream) stream (s.tailer.tail stream) s.dir).1)

/-- The passes of a run. -/
def outcomes : TailSys → List TailAct → List (LogStream × Bool)
  | _, [] => []
  | s, a :: acts => (s.outcome a).toList ++ outcomes (s.step a) acts

/-- How many of the last passes over the stream failed in a row. -/
def failuresOn (stream : LogStream) (passes : List (LogStream × Bool)) : Nat :=
  ((passes.filter fun p => p.1 = stream).reverse.takeWhile Prod.snd).length

section Failures

variable {stream : LogStream} (passes : List (LogStream × Bool))

theorem failuresOn_failed :
    failuresOn stream (passes ++ [(stream, true)]) = failuresOn stream passes + 1 := by
  simp [failuresOn, List.filter_append]

theorem failuresOn_passed : failuresOn stream (passes ++ [(stream, false)]) = 0 := by
  simp [failuresOn, List.filter_append]

theorem failuresOn_other {other : LogStream} (h : other ≠ stream) (failed : Bool) :
    failuresOn stream (passes ++ [(other, failed)]) = failuresOn stream passes := by
  simp [failuresOn, List.filter_append, h]

end Failures

/-! ## The counters -/

/-- The step does not find the stop signal. -/
def TailAct.Unsignalled : TailAct → Prop
  | .write _ _ => True
  | .tick _ stop => stop = false

instance : DecidablePred TailAct.Unsignalled
  | .write _ _ => .isTrue trivial
  | .tick _ _ => inferInstanceAs (Decidable (_ = _))

/-- What the place in the loop says about the counters. -/
def Counted (t : TailerLoop) : Prop :=
  match t.pc with
  | .drainOut | .select => ∀ stream, t.errors stream < maxConsecutiveErrors
  | .drainErr => True
  | .finalOut | .finalErr => False
  | .done => ∃ stream, maxConsecutiveErrors ≤ t.errors stream

structure Counts (s : TailSys) (passes : List (LogStream × Bool)) : Prop where
  errors : ∀ stream, s.tailer.errors stream = failuresOn stream passes
  counted : Counted s.tailer

theorem Counts.init : Counts {} [] where
  errors _ := rfl
  counted _ := Nat.zero_lt_succ 49

theorem tick_errors {t : TailerLoop} {stream : LogStream} (h : t.pc.stream = some stream)
    (env : PassEnv) (stop : Bool) (raw : LogStream → Option Bytes) (dir : EventsDir) :
    (t.tick env stop raw dir).1.errors =
      t.count stream (drainIntoEvents env (raw stream) stream (t.tail stream) dir).1 := by
  unfold TailerLoop.tick
  rw [h]

/-- The counter of the stream of a pass, outside the final passes. -/
theorem count_eq {t : TailerLoop} {stream : LogStream} (h : t.pc = .drainOut ∨ t.pc = .drainErr)
    (result : Except Error Unit) :
    t.count stream result = Function.update t.errors stream
      (if isError result then t.errors stream + 1 else 0) := by
  unfold TailerLoop.count
  rcases h with h | h <;> rw [h] <;> cases result <;> rfl

/-- The counters after a pass are those of the run with the pass. -/
theorem failures_update {errors : LogStream → Nat} {passes : List (LogStream × Bool)}
    (h : ∀ stream, errors stream = failuresOn stream passes) (stream : LogStream) (failed : Bool)
    (other : LogStream) :
    Function.update errors stream (if failed then errors stream + 1 else 0) other =
      failuresOn other (passes ++ [(stream, failed)]) := by
  by_cases he : other = stream
  · subst he
    rw [Function.update_self]
    cases failed with
    | true => rw [failuresOn_failed, h]; rfl
    | false => rw [failuresOn_passed]; rfl
  · rw [Function.update_of_ne he, failuresOn_other passes (Ne.symm he), h]

/-- The place in the loop after a step is read off the counters after it. -/
theorem tick_pc (t : TailerLoop) (env : PassEnv) (stop : Bool) (raw : LogStream → Option Bytes)
    (dir : EventsDir) :
    (t.tick env stop raw dir).1.pc =
      TailerLoop.next { t with errors := (t.tick env stop raw dir).1.errors } stop := by
  unfold TailerLoop.tick
  cases t.pc.stream with
  | none => rfl
  | some stream => rfl

/-- A step that makes no pass leaves the counters. -/
theorem errors_idle {s : TailSys} (hs : s.tailer.pc.stream = none) (env : PassEnv) (stop : Bool) :
    (s.step (.tick env stop)).tailer.errors = s.tailer.errors := by
  simp only [TailSys.step, TailerLoop.tick, hs]

theorem Counts.idle {s : TailSys} {passes : List (LogStream × Bool)} (h : Counts s passes)
    (hs : s.tailer.pc.stream = none) (env : PassEnv) (stop : Bool) (stream : LogStream) :
    (s.step (.tick env stop)).tailer.errors stream =
      failuresOn stream (passes ++ (s.outcome (.tick env stop)).toList) := by
  have ho : s.outcome (.tick env stop) = none := by rw [TailSys.outcome, hs]; rfl
  rw [ho, Option.toList_none, List.append_nil, errors_idle hs, h.errors]

/-- A step that makes a pass counts it. -/
theorem Counts.pass {s : TailSys} {passes : List (LogStream × Bool)} (h : Counts s passes)
    (hpc : s.tailer.pc = .drainOut ∨ s.tailer.pc = .drainErr) {stream : LogStream}
    (hs : s.tailer.pc.stream = some stream) (env : PassEnv) (stop : Bool) (other : LogStream) :
    (s.step (.tick env stop)).tailer.errors other =
      failuresOn other (passes ++ (s.outcome (.tick env stop)).toList) := by
  have ho : (s.outcome (.tick env stop)).toList = [(stream, isError (drainIntoEvents env
      (s.raw stream) stream (s.tailer.tail stream) s.dir).1)] := by
    rw [TailSys.outcome, hs]
    rfl
  show (s.tailer.tick env stop s.raw s.dir).1.errors other = _
  rw [tick_errors hs, count_eq hpc, ho]
  exact failures_update h.errors stream _ other

/-- **An unsignalled step** keeps the counters those of the passes. -/
theorem Counts.step {s : TailSys} {passes : List (LogStream × Bool)} (h : Counts s passes)
    {a : TailAct} (ha : a.Unsignalled) :
    Counts (s.step a) (passes ++ (s.outcome a).toList) := by
  cases a with
  | write stream data =>
    have ho : (s.outcome (.write stream data)).toList = [] := rfl
    rw [ho, List.append_nil]
    exact ⟨h.errors, h.counted⟩
  | tick env stop =>
    obtain rfl : stop = false := ha
    have hnext : (s.step (.tick env false)).tailer.pc = _ := tick_pc s.tailer env false s.raw s.dir
    have hc := h.counted
    unfold Counted at hc
    cases hpc : s.tailer.pc with
    | drainOut =>
      refine ⟨h.pass (.inl hpc) (by rw [hpc]; rfl) env false, ?_⟩
      simp only [TailerLoop.next, hpc] at hnext
      simp only [Counted, hnext]
    | drainErr =>
      refine ⟨h.pass (.inr hpc) (by rw [hpc]; rfl) env false, ?_⟩
      simp only [TailerLoop.next, hpc] at hnext
      -- the loop ends exactly when one of the counters has reached the limit
      split at hnext
      · rename_i hmax
        simp only [Counted, hnext]
        exact hmax.elim (fun hout => ⟨.stdout, hout⟩) fun herr => ⟨.stderr, herr⟩
      · rename_i hmax
        simp only [Counted, hnext]
        intro stream
        cases stream with
        | stdout => exact Nat.lt_of_not_le fun hout => hmax (.inl hout)
        | stderr => exact Nat.lt_of_not_le fun herr => hmax (.inr herr)
    | select =>
      have herr := h.idle (by rw [hpc]; rfl) env false
      refine ⟨herr, ?_⟩
      simp only [TailerLoop.next, hpc] at hnext
      rw [hpc] at hc
      simp only [Counted, hnext]
      exact fun stream => by rw [errors_idle (by rw [hpc]; rfl)]; exact hc stream
    | finalOut => rw [hpc] at hc; exact hc.elim
    | finalErr => rw [hpc] at hc; exact hc.elim
    | done =>
      refine ⟨h.idle (by rw [hpc]; rfl) env false, ?_⟩
      simp only [TailerLoop.next, hpc] at hnext
      rw [hpc] at hc
      simp only [Counted, hnext]
      rw [errors_idle (by rw [hpc]; rfl)]
      exact hc

/-- The counters after a run. -/
theorem Counts.run {s : TailSys} {passes : List (LogStream × Bool)} (h : Counts s passes)
    {acts : List TailAct} (hu : ∀ a ∈ acts, a.Unsignalled) :
    Counts (acts.foldl TailSys.step s) (passes ++ outcomes s acts) := by
  induction acts generalizing s passes with
  | nil => rwa [outcomes, List.append_nil]
  | cons a acts ih =>
    rw [outcomes, ← List.append_assoc]
    exact ih (h.step (hu a (by simp))) fun b hb => hu b (List.mem_cons_of_mem _ hb)

/-- **The tailer gives up** after any schedule without the stop signal exactly when, outside the
gap between the two passes of a round, the last `maxConsecutiveErrors` passes over one of the
streams have failed. -/
theorem tailer_gives_up_iff (acts : List TailAct) (hu : ∀ a ∈ acts, a.Unsignalled) :
    (acts.foldl TailSys.step {}).tailer.pc = .done ↔
      (acts.foldl TailSys.step {}).tailer.pc ≠ .drainErr ∧
        ∃ stream, maxConsecutiveErrors ≤ failuresOn stream (outcomes {} acts) := by
  have h : Counts (acts.foldl TailSys.step {}) (outcomes {} acts) := Counts.init.run hu
  simp only [← h.errors]
  have hc := h.counted
  unfold Counted at hc
  constructor
  · intro hdone
    rw [hdone] at hc ⊢
    exact ⟨by simp, hc⟩
  · rintro ⟨hpc, stream, hmax⟩
    cases hp : (acts.foldl TailSys.step {}).tailer.pc with
    | drainOut | select => rw [hp] at hc; exact absurd (hc stream) (Nat.not_lt.mpr hmax)
    | drainErr => exact absurd hp hpc
    | finalOut | finalErr => rw [hp] at hc; exact hc.elim
    | done => rfl

/-- The raw file cannot be opened. -/
def unreadable : PassEnv := { io := fun op => op = .openRaw }

/-- Fifty rounds of passes, those over stdout failing. -/
def unreadableActs : List TailAct :=
  (List.replicate 50 [.tick unreadable false, .tick {} false, .tick {} false]).flatten

theorem tailer_gives_up_unreadable : (∀ a ∈ unreadableActs, a.Unsignalled) ∧
    (unreadableActs.foldl TailSys.step {}).tailer.pc = .done :=
  have hu : ∀ a ∈ unreadableActs, a.Unsignalled := by decide +kernel
  ⟨hu, (tailer_gives_up_iff unreadableActs hu).mpr
    ⟨by decide +kernel, .stdout, by decide +kernel⟩⟩

end ContainerdManager.Tailer
