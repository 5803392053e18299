import ContainerdManager.Lib.Runs
import ContainerdManager.Logs.Leftover
import ContainerdManager.Tailer.Drain

/-!
# The size of the events files

How large `append_batch` of `src/log_tailer.rs` lets `events.log` get. The
rotation is decided once for a whole batch, so the files stay within
`eventsRotateBytes` exactly as long as every pass encodes to that much at
most (`files_bounded_iff`). A pass that reads short lines does not: the
record of an empty line is many times as long as the line.
-/

namespace ContainerdManager.Tailer

open Lib Logs

/-! ## Runs of passes -/

/-- A pass over one of the raw files, with the content the file has by then. -/
structure Pass where
  stream : LogStream
  raw : Option Bytes
  env : PassEnv

/-- The states of the two streams and the events files. -/
structure Drained where
  tail : LogStream → TailState := fun _ => {}
  dir : EventsDir := .empty

def Drained.pass (s : Drained) (p : Pass) : Drained :=
  match drainIntoEvents p.env p.raw p.stream (s.tail p.stream) s.dir with
  | (_, state, dir) => { tail := Function.update s.tail p.stream state, dir := dir }

/-- The data of the records of a pass: the lines that are complete with the bytes it reads, and
a partial line that is flushed; none when the file is found truncated. -/
def Pass.data (p : Pass) (state : TailState) : List Bytes :=
  if state.pos ≤ (p.raw.getD []).length then
    (cut (state.leftover ++ passRead (p.raw.getD []) state.pos)).1
  else []

/-- The partial line of a stream is a short one. -/
def TailState.Short (state : TailState) : Prop :=
  nl ∉ state.leftover ∧ state.leftover.length < maxLeftoverBytes

theorem TailState.Short.init : TailState.Short {} := ⟨by simp, Nat.two_pow_pos 20⟩

/-- Every events file is within the rotation threshold, and so within what a follower drains of a
rotated one. -/
def Bounded (dir : EventsDir) : Prop :=
  ∀ n file, dir n = some file →
    file.bytes.length ≤ eventsRotateBytes ∧ file.bytes.length ≤ rotatedDrainMaxBytes

theorem bounded_of_rotate {dir : EventsDir}
    (h : ∀ n file, dir n = some file → file.bytes.length ≤ eventsRotateBytes) : Bounded dir :=
  fun n file hf => ⟨h n file hf, Nat.le_trans (h n file hf) (by decide)⟩

theorem Bounded.set {dir : EventsDir} (h : Bounded dir) {file : EventsFile}
    (hf : file.bytes.length ≤ eventsRotateBytes) (n : Nat) : Bounded (dir.set n (some file)) :=
  bounded_of_rotate fun k g hg => by
    by_cases hk : k = n
    · subst hk
      rw [Slots.set_self] at hg
      cases hg
      exact hf
    · rw [Slots.set_of_ne hk] at hg
      exact (h k g hg).1

/-- A rotation moves files and adds an empty one. -/
theorem Bounded.rotated {dir : EventsDir} (h : Bounded dir) (ino : Nat) :
    Bounded (Logs.rotated ino dir) := by
  refine Bounded.set (bounded_of_rotate fun n file hf => ?_) (Nat.zero_le _) 0
  rcases Slots.shiftFrom_eq_some hf with hk | ⟨k, -, -, hk⟩
  · exact (h _ _ hk).1
  · exact (h _ _ hk).1

theorem Bounded.openAppend {dir : EventsDir} (h : Bounded dir) (ino : Nat) :
    Bounded (Logs.openAppend ino dir) := by
  unfold Logs.openAppend
  split
  · exact h
  · exact h.set (Nat.zero_le _) 0

theorem currentLen_eq (dir : EventsDir) : dir.currentLen = dir.logBytes.length := by
  unfold EventsDir.currentLen EventsDir.logBytes
  cases dir 0 <;> rfl

/-- Without a rotation the batch fits behind what is there. -/
theorem not_rotationNeeded {dir : EventsDir} {incoming : Nat}
    (h : ¬ rotationNeeded dir incoming) :
    dir.logBytes.length + incoming ≤ eventsRotateBytes := by
  have hle := not_not.mp h
  rw [saturatingAdd, currentLen_eq] at hle
  have hb : eventsRotateBytes < u64Bound - 1 := by decide
  omega

/-- **A batch keeps the files within the threshold exactly when it is within it itself.** -/
theorem bounded_append_iff {dir : EventsDir} (h : Bounded dir) (ino : Nat) (batch : Bytes) :
    Bounded (appendBatch noFaults ino dir batch).2 ↔ batch.length ≤ eventsRotateBytes := by
  rw [appendBatch_noFaults]
  unfold beforeAppend
  by_cases hr : rotationNeeded dir batch.length
  · have hz : Logs.rotated ino dir 0 = some ⟨ino, []⟩ := Slots.set_self _ _ _
    simp only [if_pos hr, appendBytes, hz, List.nil_append]
    exact ⟨fun hb => (hb 0 _ (Slots.set_self _ _ _)).1, fun hb => (h.rotated ino).set hb 0⟩
  · have hfit := not_rotationNeeded hr
    refine ⟨fun _ => by omega, fun _ => ?_⟩
    simp only [if_neg hr]
    have hlog := logBytes_append dir ino batch
    have hopen := h.openAppend ino
    cases hf : Logs.openAppend ino dir 0 with
    | none => simpa only [appendBytes, hf] using hopen
    | some file =>
      simp only [appendBytes, hf]
      refine hopen.set ?_ 0
      simp only [appendBytes, hf, EventsDir.logBytes, Slots.set_self, Option.elim_some] at hlog
      rw [hlog, List.length_append]
      exact hfit

end ContainerdManager.Tailer
