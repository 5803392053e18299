import ContainerdManager.Tailer.FileSize
import ContainerdManager.Tailer.Runs

/-!
# How much of the log is kept

A rotation happens only when `events.log` and the next batch do not fit in
one file, so that two files next to each other hold more than
`eventsRotateBytes` together. A record is gone only when all the rotated
files above its own are there: then the files still hold half their number
of such pairs. From above their size is bounded by the threshold, or by the
largest batch.
-/

namespace ContainerdManager.Tailer

open Lib Logs

/-- Bytes of a file. -/
def fileSize (file : EventsFile) : Nat := file.bytes.length

/-- Two files next to each other do not fit in one. -/
def Full (dir : EventsDir) : Prop := dir.Packed fileSize eventsRotateBytes maxRotatedFiles

/-- No file is larger than `most`. -/
def AtMost (most : Nat) (dir : EventsDir) : Prop :=
  ∀ n file, dir n = some file → fileSize file ≤ most

/-! ## One batch -/

theorem full_empty : Full .empty := fun _ _ _ h => by cases h

/-- What `append_batch` leaves, in one step. -/
theorem appendBatch_eq (ino : Nat) (dir : EventsDir) (batch : Bytes) :
    (appendBatch noFaults ino dir batch).2 =
      if rotationNeeded dir batch.length then
        (dir.shiftFrom 0 maxRotatedFiles).set 0 (some ⟨ino, batch⟩)
      else dir.set 0 (some ⟨((dir 0).map EventsFile.inode).getD ino, dir.logBytes ++ batch⟩) := by
  rw [appendBatch_noFaults]
  unfold beforeAppend
  split
  · have h0 : rotated ino dir 0 = some ⟨ino, []⟩ := Slots.set_self _ _ _
    simp only [appendBytes, h0]
    funext n
    by_cases hn : n = 0
    · subst hn
      simp
    · simp [rotated, hn]
  · cases hd : dir 0 with
    | none =>
      have h0 : openAppend ino dir = dir.set 0 (some ⟨ino, []⟩) := by rw [openAppend, hd]
      funext n
      by_cases hn : n = 0
      · subst hn
        simp [appendBytes, h0, EventsDir.logBytes, hd]
      · simp [appendBytes, h0, hn]
    | some file =>
      have h0 : openAppend ino dir = dir := by rw [openAppend, hd]
      rw [h0, appendBytes, hd, logBytes_some hd]
      rfl

theorem lt_of_rotationNeeded {dir : EventsDir} {incoming : Nat} (h : rotationNeeded dir incoming) :
    eventsRotateBytes < dir.logBytes.length + incoming := by
  have hlt := Nat.lt_of_not_le h
  rw [saturatingAdd, currentLen_eq] at hlt
  omega

/-- A batch keeps the files full. -/
theorem Full.append {dir : EventsDir} (h : Full dir) (ino : Nat) (batch : Bytes) :
    Full (appendBatch noFaults ino dir batch).2 := by
  rw [appendBatch_eq]
  split
  · rename_i hneed
    refine h.rotate fun file hf => ?_
    have hlt := lt_of_rotationNeeded hneed
    rwa [logBytes_some hf] at hlt
  · refine h.set_bottom fun file hf => ?_
    simp only [fileSize, logBytes_some hf, List.length_append]
    omega

theorem AtMost.append {most : Nat} {dir : EventsDir} (h : AtMost most dir)
    (hmost : eventsRotateBytes ≤ most) (ino : Nat) {batch : Bytes} (hb : batch.length ≤ most) :
    AtMost most (appendBatch noFaults ino dir batch).2 := by
  rw [appendBatch_eq]
  intro n file hf
  split at hf
  · by_cases hn : n = 0
    · subst hn
      rw [Slots.set_self] at hf
      cases hf
      exact hb
    · rw [Slots.set_of_ne hn] at hf
      rcases Slots.shiftFrom_eq_some hf with hf | ⟨k, -, -, hf⟩
      · exact h _ _ hf
      · exact h _ _ hf
  · rename_i hfit
    by_cases hn : n = 0
    · subst hn
      rw [Slots.set_self] at hf
      cases hf
      have := not_rotationNeeded hfit
      simp only [fileSize, List.length_append]
      omega
    · rw [Slots.set_of_ne hn] at hf
      exact h _ _ hf

/-! ## Histories -/

/-- The batches of `dropped` are gone, and when there are any the chain of files is complete. -/
structure Kept (h : AppendHistory) (segs : Slots (List Batch)) (dropped : List Batch) : Prop
    extends Retains h segs dropped where
  full : Full h.dir
  complete : dropped ≠ [] → (h.dir maxRotatedFiles).isSome

theorem Kept.init : Kept .init (fun _ => none) [] :=
  ⟨.init, full_empty, fun h => absurd rfl h⟩

theorem isSome_segs {h : AppendHistory} {segs : Slots (List Batch)} {dropped : List Batch}
    (hr : Retains h segs dropped) (n : Nat) : (h.dir n).isSome = (segs n).isSome := by
  have hb := congrFun hr.bytes n
  rw [Slots.map_apply, Slots.map_apply] at hb
  rw [← Option.isSome_map, hb, Option.isSome_map]

/-- A call of `append_batch` that completes. -/
theorem Kept.call {h : AppendHistory} {segs : Slots (List Batch)} {dropped : List Batch}
    (hk : Kept h segs dropped) (recs : List Record) (ino : Nat) :
    ∃ segs' dropped', Kept (h.call (.complete recs ino)) segs' dropped' := by
  have hfull := hk.full.append ino (encodeAll recs)
  have hdir : (h.call (.complete recs ino)).dir =
      (appendBatch noFaults ino h.dir (encodeAll recs)).2 := rfl
  by_cases hneed : rotationNeeded h.dir (encodeAll recs).length
  · have hr := ((hk.toRetains.shift (Nat.zero_le _)).create (Slots.shiftFrom_gap _ _ _) ino).append
      (Slots.set_self _ _ _) recs
    have hcall : h.call (.complete recs ino) =
        ⟨appendBytes (rotated ino h.dir) (encodeAll recs), h.batches ++ [⟨recs, h.begun + 1⟩],
          h.begun + 1⟩ := by
      simp only [AppendHistory.call, appendBatch_noFaults, beforeAppend, if_pos hneed]
    refine ⟨_, _, hcall ▸ hr, hdir ▸ hfull, fun hne => ?_⟩
    -- the oldest file was there, so the one before it was, which is the oldest now
    have htop : (h.dir maxRotatedFiles).isSome := by
      by_cases hd : dropped = []
      · rw [isSome_segs hk.toRetains, Option.isSome_iff_ne_none]
        rintro hnone
        rw [hd, hnone] at hne
        exact hne rfl
      · exact hk.complete hd
    obtain ⟨oldest, ho⟩ := Option.isSome_iff_exists.mp htop
    obtain ⟨next, hn, -⟩ := hk.full 4 (by decide) oldest ho
    rw [hdir, appendBatch_eq, if_pos hneed, Slots.set_of_ne (by decide)]
    show (h.dir.shiftFrom 0 maxRotatedFiles (4 + 1)).isSome
    rw [Slots.shiftFrom_moved (Nat.zero_le _) (by decide), hn]
    rfl
  · have hbefore : ∃ segs' bs, Retains { h with dir := openAppend ino h.dir } segs' dropped ∧
        segs' 0 = some bs := by
      unfold Logs.openAppend
      cases hd : h.dir 0 with
      | none =>
        have h0 : segs 0 = none := by
          have := isSome_segs hk.toRetains 0
          rw [hd] at this
          exact Option.not_isSome_iff_eq_none.mp (by rw [← this]; exact Bool.false_ne_true)
        exact ⟨_, _, hk.toRetains.create h0 ino, Slots.set_self _ _ _⟩
      | some file =>
        have h0 := isSome_segs hk.toRetains 0
        rw [hd] at h0
        obtain ⟨bs, hbs⟩ := Option.isSome_iff_exists.mp h0.symm
        exact ⟨segs, bs, hk.toRetains, hbs⟩
    obtain ⟨segs', bs, hr, h0⟩ := hbefore
    have hcall : h.call (.complete recs ino) =
        ⟨appendBytes (openAppend ino h.dir) (encodeAll recs), h.batches ++ [⟨recs, h.begun⟩],
          h.begun⟩ := by
      simp only [AppendHistory.call, appendBatch_noFaults, beforeAppend, if_neg hneed]
    refine ⟨_, _, hcall ▸ hr.append h0 recs, hdir ▸ hfull, fun hne => ?_⟩
    rw [hdir, appendBatch_eq, if_neg hneed, Slots.set_of_ne (by decide)]
    exact hk.complete hne

theorem Kept.calls (hist : List (List Record × Nat)) :
    ∃ segs dropped, Kept (AppendHistory.init.appends hist) segs dropped := by
  refine List.foldlRecOn (motive := fun h => ∃ segs dropped, Kept h segs dropped)
    (hist.map fun c => AppendCall.complete c.1 c.2) AppendHistory.call ⟨_, _, Kept.init⟩ ?_
  rintro h ⟨segs, dropped, hk⟩ c hc
  obtain ⟨e, -, rfl⟩ := List.mem_map.mp hc
  exact hk.call e.1 e.2

end ContainerdManager.Tailer
