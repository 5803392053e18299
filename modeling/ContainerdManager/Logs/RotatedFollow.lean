import ContainerdManager.Lib.Runs
import ContainerdManager.Logs.Follower
import ContainerdManager.Logs.Rotation

/-!
# Following across rotations

The tailer appends batches that become visible piece by piece and rotates
`events.log` between two batches, at most once between two polls. A poll
that finds the inode changed reads the rest of `events.log.1` on its own:
`drain_rotated_remainder` does not know the partial record the follower
holds in its leftover. Runs in which no rotation meets such a follower
deliver every complete record (`follow_rotations`).
-/

namespace ContainerdManager.Logs

open Lib

structure RotSys where
  dir : EventsDir := .empty
  /-- Records of the batches begun so far. -/
  begun : List Record := []
  /-- The part of the last batch that is not visible yet. -/
  pending : Bytes := []
  /-- A rotation since the last poll. -/
  rotated : Bool := false
  state : EventsTailState := {}
  tx : Sender := {}

inductive RotAct where
  /-- `append_batch` up to its write; a file it creates gets inode `ino`. -/
  | begin (recs : List Record) (ino : Nat)
  /-- The next `n` bytes of the batch become visible. -/
  | write (n : Nat)
  | poll

/-- No file that survives a rotation has inode `ino`. -/
def Unused (ino : Nat) (dir : EventsDir) : Prop :=
  ∀ n < maxRotatedFiles, ((dir n).all fun f => f.inode ≠ ino) = true

instance (ino : Nat) (dir : EventsDir) : Decidable (Unused ino dir) :=
  inferInstanceAs (Decidable (∀ n < maxRotatedFiles, _))

/-- `rotate_if_needed` and the open of `append_batch`. -/
def startBatch (ino : Nat) (dir : EventsDir) (incoming : Nat) : EventsDir :=
  openAppend ino (rotateIfNeeded noFaults ino dir incoming).2

def RotSys.step (s : RotSys) : RotAct → Option RotSys
  | .begin recs ino =>
    let rotates := rotationNeeded s.dir (encodeAll recs).length
    -- one rotation between two polls, none within a batch, and a new file gets an unused inode
    if s.pending ≠ [] ∨ rotates ∧ (s.rotated = true ∨ ¬ Unused ino s.dir) then none
    else
      some { s with
        dir := startBatch ino s.dir (encodeAll recs).length
        begun := s.begun ++ recs
        pending := encodeAll recs
        rotated := s.rotated || decide rotates }
  | .write n =>
    if s.dir.logBytes.length + (s.pending.take n).length < rotatedDrainMaxBytes then
      some { s with
        dir := appendBytes s.dir (s.pending.take n)
        pending := s.pending.drop n }
    else none
  | .poll =>
    match pollEventsOnce noPollFaults s.dir s.state s.tx with
    | (_, state, tx) => some { s with state := state, tx := tx, rotated := false }

/-- The records completely written so far. -/
def RotSys.completed (s : RotSys) : List Record :=
  recordFrames.complete s.begun ((encodeAll s.begun).length - s.pending.length)

/-- A rotation finds the follower on the file it rotates, which may be empty, and without a partial
record. -/
def RotationSafe (s : RotSys) : RotAct → Prop
  | .begin recs _ =>
    rotationNeeded s.dir (encodeAll recs).length →
      s.state.leftover = [] ∧ ∀ file ∈ s.dir 0, file.bytes = [] ∨ s.state.inode = some file.inode
  | .write _ => True
  | .poll => True

instance (s : RotSys) : DecidablePred (RotationSafe s)
  | .begin _ _ => inferInstanceAs (Decidable (_ → _))
  | .write _ => .isTrue trivial
  | .poll => .isTrue trivial

/-! ## The invariant -/

theorem startBatch_eq (ino : Nat) (dir : EventsDir) (incoming : Nat) :
    startBatch ino dir incoming = beforeAppend ino dir incoming := by
  unfold startBatch rotateIfNeeded beforeAppend
  by_cases h : rotationNeeded dir incoming
  · simp only [noFaults, Bool.false_eq_true, if_false, h, if_true]
    exact (congrArg _ (rotateOps_all ino dir)).trans (openAppend_rotated ino dir)
  · simp [noFaults, h]

/-- The follower is on `events.log`, or has not opened a file yet; `base` is what earlier files
held. -/
structure OnCurrent (s : RotSys) (base : Bytes) : Prop where
  inode : (s.state.inode = none ∧ s.state.pos = 0 ∧ base = []) ∨
    ∃ file, s.dir 0 = some file ∧ s.state.inode = some file.inode
  pos_le : s.state.pos ≤ s.dir.logBytes.length
  read : eventDecoder.scan (base ++ s.dir.logBytes.take s.state.pos) =
    (s.tx.sent, s.state.leftover)

/-- The follower is on the file that was rotated to `events.log.1` since its last poll. -/
structure OnRotated (s : RotSys) (base : Bytes) : Prop where
  rotated : s.rotated = true
  files : ∃ before file1 file0, s.dir 1 = some file1 ∧ s.dir 0 = some file0 ∧
    s.state.inode = some file1.inode ∧ file0.inode ≠ file1.inode ∧ base = before ++ file1.bytes ∧
    file1.bytes.length < rotatedDrainMaxBytes ∧
    eventDecoder.scan (before ++ file1.bytes.take s.state.pos) = (s.tx.sent, [])

structure RotSys.Inv (s : RotSys) (base : Bytes) : Prop where
  written : base ++ s.dir.logBytes ++ s.pending = encodeAll s.begun
  whole : ∃ rs, base = encodeAll rs
  opened : s.dir 0 = none → s.pending = []
  small : s.dir.logBytes.length < rotatedDrainMaxBytes
  live : s.tx.takes = none
  reading : OnCurrent s base ∨ OnRotated s base

theorem RotSys.Inv.init : RotSys.Inv {} [] where
  written := rfl
  whole := ⟨[], rfl⟩
  opened _ := rfl
  small := by decide
  live := rfl
  reading := .inl ⟨.inl ⟨rfl, rfl, rfl⟩, Nat.zero_le _, scan_nil⟩

theorem scan_whole {base : Bytes} {rs : List Record} (h : base = encodeAll rs) (more : Bytes) :
    eventDecoder.scan (base ++ more) =
      (rs.map Record.entry ++ (eventDecoder.scan more).1, (eventDecoder.scan more).2) := by
  rw [h]
  exact recordFrames.scan_encAll rs more

/-! ## Writes -/

theorem appendBytes_some {dir : EventsDir} {file : EventsFile} (h : dir 0 = some file)
    (bytes : Bytes) :
    appendBytes dir bytes = dir.set 0 (some { file with bytes := file.bytes ++ bytes }) := by
  rw [appendBytes, h]

theorem logBytes_appendBytes {dir : EventsDir} {file : EventsFile} (h : dir 0 = some file)
    (bytes : Bytes) : (appendBytes dir bytes).logBytes = dir.logBytes ++ bytes := by
  rw [appendBytes_some h, EventsDir.logBytes, Slots.set_self, logBytes_some h]
  rfl

theorem OnCurrent.write {s : RotSys} {base : Bytes} (h : OnCurrent s base) {file : EventsFile}
    (hd : s.dir 0 = some file) (bytes pending : Bytes) :
    OnCurrent { s with dir := appendBytes s.dir bytes, pending := pending } base where
  inode := by
    rcases h.inode with hi | ⟨file', hf, hi⟩
    · exact .inl hi
    · rw [hd] at hf
      cases hf
      refine .inr ⟨{ file with bytes := file.bytes ++ bytes }, ?_, hi⟩
      simp only [appendBytes_some hd, Slots.set_self]
  pos_le := by
    have := h.pos_le
    simp only [logBytes_appendBytes hd, List.length_append]
    omega
  read := by
    simp only [logBytes_appendBytes hd, List.take_append_of_le_length h.pos_le]
    exact h.read

theorem OnRotated.write {s : RotSys} {base : Bytes} (h : OnRotated s base) {file : EventsFile}
    (hd : s.dir 0 = some file) (bytes pending : Bytes) :
    OnRotated { s with dir := appendBytes s.dir bytes, pending := pending } base where
  rotated := h.rotated
  files := by
    obtain ⟨before, file1, file0, h1, h0, hrest⟩ := h.files
    rw [hd] at h0
    cases h0
    refine ⟨before, file1, { file with bytes := file.bytes ++ bytes }, ?_, ?_, hrest⟩
    · simp only [appendBytes_some hd, Slots.set_of_ne (show 1 ≠ 0 by decide), h1]
    · simp only [appendBytes_some hd, Slots.set_self]

theorem RotSys.Inv.write {s s' : RotSys} {base : Bytes} (h : s.Inv base) {n : Nat}
    (hs : s.step (.write n) = some s') : s'.Inv base := by
  simp only [RotSys.step] at hs
  split at hs
  case isFalse => cases hs
  case isTrue hsmall =>
    cases hs
    cases hd : s.dir 0 with
    | none =>
      -- no batch has been begun: there is nothing to write
      have hp := h.opened hd
      have hdir : appendBytes s.dir (s.pending.take n) = s.dir := by rw [appendBytes, hd]
      have hpend : s.pending.drop n = [] := by rw [hp, List.drop_nil]
      rw [hdir, hpend, ← hp]
      exact h
    | some file =>
      refine ⟨?_, h.whole, ?_, ?_, h.live, ?_⟩
      · simp only [logBytes_appendBytes hd, ← h.written, List.append_assoc, List.take_append_drop]
      · simp [appendBytes_some hd]
      · simpa only [logBytes_appendBytes hd, List.length_append] using hsmall
      · exact h.reading.imp (·.write hd _ _) (·.write hd _ _)

/-! ## Batches -/

/-- Opening `events.log` for a batch that does not rotate it. -/
theorem RotSys.Inv.beginHere {s : RotSys} {base : Bytes} (h : s.Inv base) (hp : s.pending = [])
    (recs : List Record) (ino : Nat) (rotated : Bool) (hrot : s.rotated = true → rotated = true) :
    RotSys.Inv
      { s with
        dir := openAppend ino s.dir
        begun := s.begun ++ recs
        pending := encodeAll recs
        rotated := rotated } base := by
  have hwritten : base ++ s.dir.logBytes ++ encodeAll recs = encodeAll (s.begun ++ recs) := by
    have := h.written
    rw [hp, List.append_nil] at this
    rw [this, encodeAll_append]
  cases hd : s.dir 0 with
  | some file =>
    have hopen : openAppend ino s.dir = s.dir := by rw [openAppend, hd]
    rw [hopen]
    refine ⟨hwritten, h.whole, fun hn => ?_, h.small, h.live, ?_⟩
    · rw [show s.dir 0 = none from hn] at hd
      cases hd
    · refine h.reading.imp (fun hc => ⟨hc.inode, hc.pos_le, hc.read⟩) fun hr => ?_
      exact ⟨hrot hr.rotated, hr.files⟩
  | none =>
    have hopen : openAppend ino s.dir = s.dir.set 0 (some ⟨ino, []⟩) := by rw [openAppend, hd]
    have hlog : s.dir.logBytes = [] := by rw [EventsDir.logBytes, hd]; rfl
    have hlog' : EventsDir.logBytes (s.dir.set 0 (some ⟨ino, []⟩)) = [] := by
      rw [EventsDir.logBytes, Slots.set_self]
      rfl
    rw [hlog] at hwritten
    rw [hopen]
    refine ⟨?_, h.whole, fun hn => ?_, ?_, h.live, ?_⟩
    · simpa only [hlog'] using hwritten
    · simp at hn
    · simp only [hlog']
      decide
    · rcases h.reading with ⟨hi, hpos, hread⟩ | ⟨-, _, _, _, -, h0, -⟩
      · rcases hi with hi | ⟨file, hf, -⟩
        · rw [hlog] at hpos hread
          refine .inl ⟨.inl hi, ?_, ?_⟩
          · simpa only [hlog'] using hpos
          · simpa only [hlog'] using hread
        · rw [hd] at hf
          cases hf
      · rw [hd] at h0
        cases h0

/-- A batch that rotates `events.log` first. -/
theorem RotSys.Inv.beginRotated {s : RotSys} {base : Bytes} (h : s.Inv base) (hp : s.pending = [])
    (hr : s.rotated = false) (recs : List Record) {ino : Nat} (hino : Unused ino s.dir)
    (hleft : s.state.leftover = [])
    (hsafe : ∀ file ∈ s.dir 0, file.bytes = [] ∨ s.state.inode = some file.inode) :
    RotSys.Inv
      { s with
        dir := Logs.rotated ino s.dir
        begun := s.begun ++ recs
        pending := encodeAll recs
        rotated := true } (base ++ s.dir.logBytes) := by
  have hbase : base ++ s.dir.logBytes = encodeAll s.begun := by
    have := h.written
    rwa [hp, List.append_nil] at this
  have h0 : Logs.rotated ino s.dir 0 = some ⟨ino, []⟩ := Slots.set_self _ _ _
  have h1 : Logs.rotated ino s.dir 1 = s.dir 0 := by
    rw [Logs.rotated, Slots.set_of_ne (by decide)]
    exact Slots.shiftFrom_moved (Nat.le_refl 0) (by decide) s.dir
  have hlog : (Logs.rotated ino s.dir).logBytes = [] := logBytes_some h0
  obtain ⟨hi, hpos, hread⟩ : OnCurrent s base := by
    rcases h.reading with hc | hc
    · exact hc
    · exact absurd hc.rotated (by simp [hr])
  refine ⟨?_, ⟨s.begun, hbase⟩, fun hn => ?_, ?_, h.live, ?_⟩
  · simp only [hlog, List.append_nil, hbase, encodeAll_append]
  · simp only [h0] at hn
    cases hn
  · simp only [hlog]
    decide
  · by_cases hon : ∃ file, s.dir 0 = some file ∧ s.state.inode = some file.inode
    · obtain ⟨file, hf, hi⟩ := hon
      have hne : ino ≠ file.inode := by
        have := hino 0 (by decide)
        rw [hf, Option.all_some] at this
        exact fun e => by simp [e] at this
      rw [logBytes_some hf] at hread ⊢
      rw [hleft] at hread
      exact .inr ⟨rfl, base, file, ⟨ino, []⟩, h1.trans hf, h0, hi, hne, rfl,
        logBytes_some hf ▸ h.small, hread⟩
    · -- the follower has not opened a file, and there is nothing in the one it missed
      obtain ⟨hnone, hpos, rfl⟩ := hi.resolve_right hon
      have hempty : s.dir.logBytes = [] := by
        cases hd : s.dir 0 with
        | none => rw [EventsDir.logBytes, hd]; rfl
        | some file =>
          rw [logBytes_some hd]
          refine (hsafe file hd).resolve_right fun hi' => ?_
          rw [hnone] at hi'
          cases hi'
      rw [hempty, hpos] at hread
      refine .inl ⟨.inl ⟨hnone, hpos, by rw [hempty]; rfl⟩, ?_, ?_⟩
      · simp only [hpos, Nat.zero_le]
      · simpa only [hlog, hempty, hpos, List.append_nil] using hread

theorem RotSys.Inv.begin {s s' : RotSys} {base : Bytes} (h : s.Inv base) {recs : List Record}
    {ino : Nat} (hok : RotationSafe s (.begin recs ino)) (hs : s.step (.begin recs ino) = some s') :
    ∃ base', s'.Inv base' := by
  simp only [RotSys.step, startBatch_eq, beforeAppend] at hs
  split at hs
  case isTrue => cases hs
  case isFalse hguard =>
    cases hs
    simp only [not_or, not_and, ne_eq, not_not] at hguard
    obtain ⟨hp, hrot⟩ := hguard
    by_cases hneed : rotationNeeded s.dir (encodeAll recs).length
    · obtain ⟨hr, hino⟩ := hrot hneed
      obtain ⟨hleft, hsafe⟩ := hok hneed
      simp only [hneed, if_true, decide_true, Bool.or_true]
      exact ⟨_, h.beginRotated hp (by simpa using hr) recs hino hleft hsafe⟩
    · simp only [hneed, if_false, decide_false, Bool.or_false]
      exact ⟨_, h.beginHere hp recs ino s.rotated id⟩

/-! ## Polls -/

/-- What follows whole records is kept, since no file reaches the limit. -/
theorem keep_small {base rest : Bytes} {rs : List Record} (hb : base = encodeAll rs)
    (hl : rest.length < rotatedDrainMaxBytes) :
    keepRemainder (eventDecoder.scan (base ++ rest)).2 = (eventDecoder.scan (base ++ rest)).2 := by
  rw [scan_whole hb]
  refine keepRemainder_eq fun _ => ?_
  have hle := (Decoder.scan_snd_suffix (D := eventDecoder) rest).length_le
  have he : rotatedDrainMaxBytes = maxRecordBytes := rfl
  show (eventDecoder.scan rest).2.length ≤ _
  omega

/-- A poll from a follower that is on `events.log`. -/
theorem RotSys.Inv.pollCurrent {s : RotSys} {base : Bytes} (h : s.Inv base) (hc : OnCurrent s base)
    {file : EventsFile} (hd : s.dir 0 = some file) :
    pollEventsOnce noPollFaults s.dir s.state s.tx =
      (.continue,
        ⟨file.bytes.length, (eventDecoder.scan (base ++ file.bytes)).2, some file.inode⟩,
        { s.tx with sent := (eventDecoder.scan (base ++ file.bytes)).1 }) := by
  obtain ⟨rs, hb⟩ := h.whole
  have hlog := logBytes_some hd
  have hread := hc.read
  have hpos := hc.pos_le
  have hsmall := h.small
  rw [hlog] at hread hpos hsmall
  have hfeed := Decoder.scan_append (D := eventDecoder) (base ++ file.bytes.take s.state.pos)
    (file.bytes.drop s.state.pos)
  rw [List.append_assoc, List.take_append_drop, hread] at hfeed
  have hleft : s.state.leftover = (eventDecoder.scan (base ++ file.bytes.take s.state.pos)).2 := by
    rw [hread]
  have hi : s.state.inode = none ∨ s.state.inode = some file.inode := by
    rcases hc.inode with hi | ⟨file', hf, hi⟩
    · exact .inl hi.1
    · rw [hd] at hf
      cases hf
      exact .inr hi
  have hpoll := pollEventsOnce_same hd hi hpos h.live
    (by rw [hleft]; exact Decoder.front_scan_snd _)
    (by
      rw [hleft]
      refine keep_small hb (Nat.lt_of_le_of_lt ?_ hsmall)
      rw [List.length_take]
      omega)
  have hkeep := keep_small hb hsmall
  rw [hfeed] at hkeep
  rw [hpoll, hfeed, hkeep]
  rfl

/-- A poll that finds `events.log` rotated: the rest of `events.log.1`, then the new file. -/
theorem RotSys.Inv.pollRotated {s : RotSys} {base : Bytes} (h : s.Inv base)
    (hc : OnRotated s base) :
    ∃ file, s.dir 0 = some file ∧
      pollEventsOnce noPollFaults s.dir s.state s.tx =
        (.continue,
          ⟨file.bytes.length, (eventDecoder.scan (base ++ file.bytes)).2, some file.inode⟩,
          { s.tx with sent := (eventDecoder.scan (base ++ file.bytes)).1 }) := by
  obtain ⟨before, file1, file0, h1, h0, hi, hne, hbase, hsize, hread⟩ := hc.files
  obtain ⟨rs, hb⟩ := h.whole
  refine ⟨file0, h0, ?_⟩
  have hsmall := h.small
  rw [logBytes_some h0] at hsmall
  -- what is left of `events.log.1` completes `base`
  have hrest := Decoder.scan_append (D := eventDecoder) (before ++ file1.bytes.take s.state.pos)
    (file1.bytes.drop s.state.pos)
  rw [List.append_assoc, List.take_append_drop, ← hbase, hread, List.nil_append] at hrest
  have hdrain : drainRotatedRemainder noPollFaults (some file1) file1.inode s.state.pos s.tx =
      (.continue, s.tx.push (eventDecoder.scan (file1.bytes.drop s.state.pos)).1) := by
    simp only [drainRotatedRemainder, noPollFaults, Bool.false_eq_true, if_false, ne_eq,
      not_true_eq_false]
    split
    · rename_i hle
      rw [List.drop_eq_nil_of_le hle, scan_nil, push_nil]
    · have htake : (file1.bytes.drop s.state.pos).take
          (min (file1.bytes.length - s.state.pos) rotatedDrainMaxBytes) =
            file1.bytes.drop s.state.pos := by
        refine List.take_of_length_le ?_
        rw [List.length_drop]
        omega
      rw [htake, sendAll_live h.live, parseEventsFile_eq]
  have hstat : pollStat noPollFaults (s.dir 1) file0.bytes.length file0.inode s.state s.tx =
      (.continue, ⟨0, [], some file0.inode⟩,
        s.tx.push (eventDecoder.scan (file1.bytes.drop s.state.pos)).1) := by
    have hany : (s.state.inode.any fun prev => prev ≠ file0.inode) = true := by
      simp [hi, Ne.symm hne]
    simp only [pollStat, hany, if_true]
    rw [hi, h1]
    simp only [hdrain]
  have hscan := scan_whole hb file0.bytes
  have hsent : s.tx.sent ++ (eventDecoder.scan (file1.bytes.drop s.state.pos)).1 =
      rs.map Record.entry := by
    have := scan_whole hb []
    rw [List.append_nil, scan_nil, hrest] at this
    simpa using congrArg Prod.fst this
  have hkeep := keep_small hb hsmall
  rw [hscan] at hkeep ⊢
  simp only [pollEventsOnce, noPollFaults, Bool.false_eq_true, if_false, h0]
  rw [hstat]
  dsimp only
  by_cases he : file0.bytes.length = 0
  · have hnil : file0.bytes = [] := List.eq_nil_of_length_eq_zero he
    rw [if_pos he, hnil, scan_nil, List.append_nil, ← hsent]
    rfl
  · rw [if_neg he, pollRead_scan _ _ _ (by exact h.live)]
    simp only [List.nil_append, List.drop_zero, push_push, hkeep]
    rw [Sender.push, ← List.append_assoc, hsent]

/-- **What a poll sends**: the invariant holds again, and the follower has read all there is. -/
theorem RotSys.Inv.poll {s s' : RotSys} {base : Bytes} (h : s.Inv base)
    (hs : s.step .poll = some s') :
    s'.Inv base ∧ s'.tx.sent = (eventDecoder.scan (base ++ s'.dir.logBytes)).1 := by
  cases hd : s.dir 0 with
  | none =>
    have hlog : s.dir.logBytes = [] := by rw [EventsDir.logBytes, hd]; rfl
    obtain ⟨hi, hpos, hread⟩ : OnCurrent s base := by
      rcases h.reading with hc | ⟨-, _, _, _, -, h0, -⟩
      · exact hc
      · rw [hd] at h0
        cases h0
    obtain ⟨hnone, hpos, rfl⟩ : s.state.inode = none ∧ s.state.pos = 0 ∧ base = [] := by
      rcases hi with hi | ⟨file, hf, -⟩
      · exact hi
      · rw [hd] at hf
        cases hf
    rw [hlog, hpos] at hread
    have hleft : s.state.leftover = [] := by
      simpa [scan_nil] using (congrArg Prod.snd hread).symm
    simp only [RotSys.step, pollEventsOnce, noPollFaults, Bool.false_eq_true, if_false, hd, hnone,
      Option.isNone_none, if_true] at hs
    cases hs
    rw [hleft] at hread
    refine ⟨⟨h.written, h.whole, h.opened, h.small, h.live,
      .inl ⟨.inl ⟨rfl, rfl, rfl⟩, ?_, ?_⟩⟩, ?_⟩
    · exact Nat.zero_le _
    · simpa only [hlog] using hread
    · simpa [hlog] using (congrArg Prod.fst hread).symm
  | some file =>
    have hpoll : pollEventsOnce noPollFaults s.dir s.state s.tx =
        (.continue,
          ⟨file.bytes.length, (eventDecoder.scan (base ++ file.bytes)).2, some file.inode⟩,
          { s.tx with sent := (eventDecoder.scan (base ++ file.bytes)).1 }) := by
      rcases h.reading with hc | hc
      · exact h.pollCurrent hc hd
      · obtain ⟨file', hf, hpoll⟩ := h.pollRotated hc
        rw [hd] at hf
        cases hf
        exact hpoll
    simp only [RotSys.step, hpoll] at hs
    cases hs
    have hlog := logBytes_some hd
    refine ⟨⟨h.written, h.whole, h.opened, h.small, h.live, .inl ⟨?_, ?_, ?_⟩⟩, ?_⟩
    · exact .inr ⟨file, hd, rfl⟩
    · simp only [hlog, Nat.le_refl]
    · simp only [hlog, List.take_length]
    · simp only [hlog]

theorem RotSys.Inv.step {s s' : RotSys} {a : RotAct} (h : ∃ base, s.Inv base)
    (hok : RotationSafe s a) (hs : s.step a = some s') : ∃ base, s'.Inv base := by
  obtain ⟨base, h⟩ := h
  cases a with
  | «begin» recs ino => exact h.begin hok hs
  | write n => exact ⟨base, h.write hs⟩
  | poll => exact ⟨base, (h.poll hs).1⟩

/-- **Every complete record once, across rotations**: in a run whose rotations all find the
follower on the file they rotate and without a partial record, what has been sent after a poll are
exactly the records completely written so far, in order. -/
theorem follow_rotations (acts : List RotAct) (s : RotSys)
    (hr : run RotSys.step {} (acts ++ [.poll]) = some s)
    (hok : Along RotSys.step RotationSafe {} acts) :
    s.tx.sent = s.completed.map Record.entry := by
  obtain ⟨s1, hr1, hpoll⟩ := run_append.mp hr
  obtain ⟨base, h⟩ : ∃ base, s1.Inv base :=
    run_inv (fun _ _ _ h ho hs => RotSys.Inv.step h ho hs) ⟨[], .init⟩ hok hr1
  obtain ⟨s', hs', he⟩ := run_cons.mp hpoll
  cases he
  obtain ⟨hinv, hsent⟩ := h.poll hs'
  have htake : base ++ s.dir.logBytes =
      (encodeAll s.begun).take ((encodeAll s.begun).length - s.pending.length) := by
    rw [← hinv.written, List.length_append, Nat.add_sub_cancel, List.take_left]
  rw [hsent, htake, encodeAll, recordFrames.scan_take eventFront_nil]
  rfl

/-! ## Two runs around a rotation -/

/-- A batch larger than a file may be makes `append_batch` rotate whatever there is. -/
theorem rotationNeeded_of_big {batch : List Record}
    (hbig : eventsRotateBytes < (encodeAll batch).length) (dir : EventsDir) :
    rotationNeeded dir (encodeAll batch).length := by
  have hbound : eventsRotateBytes < u64Bound - 1 := by decide
  unfold rotationNeeded saturatingAdd
  omega

theorem step_begin_rotates {s : RotSys} (hp : s.pending = []) (hr : s.rotated = false)
    {recs : List Record} {ino : Nat} (hneed : rotationNeeded s.dir (encodeAll recs).length)
    (hino : Unused ino s.dir) :
    s.step (.begin recs ino) =
      some { s with
        dir := Logs.rotated ino s.dir
        begun := s.begun ++ recs
        pending := encodeAll recs
        rotated := true } := by
  simp [RotSys.step, startBatch_eq, beforeAppend, hp, hr, hneed, hino]

theorem pollEventsOnce_congr {dir dir' : EventsDir} (h0 : dir 0 = dir' 0) (h1 : dir 1 = dir' 1)
    (io : PollFaults) (state : EventsTailState) (tx : Sender) :
    pollEventsOnce io dir state tx = pollEventsOnce io dir' state tx := by
  simp only [pollEventsOnce, h0, h1]

/-- What both runs below have in common when the big batch comes. -/
def HelloWritten (pos : Nat) (leftover : Bytes) (sent : List LogEntry) (s : RotSys) : Prop :=
  s.begun = [helloRecord] ∧ s.pending = [] ∧ s.rotated = false ∧ Unused 8 s.dir ∧
    s.dir 0 = some ⟨7, helloRecord.encode⟩ ∧ s.state = ⟨pos, leftover, some 7⟩ ∧ s.tx = ⟨sent, none⟩

instance (pos : Nat) (leftover : Bytes) (sent : List LogEntry) :
    DecidablePred (HelloWritten pos leftover sent) :=
  fun _ => inferInstanceAs (Decidable (_ ∧ _))

/-- A whole record, read before the big batch rotates the file. -/
def calmActs : List RotAct := [.begin [helloRecord] 7, .write 100, .poll]

theorem run_calm : ∃ s, run RotSys.step {} calmActs = some s ∧
    HelloWritten 10 [] [helloRecord.entry] s :=
  run_eval _ _ _ _ (by decide +kernel)

/-- A poll sees one byte of the record, which is complete when the big batch rotates the file. -/
def tornActs : List RotAct := [.begin [helloRecord] 7, .write 1, .poll, .write 100]

theorem run_torn : ∃ s, run RotSys.step {} tornActs = some s ∧ HelloWritten 1 [49] [] s :=
  run_eval _ _ _ _ (by decide +kernel)

theorem complete_zero (rs : List Record) : recordFrames.complete rs 0 = [] := by
  cases rs with
  | nil => rfl
  | cons r rs =>
    have hpos : ¬ (recordFrames.enc r).length ≤ 0 := by
      have : recordFrames.enc r = r.encode := rfl
      simp [this, Record.encode, encodeRecordInto]
    rw [Frames.complete, if_neg hpos]

/-- A big batch and a poll, after either run. -/
theorem run_big {acts : List RotAct} {s : RotSys} (hr : run RotSys.step {} acts = some s)
    {pos : Nat} {leftover : Bytes} {sent : List LogEntry} (h : HelloWritten pos leftover sent s)
    {batch : List Record} (hbig : eventsRotateBytes < (encodeAll batch).length) :
    ∃ t, run RotSys.step {} ((acts ++ [.begin batch 8]) ++ [.poll]) = some t ∧
      t.completed = [helloRecord] ∧
      t.tx = (pollEventsOnce noPollFaults
        (fun n => if n = 0 then some ⟨8, []⟩ else if n = 1 then some ⟨7, helloRecord.encode⟩
          else none)
        ⟨pos, leftover, some 7⟩ ⟨sent, none⟩).2.2 := by
  obtain ⟨hbegun, hp, hrot, hino, hd, hstate, htx⟩ := h
  have hstep := step_begin_rotates hp hrot (rotationNeeded_of_big hbig s.dir) hino
  refine ⟨_, run_append.mpr ⟨_, run_append.mpr ⟨s, hr, run_cons.mpr ⟨_, hstep, rfl⟩⟩,
    run_cons.mpr ⟨_, rfl, rfl⟩⟩, ?_, ?_⟩
  · simp only [RotSys.completed, hbegun, encodeAll_append, List.length_append, Nat.add_sub_cancel]
    simp [Frames.complete, Frames.encAll, complete_zero]
  · show (pollEventsOnce noPollFaults (Logs.rotated 8 s.dir) s.state s.tx).2.2 = _
    rw [hstate, htx]
    have h0 : Logs.rotated 8 s.dir 0 = some ⟨8, []⟩ := Slots.set_self _ _ _
    have h1 : Logs.rotated 8 s.dir 1 = some ⟨7, helloRecord.encode⟩ := by
      rw [Logs.rotated, Slots.set_of_ne (by decide)]
      exact (Slots.shiftFrom_moved (Nat.le_refl 0) (by decide) s.dir).trans hd
    congr 2
    exact pollEventsOnce_congr h0 h1 _ _ _

/-- An empty line, and the batch of a pass that read 1310721 of them. -/
def emptyLine : Record := ⟨1000000, .stdout, [nl], by decide⟩

def emptyLines : List Record := List.replicate 1310721 emptyLine

theorem encodeAll_replicate (n : Nat) (r : Record) :
    (encodeAll (List.replicate n r)).length = n * r.encode.length := by
  induction n with
  | zero => simp [encodeAll]
  | succ n ih =>
    have e : recordFrames.enc r = r.encode := rfl
    rw [List.replicate_succ, encodeAll, recordFrames.encAll_cons, List.length_append, ih, e,
      Nat.add_mul, Nat.one_mul, Nat.add_comm]

theorem emptyLines_big : eventsRotateBytes < (encodeAll emptyLines).length := by
  rw [emptyLines, encodeAll_replicate]
  decide

theorem follow_calm_rotation : ∃ s,
    run RotSys.step {} ((calmActs ++ [.begin emptyLines 8]) ++ [.poll]) = some s ∧
    Along RotSys.step RotationSafe {} (calmActs ++ [.begin emptyLines 8]) ∧
    s.completed = [helloRecord] ∧ s.tx.sent = s.completed.map Record.entry := by
  obtain ⟨s, hr, h⟩ := run_calm
  obtain ⟨t, ht, hc, -⟩ := run_big hr h emptyLines_big
  have hok : Along RotSys.step RotationSafe {} (calmActs ++ [.begin emptyLines 8]) := by
    refine along_snoc (by decide +kernel) hr fun _ => ⟨?_, fun file hf => .inr ?_⟩
    · rw [h.2.2.2.2.2.1]
    · rw [h.2.2.2.2.1] at hf
      cases hf
      rw [h.2.2.2.2.2.1]
  exact ⟨t, ht, hok, hc, follow_rotations _ t ht hok⟩

/-- **A rotation loses the record the follower has read in part**: the rest of it in
`events.log.1` is decoded without its first byte. -/
theorem follow_torn_rotation : ∃ s,
    run RotSys.step {} ((tornActs ++ [.begin emptyLines 8]) ++ [.poll]) = some s ∧
    s.completed = [helloRecord] ∧ s.tx.sent = [] := by
  obtain ⟨s, hr, h⟩ := run_torn
  obtain ⟨t, ht, hc, htx⟩ := run_big hr h emptyLines_big
  exact ⟨t, ht, hc, by rw [htx]; decide +kernel⟩

end ContainerdManager.Logs
