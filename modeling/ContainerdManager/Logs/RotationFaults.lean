import ContainerdManager.Logs.Rotation

/-!
# append_batch with failing file operations

What the events files still hold when operations of a rotation or of the
append fail. A failing removal or rename is passed over, and the next rename
then moves its file onto the one that stayed; `RotationKeeps` says which
rotations leave nothing non-empty behind, and `AppendKeeps` which
`append_batch` calls add their batch and lose no record.
-/

namespace ContainerdManager.Logs

open Lib

/-! ## The records in the files -/

/-- The entries `container_logs` reads, oldest first. -/
def recorded (dir : EventsDir) : List LogEntry :=
  (dir.listing maxRotatedFiles).flatMap EventsFile.entries

theorem containerLogs_recorded (dir : EventsDir) :
    containerLogs (fun _ => false) dir = .ok (recorded dir) := containerLogs_eq dir

/-- The slots of the events files, oldest first. -/
def eventsSlots : List Nat := [5, 4, 3, 2, 1, 0]

theorem recorded_eq_collect (dir : EventsDir) :
    recorded dir = dir.collect EventsFile.entries eventsSlots := by
  simp [recorded, Slots.listing, Slots.collect, eventsSlots, maxRotatedFiles]

/-- The bytes of log data in a list of entries. -/
def bytesIn (es : List LogEntry) : Nat := (es.flatMap LogEntry.data).length

@[simp] theorem bytesIn_nil : bytesIn [] = 0 := rfl

@[simp] theorem bytesIn_append (es fs : List LogEntry) :
    bytesIn (es ++ fs) = bytesIn es + bytesIn fs := by
  simp [bytesIn]

/-- A file of whole records, none of them without data. -/
def EventsFile.Whole (f : EventsFile) : Prop :=
  ∃ recs : List Record, f.bytes = encodeAll recs ∧ ∀ r ∈ recs, r.data ≠ []

def EventsDir.Whole (dir : EventsDir) : Prop := ∀ n f, dir n = some f → f.Whole

theorem Whole.nil (ino : Nat) : EventsFile.Whole ⟨ino, []⟩ := ⟨[], rfl, by simp⟩

theorem bytesIn_pos {recs : List Record} (hne : recs ≠ []) (hdata : ∀ r ∈ recs, r.data ≠ []) :
    0 < bytesIn (recs.map Record.entry) := by
  cases recs with
  | nil => exact absurd rfl hne
  | cons r recs =>
    have := List.length_pos_iff.mpr (hdata r List.mem_cons_self)
    simp only [bytesIn, List.map_cons, List.flatMap_cons, List.length_append, Record.entry]
    omega

/-- A file that is not empty holds log data. -/
theorem EventsFile.Whole.pos {f : EventsFile} (h : f.Whole) (hne : f.bytes ≠ []) :
    0 < bytesIn f.entries := by
  obtain ⟨recs, hb, hdata⟩ := h
  rw [EventsFile.entries, hb, parseEventsFile_encodeAll]
  refine bytesIn_pos ?_ hdata
  rintro rfl
  exact hne hb

theorem entries_of_empty {f : EventsFile} (h : f.bytes = []) : f.entries = [] := by
  rw [EventsFile.entries, h]; rfl

/-! ## One operation -/

/-- The file an operation of a rotation removes or overwrites. -/
def RotateOp.drops (io : IoFaults) (dir : EventsDir) : RotateOp → Option EventsFile
  | .remove n => if io .removeOldest then none else dir n
  | .rename src dst => if io (.renameEvents src) = false ∧ (dir src).isSome then dir dst else none
  | .create => none

/-- `after` is `before` without one stretch of entries. -/
def Without (before lost after : List LogEntry) : Prop :=
  ∃ pre post, before = pre ++ (lost ++ post) ∧ after = pre ++ post

theorem Without.none (es : List LogEntry) : Without es [] es := ⟨es, [], by simp, by simp⟩

theorem Without.eq {before after : List LogEntry} (h : Without before [] after) :
    after = before := by
  obtain ⟨pre, post, rfl, rfl⟩ := h; rfl

theorem Without.bytes {before lost after : List LogEntry} (h : Without before lost after) :
    bytesIn after + bytesIn lost = bytesIn before := by
  obtain ⟨pre, post, rfl, rfl⟩ := h
  simp only [bytesIn_append]
  omega

theorem erase_without (dir : EventsDir) {n : Nat} (hn : n ∈ eventsSlots) :
    Without (recorded dir) ((dir n).toList.flatMap EventsFile.entries)
      (recorded (dir.set n none)) := by
  rw [recorded_eq_collect, recorded_eq_collect]
  exact Slots.collect_erase _ dir hn (by decide)

theorem recorded_openAppend (ino : Nat) (dir : EventsDir) :
    recorded (openAppend ino dir) = recorded dir := by
  unfold openAppend
  cases h : dir 0 with
  | some f => rfl
  | none =>
    dsimp only
    rw [recorded_eq_collect, recorded_eq_collect]
    refine Slots.collect_congr fun n _ => ?_
    by_cases hn : n = 0
    · subst hn
      rw [Slots.set_self, h]
      rfl
    · rw [Slots.set_of_ne hn]

/-- **What one operation of a rotation takes out of the log** is the file it drops. -/
theorem run_without {op : RotateOp} (hop : op ∈ rotateOps) (io : IoFaults) (ino : Nat)
    (dir : EventsDir) :
    Without (recorded dir) ((op.drops io dir).toList.flatMap EventsFile.entries)
      (recorded (op.run io ino dir)) := by
  have hslots : ∀ n, op = .remove n → n ∈ eventsSlots := by
    rintro n rfl
    revert hop
    simp only [rotateOps, eventsSlots, maxRotatedFiles]
    simp
    omega
  have hmove : ∀ src dst, op = .rename src dst →
      dst = src + 1 ∧ dst ∈ eventsSlots ∧ (src ∈ eventsSlots ↔ src + 1 ∈ eventsSlots) := by
    rintro src dst rfl
    revert hop
    simp only [rotateOps, eventsSlots, maxRotatedFiles]
    simp
    omega
  cases op with
  | remove n =>
    simp only [RotateOp.drops, RotateOp.run]
    split
    · exact .none _
    · exact erase_without dir (hslots n rfl)
  | rename src dst =>
    obtain ⟨rfl, hdst, hboth⟩ := hmove src dst rfl
    simp only [RotateOp.drops, RotateOp.run]
    cases hio : io (.renameEvents src) with
    | true => exact .none _
    | false =>
      simp only [true_and, Bool.false_eq_true, if_false]
      by_cases hs : (dir src).isSome
      · rw [if_pos hs]
        have hmv : recorded (dir.rename src (src + 1)) = recorded (dir.set (src + 1) none) := by
          rw [← Slots.rename_erase hs, recorded_eq_collect, recorded_eq_collect]
          exact Slots.collect_rename _ _ (Slots.set_self _ _ _) (by decide) hboth
        rw [hmv]
        exact erase_without dir hdst
      · rw [if_neg hs, Slots.rename, Option.not_isSome_iff_eq_none.mp hs]
        exact .none _
  | create =>
    simp only [RotateOp.drops, RotateOp.run]
    split
    · exact .none _
    · rw [recorded_openAppend]; exact .none _

/-- Every file after an operation was there before or is new and empty. -/
theorem run_whole (op : RotateOp) (io : IoFaults) (ino : Nat) {dir : EventsDir} (h : dir.Whole) :
    (op.run io ino dir).Whole := by
  have hset : ∀ (d : EventsDir) n v, d.Whole → (∀ f, v = some f → f.Whole) →
      EventsDir.Whole (d.set n v) := by
    intro d n v hd hv k f hk
    by_cases hkn : k = n
    · subst hkn; rw [Slots.set_self] at hk; exact hv f hk
    · rw [Slots.set_of_ne hkn] at hk; exact hd k f hk
  have hnone : ∀ f : EventsFile, (none : Option EventsFile) = some f → f.Whole :=
    fun _ e => by cases e
  cases op with
  | remove n =>
    simp only [RotateOp.run]
    split
    · exact h
    · exact hset _ _ _ h hnone
  | rename src dst =>
    simp only [RotateOp.run, Slots.rename]
    split
    · exact h
    · split
      · exact h
      · rename_i f hf
        exact hset _ _ _ (hset _ _ _ h fun g hg => by cases hg; exact h src f hf) hnone
  | create =>
    simp only [RotateOp.run, openAppend]
    split
    · exact h
    · split
      · exact h
      · exact hset _ _ _ h fun g hg => by cases hg; exact Whole.nil ino

/-! ## A rotation -/

/-- The file in slot `n` is not moved out of the way: its rename, or its removal, fails. -/
def stuck (io : IoFaults) (n : Nat) : Bool :=
  if n = maxRotatedFiles then io .removeOldest else io (.renameEvents n)

/-- There is no file in slot `n`, or an empty one. -/
def EventsDir.EmptyAt (dir : EventsDir) (n : Nat) : Prop := ∀ f, dir n = some f → f.bytes = []

/-- Renaming slot `n` up overwrites nothing but an empty file. -/
def RenameKeeps (io : IoFaults) (dir : EventsDir) (n : Nat) : Prop :=
  (dir n).isSome → io (.renameEvents n) = false → stuck io (n + 1) = true → dir.EmptyAt (n + 1)

/-- A rotation drops nothing but empty files: the oldest one is pruned, and the others are
overwritten when they are stuck and the file below them moves. -/
def RotationKeeps (io : IoFaults) (dir : EventsDir) : Prop :=
  (io .removeOldest = false → dir.EmptyAt maxRotatedFiles) ∧
    ∀ n < maxRotatedFiles, RenameKeeps io dir n

/-- An operation either drops nothing of the log or makes it smaller. -/
theorem run_keeps_or {op : RotateOp} (hop : op ∈ rotateOps) (io : IoFaults) (ino : Nat)
    {dir : EventsDir} (hw : dir.Whole)
    (hdrop : ∀ f, op.drops io dir = some f → ∃ n, dir n = some f) :
    ((∀ f, op.drops io dir = some f → f.bytes = []) ∧
        recorded (op.run io ino dir) = recorded dir) ∨
      ((∃ f, op.drops io dir = some f ∧ f.bytes ≠ []) ∧
        bytesIn (recorded (op.run io ino dir)) < bytesIn (recorded dir)) := by
  have hwo := run_without hop io ino dir
  cases hd : op.drops io dir with
  | none =>
    rw [hd] at hwo
    exact .inl ⟨by simp, hwo.eq⟩
  | some f =>
    obtain ⟨n, hn⟩ := hdrop f hd
    have hlost : (some f).toList.flatMap EventsFile.entries = f.entries := by simp
    rw [hd, hlost] at hwo
    by_cases hb : f.bytes = []
    · rw [entries_of_empty hb] at hwo
      exact .inl ⟨fun g hg => by cases hg; exact hb, hwo.eq⟩
    · have hpos := (hw n f hn).pos hb
      have hbytes := hwo.bytes
      exact .inr ⟨⟨f, rfl, hb⟩, by omega⟩

theorem drops_mem {op : RotateOp} {io : IoFaults} {dir : EventsDir} {f : EventsFile}
    (h : op.drops io dir = some f) : ∃ n, dir n = some f := by
  cases op with
  | remove n =>
    simp only [RotateOp.drops] at h
    split at h
    · cases h
    · exact ⟨n, h⟩
  | rename src dst =>
    simp only [RotateOp.drops] at h
    split at h
    · exact ⟨dst, h⟩
    · cases h
  | create => cases h

/-- The condition for the part of a rotation that has reached slot `m`. -/
def KeepsDownTo (io : IoFaults) (dir : EventsDir) (m : Nat) : Prop :=
  (io .removeOldest = false → dir.EmptyAt maxRotatedFiles) ∧
    ∀ n < maxRotatedFiles, m ≤ n → RenameKeeps io dir n

/-- A rotation cut at slot `m`: the slots below are untouched, slot `m` is free unless it is stuck,
and the log has lost nothing or is smaller. -/
structure CutAt (io : IoFaults) (dir : EventsDir) (m : Nat) (cut : EventsDir) : Prop where
  below : ∀ j < m, cut j = dir j
  at_ : cut m = if stuck io m then dir m else none
  whole : cut.Whole
  kept : (KeepsDownTo io dir m ∧ recorded cut = recorded dir) ∨
    (¬ KeepsDownTo io dir m ∧ bytesIn (recorded cut) < bytesIn (recorded dir))

theorem CutAt.remove {io : IoFaults} {dir : EventsDir} (hw : dir.Whole) (ino : Nat) :
    CutAt io dir maxRotatedFiles (RotateOp.run io ino dir (.remove maxRotatedFiles)) := by
  have hdrops : (RotateOp.remove maxRotatedFiles).drops io dir =
      if io .removeOldest then none else dir maxRotatedFiles := rfl
  have hiff : KeepsDownTo io dir maxRotatedFiles ↔
      ∀ f, (RotateOp.remove maxRotatedFiles).drops io dir = some f → f.bytes = [] := by
    rw [hdrops]
    cases hio : io .removeOldest with
    | true => simp [KeepsDownTo, hio]; omega
    | false =>
      simp only [KeepsDownTo, hio, true_implies, Bool.false_eq_true, if_false]
      exact ⟨fun h => h.1, fun h => ⟨h, fun n hn hm => absurd hn (by omega)⟩⟩
  refine ⟨fun j hj => ?_, ?_, run_whole _ io ino hw, ?_⟩
  · simp only [RotateOp.run]
    split
    · rfl
    · exact Slots.set_of_ne (by omega) _ _
  · simp only [RotateOp.run, stuck, if_true]
    split
    · rfl
    · exact Slots.set_self _ _ _
  · rw [hiff]
    refine (run_keeps_or (by decide) io ino hw fun f => drops_mem).imp_right ?_
    rintro ⟨⟨f, hf, hb⟩, hlt⟩
    exact ⟨fun h => hb (h f hf), hlt⟩

/-- The next rename of a rotation. -/
theorem CutAt.rename {io : IoFaults} {dir cut : EventsDir} {m : Nat} (h : CutAt io dir (m + 1) cut)
    (hm : m < maxRotatedFiles) (ino : Nat) :
    CutAt io dir m (RotateOp.run io ino cut (.rename m (m + 1))) := by
  have hop : RotateOp.rename m (m + 1) ∈ rotateOps := by
    have : ∀ m < maxRotatedFiles, RotateOp.rename m (m + 1) ∈ rotateOps := by decide
    exact this m hm
  have hsrc : cut m = dir m := h.below m (by omega)
  have hstuck : stuck io m = io (.renameEvents m) := if_neg (by omega)
  -- the file this rename overwrites is the stuck one above it
  have hiff : (∀ f, (RotateOp.rename m (m + 1)).drops io cut = some f → f.bytes = []) ↔
      RenameKeeps io dir m := by
    simp only [RotateOp.drops, RenameKeeps, hsrc, h.at_, EventsDir.EmptyAt]
    cases io (.renameEvents m) <;> cases (dir m).isSome <;> cases stuck io (m + 1) <;> simp
  have hdown : KeepsDownTo io dir m ↔ KeepsDownTo io dir (m + 1) ∧ RenameKeeps io dir m := by
    constructor
    · exact fun hk => ⟨⟨hk.1, fun n hn hle => hk.2 n hn (by omega)⟩, hk.2 m hm (Nat.le_refl m)⟩
    · rintro ⟨hk, hmk⟩
      refine ⟨hk.1, fun n hn hle => ?_⟩
      rcases Nat.eq_or_lt_of_le hle with rfl | hlt
      · exact hmk
      · exact hk.2 n hn hlt
  refine ⟨fun j hj => ?_, ?_, run_whole _ io ino h.whole, ?_⟩
  · rw [← h.below j (by omega)]
    simp only [RotateOp.run]
    split
    · rfl
    · exact Slots.rename_other (by omega) (by omega) cut
  · rw [hstuck]
    simp only [RotateOp.run]
    split
    · exact hsrc
    · exact Slots.rename_src _ _ cut
  · rw [hdown, ← hiff]
    rcases h.kept with ⟨hk, he⟩ | ⟨hk, hlt⟩ <;>
      rcases run_keeps_or hop io ino h.whole (fun f => drops_mem) with ⟨hr, he'⟩ |
        ⟨⟨f, hf, hb⟩, hlt'⟩
    · exact .inl ⟨⟨hk, hr⟩, he'.trans he⟩
    · exact .inr ⟨fun hc => hb (hc.2 f hf), by rw [← he]; exact hlt'⟩
    · exact .inr ⟨fun hc => hk hc.1, by rw [he']; exact hlt⟩
    · exact .inr ⟨fun hc => hk hc.1, by omega⟩

/-- After its removal and `k` renames a rotation has reached slot `maxRotatedFiles - k`. -/
theorem cutAt_take (io : IoFaults) {dir : EventsDir} (hw : dir.Whole) (ino : Nat) {k : Nat}
    (hk : k ≤ maxRotatedFiles) :
    CutAt io dir (maxRotatedFiles - k)
      ((rotateOps.take (k + 1)).foldl (RotateOp.run io ino) dir) := by
  induction k with
  | zero => exact CutAt.remove hw ino
  | succ k ih =>
    rw [List.take_add_one, rotateOps_get (by omega), List.foldl_append]
    refine CutAt.rename ?_ (by omega) ino
    rw [show maxRotatedFiles - (k + 1) + 1 = maxRotatedFiles - k by omega]
    exact ih (by omega)

/-- **A rotation with failing operations** keeps the log, or makes it smaller. -/
theorem rotateOps_faults (io : IoFaults) {dir : EventsDir} (hw : dir.Whole) (ino : Nat) :
    EventsDir.Whole (rotateOps.foldl (RotateOp.run io ino) dir) ∧
      ((RotationKeeps io dir ∧ recorded (rotateOps.foldl (RotateOp.run io ino) dir) =
        recorded dir) ∨
        (¬ RotationKeeps io dir ∧
          bytesIn (recorded (rotateOps.foldl (RotateOp.run io ino) dir)) <
            bytesIn (recorded dir))) := by
  have e : rotateOps = rotateOps.take (maxRotatedFiles + 1) ++ [.create] := by decide
  have hcut := cutAt_take io hw ino (Nat.le_refl maxRotatedFiles)
  rw [Nat.sub_self] at hcut
  have hkeeps : KeepsDownTo io dir 0 ↔ RotationKeeps io dir := by simp [KeepsDownTo, RotationKeeps]
  have hcreate : ∀ d, recorded (RotateOp.run io ino d .create) = recorded d := by
    intro d
    simp only [RotateOp.run]
    split
    · rfl
    · exact recorded_openAppend ino d
  rw [e, List.foldl_append, List.foldl_cons, List.foldl_nil, hcreate, ← hkeeps]
  exact ⟨run_whole _ io ino hcut.whole, hcut.kept⟩

/-! ## append_batch -/

/-- The batch is appended and no record is dropped. -/
structure AppendKeeps (io : IoFaults) (dir : EventsDir) (incoming : Nat) : Prop where
  stat : io .statEvents = false
  open_ : io .openEvents = false
  write : io .writeEvents = false
  create : rotationNeeded dir incoming → io .createEvents = false
  rotation : rotationNeeded dir incoming → RotationKeeps io dir

theorem recorded_appendBytes {dir : EventsDir} (hw : dir.Whole) (ino : Nat) {recs : List Record}
    (hdata : ∀ r ∈ recs, r.data ≠ []) :
    recorded (appendBytes (openAppend ino dir) (encodeAll recs)) =
        recorded dir ++ recs.map Record.entry ∧
      EventsDir.Whole (appendBytes (openAppend ino dir) (encodeAll recs)) := by
  have hwo : EventsDir.Whole (openAppend ino dir) := run_whole .create noFaults ino hw
  obtain ⟨f, hf⟩ : ∃ f, openAppend ino dir 0 = some f := by
    unfold openAppend
    cases h : dir 0 with
    | none => exact ⟨_, Slots.set_self _ _ _⟩
    | some f => exact ⟨f, h⟩
  obtain ⟨old, hb, hold⟩ := hwo 0 f hf
  rw [← recorded_openAppend ino dir]
  generalize openAppend ino dir = d at hwo hf
  have hbytes : f.bytes ++ encodeAll recs = encodeAll (old ++ recs) := by
    rw [hb, encodeAll_append]
  unfold appendBytes
  simp only [hf]
  constructor
  · have hsplit : eventsSlots = [5, 4, 3, 2, 1] ++ [0] := rfl
    rw [recorded_eq_collect, recorded_eq_collect, hsplit, Slots.collect_append,
      Slots.collect_append,
      Slots.collect_set_of_not_mem _ _ (by decide), List.append_assoc]
    congr 1
    have hnew : parseEventsFile (f.bytes ++ encodeAll recs) =
        parseEventsFile f.bytes ++ recs.map Record.entry := by
      rw [hbytes, hb, parseEventsFile_encodeAll, parseEventsFile_encodeAll, List.map_append]
    simp [hf, EventsFile.entries, hnew]
  · intro n g hg
    by_cases hn : n = 0
    · subst hn
      rw [Slots.set_self] at hg
      cases hg
      refine ⟨old ++ recs, hbytes, fun r hr => ?_⟩
      rcases List.mem_append.mp hr with hr | hr
      · exact hold r hr
      · exact hdata r hr
    · rw [Slots.set_of_ne hn] at hg
      exact hwo n g hg

/-- The open and the write of `append_batch`, behind its rotation. -/
def openAndWrite (io : IoFaults) (ino : Nat) (dir : EventsDir) (batch : Bytes) : EventsDir :=
  if io .openEvents then dir
  else if io .writeEvents then openAppend ino dir
  else appendBytes (openAppend ino dir) batch

theorem appendBatch_dir (io : IoFaults) (ino : Nat) (dir : EventsDir) (batch : Bytes) :
    (appendBatch io ino dir batch).2 =
      if io .statEvents then dir
      else if rotationNeeded dir batch.length then
        if io .createEvents then rotateOps.foldl (RotateOp.run io ino) dir
        else openAndWrite io ino (rotateOps.foldl (RotateOp.run io ino) dir) batch
      else openAndWrite io ino dir batch := by
  unfold appendBatch rotateIfNeeded openAndWrite
  cases io .statEvents
  · by_cases hn : rotationNeeded dir batch.length
    · cases io .createEvents <;> cases io .openEvents <;> cases io .writeEvents <;> simp [hn]
    · cases io .openEvents <;> cases io .writeEvents <;> simp [hn]
  · rfl

theorem openAndWrite_faults (io : IoFaults) (ino : Nat) {dir : EventsDir} (hw : dir.Whole)
    {recs : List Record} (hdata : ∀ r ∈ recs, r.data ≠ []) :
    EventsDir.Whole (openAndWrite io ino dir (encodeAll recs)) ∧
      recorded (openAndWrite io ino dir (encodeAll recs)) =
        if io .openEvents = false ∧ io .writeEvents = false then
          recorded dir ++ recs.map Record.entry
        else recorded dir := by
  unfold openAndWrite
  cases io .openEvents
  · cases io .writeEvents
    · exact ⟨(recorded_appendBytes hw ino hdata).2, (recorded_appendBytes hw ino hdata).1⟩
    · exact ⟨run_whole .create noFaults ino hw, recorded_openAppend ino dir⟩
  · exact ⟨hw, rfl⟩

/-- **An append_batch call with failing operations** either adds its batch to the log and loses
nothing, or leaves less than the log and the batch together. -/
theorem appendBatch_faults (io : IoFaults) (ino : Nat) {dir : EventsDir} (hw : dir.Whole)
    {recs : List Record} (hne : recs ≠ []) (hdata : ∀ r ∈ recs, r.data ≠ []) :
    EventsDir.Whole (appendBatch io ino dir (encodeAll recs)).2 ∧
      ((AppendKeeps io dir (encodeAll recs).length ∧
          recorded (appendBatch io ino dir (encodeAll recs)).2 =
            recorded dir ++ recs.map Record.entry) ∨
        (¬ AppendKeeps io dir (encodeAll recs).length ∧
          bytesIn (recorded (appendBatch io ino dir (encodeAll recs)).2) <
            bytesIn (recorded dir) + bytesIn (recs.map Record.entry))) := by
  have hpos := bytesIn_pos hne hdata
  rw [appendBatch_dir]
  cases hstat : io .statEvents with
  | true =>
    refine ⟨hw, .inr ⟨fun h => ?_, by rw [if_pos rfl]; omega⟩⟩
    have := h.stat
    rw [hstat] at this
    cases this
  | false =>
    rw [if_neg Bool.false_ne_true]
    by_cases hn : rotationNeeded dir (encodeAll recs).length
    · rw [if_pos hn]
      obtain ⟨hwr, hrot⟩ := rotateOps_faults io hw ino
      obtain ⟨hwo, hfin⟩ := openAndWrite_faults io ino hwr hdata
      have hle : bytesIn (recorded (rotateOps.foldl (RotateOp.run io ino) dir)) ≤
          bytesIn (recorded dir) := by
        rcases hrot with ⟨-, he⟩ | ⟨-, hlt⟩
        · exact Nat.le_of_eq (congrArg bytesIn he)
        · omega
      cases hcreate : io .createEvents with
      | true =>
        refine ⟨hwr, .inr ⟨fun h => ?_, by rw [if_pos rfl]; omega⟩⟩
        have := h.create hn
        rw [hcreate] at this
        cases this
      | false =>
        rw [if_neg Bool.false_ne_true]
        refine ⟨hwo, ?_⟩
        rw [hfin]
        by_cases how : io .openEvents = false ∧ io .writeEvents = false
        · rw [if_pos how]
          rcases hrot with ⟨hk, he⟩ | ⟨hk, hlt⟩
          · exact .inl ⟨⟨hstat, how.1, how.2, fun _ => hcreate, fun _ => hk⟩, by rw [he]⟩
          · exact .inr ⟨fun h => hk (h.rotation hn), by rw [bytesIn_append]; omega⟩
        · rw [if_neg how]
          exact .inr ⟨fun h => how ⟨h.open_, h.write⟩, by omega⟩
    · rw [if_neg hn]
      obtain ⟨hwo, hfin⟩ := openAndWrite_faults io ino hw hdata
      refine ⟨hwo, ?_⟩
      rw [hfin]
      by_cases how : io .openEvents = false ∧ io .writeEvents = false
      · rw [if_pos how]
        exact .inl ⟨⟨hstat, how.1, how.2, fun h => absurd h hn, fun h => absurd h hn⟩, rfl⟩
      · rw [if_neg how]
        exact .inr ⟨fun h => how ⟨h.open_, h.write⟩, by omega⟩

end ContainerdManager.Logs
