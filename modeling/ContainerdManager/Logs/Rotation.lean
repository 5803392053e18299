import ContainerdManager.Logs.EventsDir

/-!
# Rotation keeps a contiguous history

Without faults a rotation, cut after any number of its operations, leaves
the files shifted up from some slot on (`rotateOps_take`). The files read
oldest first therefore always hold the records of a suffix of the appended
batches, and a batch leaves the last slot only in the sixth rotation begun
after it was appended: a file moves at most one slot per rotation.
-/

namespace ContainerdManager.Logs

open Lib

/-! ## The operations of a rotation in closed form -/

theorem run_rename (ino src dst : Nat) (dir : EventsDir) :
    RotateOp.run noFaults ino dir (.rename src dst) = dir.rename src dst := rfl

theorem run_create (ino : Nat) (dir : EventsDir) :
    RotateOp.run noFaults ino dir .create = openAppend ino dir := rfl

theorem rotateOps_get {k : Nat} (hk : k < maxRotatedFiles) :
    rotateOps[k + 1]? = some
      (.rename (maxRotatedFiles - (k + 1)) (maxRotatedFiles - (k + 1) + 1)) := by
  have : ∀ k < maxRotatedFiles,
      rotateOps[k + 1]? =
        some (.rename (maxRotatedFiles - (k + 1)) (maxRotatedFiles - (k + 1) + 1)) := by decide
  exact this k hk

/-- After `k + 1` operations the files from slot `maxRotatedFiles - k` on have moved. -/
theorem rotateOps_take {k : Nat} (hk : k ≤ maxRotatedFiles) (ino : Nat) (dir : EventsDir) :
    (rotateOps.take (k + 1)).foldl (RotateOp.run noFaults ino) dir =
      dir.shiftFrom (maxRotatedFiles - k) maxRotatedFiles := by
  induction k with
  | zero => exact Slots.remove_top _ dir
  | succ k ih =>
    rw [List.take_add_one, rotateOps_get (by omega), List.foldl_append, ih (by omega)]
    have e : maxRotatedFiles - k = maxRotatedFiles - (k + 1) + 1 := by omega
    rw [e, Option.toList_some, List.foldl_cons, List.foldl_nil, run_rename]
    exact Slots.rename_shiftFrom (by omega) dir

/-- The directory after a whole rotation. -/
def rotated (ino : Nat) (dir : EventsDir) : EventsDir :=
  (dir.shiftFrom 0 maxRotatedFiles).set 0 (some ⟨ino, []⟩)

theorem rotateOps_all (ino : Nat) (dir : EventsDir) :
    rotateOps.foldl (RotateOp.run noFaults ino) dir = rotated ino dir := by
  have e : rotateOps = rotateOps.take (maxRotatedFiles + 1) ++ [.create] := by decide
  rw [e, List.foldl_append, rotateOps_take (Nat.le_refl _), Nat.sub_self, List.foldl_cons,
    List.foldl_nil, run_create, openAppend, Slots.shiftFrom_gap, rotated]

/-- A rotation cut after `k` operations: nothing, a shift, or all of it. -/
theorem rotateOps_cut (k ino : Nat) (dir : EventsDir) :
    k = 0 ∨ (∃ m ≤ maxRotatedFiles, (rotateOps.take k).foldl (RotateOp.run noFaults ino) dir =
        dir.shiftFrom m maxRotatedFiles) ∨
      (rotateOps.take k).foldl (RotateOp.run noFaults ino) dir = rotated ino dir := by
  rcases k with _ | k
  · exact .inl rfl
  · right
    by_cases hk : k ≤ maxRotatedFiles
    · exact .inl ⟨_, Nat.sub_le _ _, rotateOps_take hk ino dir⟩
    · have hlen : rotateOps.length = maxRotatedFiles + 2 := by decide
      right
      rw [List.take_of_length_le (by omega), rotateOps_all]

/-- The directory a fault-free `append_batch` writes to. -/
def beforeAppend (ino : Nat) (dir : EventsDir) (incoming : Nat) : EventsDir :=
  if rotationNeeded dir incoming then rotated ino dir else openAppend ino dir

theorem openAppend_rotated (ino : Nat) (dir : EventsDir) :
    openAppend ino (rotated ino dir) = rotated ino dir := by
  rw [openAppend, rotated, Slots.set_self]

theorem appendBatch_noFaults (ino : Nat) (dir : EventsDir) (batch : Bytes) :
    appendBatch noFaults ino dir batch =
      (.ok (), appendBytes (beforeAppend ino dir batch.length) batch) := by
  unfold appendBatch rotateIfNeeded beforeAppend
  by_cases h : rotationNeeded dir batch.length
  · simp [noFaults, h]
    rw [rotateOps_all, openAppend_rotated]
  · simp [noFaults, h]

/-! ## Reading without faults -/

theorem parseEventsFile_nil : parseEventsFile [] = [] := rfl

/-- The entries of a file. -/
def EventsFile.entries (f : EventsFile) : List LogEntry := parseEventsFile f.bytes

theorem readEvents_ok (dir : EventsDir) (ns : List Nat) :
    readEvents (fun _ => false) dir ns =
      .ok (ns.flatMap fun n => (dir n).toList.flatMap EventsFile.entries) := by
  induction ns with
  | nil => rfl
  | cons n ns ih =>
    rw [readEvents, ih]
    cases h : dir n with
    | none => simp [readFileOrEmpty, h, parseEventsFile_nil]
    | some f => simp [readFileOrEmpty, h, EventsFile.entries]

theorem flatMap_filter_isSome (dir : EventsDir) (ns : List Nat) :
    (ns.filter fun n => (dir n).isSome).flatMap
        (fun n => (dir n).toList.flatMap EventsFile.entries) =
      ns.flatMap fun n => (dir n).toList.flatMap EventsFile.entries := by
  induction ns with
  | nil => rfl
  | cons n ns ih =>
    cases h : dir n with
    | none => simp [h, ih]
    | some f => simp [h, ih]

/-- The reader filters the entries of every file, oldest first. -/
theorem containerLogsFiltered_eq (dir : EventsDir) (filter : LogsFilter) :
    containerLogsFiltered (fun _ => false) dir filter =
      .ok (filter.apply ((dir.listing maxRotatedFiles).flatMap EventsFile.entries)) := by
  have hall : (List.range' 1 maxRotatedFiles).reverse = [5, 4, 3, 2, 1] := by decide
  have hl : dir.listing maxRotatedFiles = (dir 5).toList ++ ((dir 4).toList ++ ((dir 3).toList ++
      ((dir 2).toList ++ ((dir 1).toList ++ (dir 0).toList)))) := rfl
  rw [containerLogsFiltered, readEvents_ok, eventsFilesOldestFirst,
    List.flatMap_append, flatMap_filter_isSome, hall, hl]
  simp [Except.map]

/-- `container_logs` reads every file, oldest first. -/
theorem containerLogs_eq (dir : EventsDir) :
    containerLogs (fun _ => false) dir =
      .ok ((dir.listing maxRotatedFiles).flatMap EventsFile.entries) := by
  rw [containerLogs, containerLogsFiltered_eq]
  rfl

/-! ## Histories of append_batch calls -/

/-- A batch of whole records, with the number of rotations begun before it was appended. -/
structure Batch where
  recs : List Record
  begunAt : Nat

/-- The files, the batches appended so far and the rotations begun so far. -/
structure AppendHistory where
  dir : EventsDir
  batches : List Batch
  begun : Nat

def AppendHistory.init : AppendHistory := ⟨.empty, [], 0⟩

/-- An `append_batch` call that completes, or one aborted in its rotation after `k` operations.
`ino` is the inode a file created by the call gets. -/
inductive AppendCall where
  | complete (recs : List Record) (ino : Nat)
  | aborted (recs : List Record) (ino k : Nat)

def AppendHistory.call (h : AppendHistory) : AppendCall → AppendHistory
  | .complete recs ino =>
    let begun := if rotationNeeded h.dir (encodeAll recs).length then h.begun + 1 else h.begun
    { dir := (appendBatch noFaults ino h.dir (encodeAll recs)).2
      batches := h.batches ++ [⟨recs, begun⟩]
      begun := begun }
  | .aborted recs ino k =>
    -- a rotation has begun once its first operation was carried out
    if rotationNeeded h.dir (encodeAll recs).length ∧ 0 < k then
      { h with
        dir := (rotateOps.take k).foldl (RotateOp.run noFaults ino) h.dir
        begun := h.begun + 1 }
    else h

/-- The history after calls that all complete, each with the inode it would create a file
under. -/
def AppendHistory.appends (h : AppendHistory) (calls : List (List Record × Nat)) : AppendHistory :=
  (calls.map fun c => AppendCall.complete c.1 c.2).foldl AppendHistory.call h

theorem AppendHistory.appends_snoc (h : AppendHistory) (calls : List (List Record × Nat))
    (recs : List Record) (ino : Nat) :
    h.appends (calls ++ [(recs, ino)]) = (h.appends calls).call (.complete recs ino) := by
  simp [AppendHistory.appends]

theorem AppendHistory.appends_recs (h : AppendHistory) (calls : List (List Record × Nat)) :
    (h.appends calls).batches.map Batch.recs = h.batches.map Batch.recs ++ calls.map Prod.fst := by
  induction calls generalizing h with
  | nil => simp [AppendHistory.appends]
  | cons c calls ih =>
    refine (ih (h.call (.complete c.1 c.2))).trans ?_
    simp [AppendHistory.call]

/-- The bytes of a file holding these batches. -/
def encodeBatches (bs : List Batch) : Bytes := encodeAll (bs.flatMap Batch.recs)

/-- The files hold the batches `segs`, those of `dropped` are gone, and no batch is further up
the chain than rotations have begun since it was appended. -/
structure Retains (h : AppendHistory) (segs : Slots (List Batch)) (dropped : List Batch) :
    Prop where
  bytes : h.dir.map EventsFile.bytes = segs.map encodeBatches
  batches : h.batches = dropped ++ (segs.listing maxRotatedFiles).flatten
  age : ∀ n bs, segs n = some bs → ∀ b ∈ bs, b.begunAt + n ≤ h.begun
  gone : ∀ b ∈ dropped, b.begunAt + (maxRotatedFiles + 1) ≤ h.begun

theorem Retains.init : Retains .init (fun _ => none) [] where
  bytes := rfl
  batches := rfl
  age _ _ h := by cases h
  gone _ h := by cases h

/-- A rotation cut at slot `m` drops the oldest file at most. -/
theorem Retains.shift {h : AppendHistory} {segs : Slots (List Batch)} {dropped : List Batch}
    (hr : Retains h segs dropped) {m : Nat} (hm : m ≤ maxRotatedFiles) :
    Retains { h with dir := h.dir.shiftFrom m maxRotatedFiles, begun := h.begun + 1 }
      (segs.shiftFrom m maxRotatedFiles) (dropped ++ (segs maxRotatedFiles).toList.flatten) where
  bytes := by
    show (h.dir.shiftFrom m maxRotatedFiles).map _ = _
    rw [Slots.map_shiftFrom, hr.bytes, Slots.map_shiftFrom]
  batches := by
    have hsh : (segs.shiftFrom m maxRotatedFiles).listing maxRotatedFiles =
        segs.listing (maxRotatedFiles - 1) :=
      Slots.listing_shiftFrom segs hm (by decide)
    have hl : segs.listing maxRotatedFiles =
        (segs maxRotatedFiles).toList ++ segs.listing (maxRotatedFiles - 1) := rfl
    show h.batches = _
    rw [hr.batches, hsh, hl, List.flatten_append, List.append_assoc]
  age n bs hn b hb := by
    show b.begunAt + n ≤ h.begun + 1
    rcases Slots.shiftFrom_eq_some hn with hn | ⟨k, rfl, -, hk⟩
    · have := hr.age n bs hn b hb; omega
    · have := hr.age k bs hk b hb; omega
  gone b hb := by
    show b.begunAt + (maxRotatedFiles + 1) ≤ h.begun + 1
    rcases List.mem_append.mp hb with hb | hb
    · have := hr.gone b hb; omega
    · cases hs : segs maxRotatedFiles with
      | none => rw [hs] at hb; simp at hb
      | some bs =>
        rw [hs] at hb
        have := hr.age _ bs hs b (by simpa using hb)
        omega

/-- Creating an empty `events.log` where there is none. -/
theorem Retains.create {h : AppendHistory} {segs : Slots (List Batch)} {dropped : List Batch}
    (hr : Retains h segs dropped) (h0 : segs 0 = none) (ino : Nat) :
    Retains { h with dir := h.dir.set 0 (some ⟨ino, []⟩) } (segs.set 0 (some [])) dropped where
  bytes := by
    show (h.dir.set 0 _).map _ = _
    rw [Slots.map_set, Slots.map_set, hr.bytes]
    rfl
  batches := by
    have := hr.batches
    rw [Slots.listing_eq_upper, h0] at this
    show h.batches = _
    rw [Slots.listing_eq_upper, Slots.upper_set_zero, Slots.set_self, this]
    simp
  age n bs hn b hb := by
    by_cases h' : n = 0
    · subst h'
      rw [Slots.set_self] at hn
      cases hn
      cases hb
    · rw [Slots.set_of_ne h'] at hn
      exact hr.age n bs hn b hb
  gone := hr.gone

/-- The write at the end of `append_batch`. -/
theorem Retains.append {h : AppendHistory} {segs : Slots (List Batch)} {dropped : List Batch}
    (hr : Retains h segs dropped) {bs : List Batch} (h0 : segs 0 = some bs) (recs : List Record) :
    Retains ⟨appendBytes h.dir (encodeAll recs), h.batches ++ [⟨recs, h.begun⟩], h.begun⟩
      (segs.set 0 (some (bs ++ [⟨recs, h.begun⟩]))) dropped where
  bytes := by
    have hb : (h.dir 0).map EventsFile.bytes = some (encodeBatches bs) := by
      have := congrFun hr.bytes 0
      rwa [Slots.map_apply, Slots.map_apply, h0] at this
    obtain ⟨f, hf, hfb⟩ := Option.map_eq_some_iff.mp hb
    show (appendBytes h.dir (encodeAll recs)).map _ = _
    rw [appendBytes, hf, Slots.map_set, Slots.map_set, hr.bytes]
    simp [encodeBatches, hfb]
  batches := by
    have := hr.batches
    rw [Slots.listing_eq_upper, h0] at this
    show h.batches ++ _ = _
    rw [Slots.listing_eq_upper, Slots.upper_set_zero, Slots.set_self, this]
    simp
  age n bs' hn b hb := by
    by_cases h' : n = 0
    · subst h'
      rw [Slots.set_self] at hn
      cases hn
      rcases List.mem_append.mp hb with hb | hb
      · exact hr.age 0 bs h0 b hb
      · cases List.mem_singleton.mp hb
        exact Nat.le_refl _
    · rw [Slots.set_of_ne h'] at hn
      exact hr.age n bs' hn b hb
  gone := hr.gone

/-- A whole rotation. -/
theorem Retains.rotated {h : AppendHistory} {segs : Slots (List Batch)} {dropped : List Batch}
    (hr : Retains h segs dropped) (ino : Nat) :
    ∃ segs' dropped', Retains
      { h with dir := rotated ino h.dir, begun := h.begun + 1 } segs' dropped' ∧
      segs' 0 = some [] :=
  ⟨_, _, (hr.shift (Nat.zero_le _)).create (Slots.shiftFrom_gap _ _ _) ino, Slots.set_self _ _ _⟩

/-- Opening `events.log` for appending. -/
theorem Retains.openAppend {h : AppendHistory} {segs : Slots (List Batch)} {dropped : List Batch}
    (hr : Retains h segs dropped) (ino : Nat) :
    ∃ segs' dropped' bs, Retains { h with dir := openAppend ino h.dir } segs' dropped' ∧
      segs' 0 = some bs := by
  have hb := congrFun hr.bytes 0
  rw [Slots.map_apply, Slots.map_apply] at hb
  unfold Logs.openAppend
  cases hd : h.dir 0 with
  | none =>
    rw [hd, Option.map_none] at hb
    have h0 : segs 0 = none := Option.map_eq_none_iff.mp hb.symm
    exact ⟨_, _, _, hr.create h0 ino, Slots.set_self _ _ _⟩
  | some f =>
    rw [hd, Option.map_some] at hb
    obtain ⟨bs, h0, -⟩ := Option.map_eq_some_iff.mp hb.symm
    exact ⟨segs, dropped, bs, hr, h0⟩

theorem Retains.call {h : AppendHistory} {segs : Slots (List Batch)} {dropped : List Batch}
    (hr : Retains h segs dropped) (c : AppendCall) :
    ∃ segs' dropped', Retains (h.call c) segs' dropped' := by
  cases c with
  | complete recs ino =>
    simp only [AppendHistory.call, appendBatch_noFaults, beforeAppend]
    split
    · obtain ⟨segs', dropped', hr', h0⟩ := hr.rotated ino
      exact ⟨_, _, hr'.append h0 recs⟩
    · obtain ⟨segs', dropped', bs, hr', h0⟩ := hr.openAppend ino
      exact ⟨_, _, hr'.append h0 recs⟩
  | aborted recs ino k =>
    simp only [AppendHistory.call]
    split
    · rename_i hc
      rcases rotateOps_cut k ino h.dir with rfl | ⟨m, hm, e⟩ | e
      · exact absurd hc.2 (Nat.lt_irrefl 0)
      · rw [e]; exact ⟨_, _, hr.shift hm⟩
      · obtain ⟨segs', dropped', hr', -⟩ := hr.rotated ino
        rw [e]; exact ⟨_, _, hr'⟩
    · exact ⟨_, _, hr⟩

theorem Retains.foldl {h : AppendHistory} {segs : Slots (List Batch)} {dropped : List Batch}
    (hr : Retains h segs dropped) (calls : List AppendCall) :
    ∃ segs' dropped', Retains (calls.foldl AppendHistory.call h) segs' dropped' := by
  refine List.foldlRecOn (motive := fun h => ∃ segs dropped, Retains h segs dropped) calls
    AppendHistory.call ⟨_, _, hr⟩ ?_
  rintro h ⟨segs, dropped, hr⟩ c -
  exact hr.call c

theorem Retains.calls (calls : List AppendCall) :
    ∃ segs dropped, Retains (calls.foldl AppendHistory.call .init) segs dropped :=
  Retains.init.foldl calls

/-- The files of a history parse to the records of the batches they hold. -/
theorem Retains.containerLogs {h : AppendHistory} {segs : Slots (List Batch)} {dropped : List Batch}
    (hr : Retains h segs dropped) :
    Logs.containerLogs (fun _ => false) h.dir =
      .ok (((segs.listing maxRotatedFiles).flatten.flatMap Batch.recs).map Record.entry) := by
  have hl : (h.dir.listing maxRotatedFiles).map EventsFile.bytes =
      (segs.listing maxRotatedFiles).map encodeBatches := by
    rw [← Slots.listing_map, ← Slots.listing_map, hr.bytes]
  have hp : (h.dir.listing maxRotatedFiles).flatMap EventsFile.entries =
      ((h.dir.listing maxRotatedFiles).map EventsFile.bytes).flatMap parseEventsFile := by
    rw [List.flatMap_map]; rfl
  rw [containerLogs_eq, hp, hl, List.flatMap_map]
  congr 1
  induction segs.listing maxRotatedFiles with
  | nil => rfl
  | cons bs rest ih =>
    rw [List.flatMap_cons, ih, encodeBatches, parseEventsFile_encodeAll]
    simp

/-- The files, read oldest first, yield the records of the batches from some `k` on; a batch before
`k` has seen at least `maxRotatedFiles + 1` rotations begin since it was appended. -/
def AppendHistory.Filed (h : AppendHistory) : Prop :=
  ∃ k ≤ h.batches.length,
    Logs.containerLogs (fun _ => false) h.dir =
      .ok (((h.batches.drop k).flatMap Batch.recs).map Record.entry) ∧
    ∀ b ∈ h.batches.take k, b.begunAt + (maxRotatedFiles + 1) ≤ h.begun

theorem Retains.filed {h : AppendHistory} {segs : Slots (List Batch)} {dropped : List Batch}
    (hr : Retains h segs dropped) : h.Filed := by
  refine ⟨dropped.length, ?_, ?_, ?_⟩
  · rw [hr.batches, List.length_append]; omega
  · rw [hr.containerLogs, hr.batches, List.drop_left]
  · rw [hr.batches, List.take_left]
    exact hr.gone

/-- `batches` are what `append_batch` was handed since the history `before`, in `calls` that all
completed: `dir` is what they made of the files of `before`, it reads back to the records of
`before` and of the calls but for what rotations have pushed out, and `events.log` ends in the last
batch. -/
structure Appended (before : AppendHistory) (calls : List (List Record × Nat))
    (batches : List Bytes) (dir : EventsDir) : Prop where
  handed : batches = calls.map fun c => encodeAll c.1
  files : dir = (before.appends calls).dir
  recs : (before.appends calls).batches.map Batch.recs =
    before.batches.map Batch.recs ++ calls.map Prod.fst
  filed : (before.appends calls).Filed
  last : ∀ batch ∈ batches.getLast?, batch <:+ dir.logBytes

/-- A call that completes leaves its batch at the end of `events.log`. -/
theorem appendBatch_last (ino : Nat) (dir : EventsDir) (batch : Bytes) :
    batch <:+ (appendBatch noFaults ino dir batch).2.logBytes := by
  rw [appendBatch_noFaults, beforeAppend]
  split
  · rw [← openAppend_rotated, logBytes_append]
    exact List.suffix_append _ _
  · rw [logBytes_append]
    exact List.suffix_append _ _

theorem Retains.appended {before : AppendHistory} {segs : Slots (List Batch)} {dropped : List Batch}
    (hr : Retains before segs dropped) (calls : List (List Record × Nat)) :
    Appended before calls (calls.map fun c => encodeAll c.1) (before.appends calls).dir where
  handed := rfl
  files := rfl
  recs := before.appends_recs calls
  filed := by
    obtain ⟨segs', dropped', hr'⟩ := hr.foldl (calls.map fun c => AppendCall.complete c.1 c.2)
    exact hr'.filed
  last batch hb := by
    rcases List.eq_nil_or_concat calls with rfl | ⟨calls, c, rfl⟩
    · cases hb
    · obtain rfl : encodeAll c.1 = batch := by simpa using hb
      rw [List.concat_eq_append, before.appends_snoc]
      exact appendBatch_last _ _ _

/-- **Rotation keeps a contiguous history.** However many `append_batch` calls are made, and
wherever their rotations are cut, the files read oldest first yield the records of the batches
from some `k` on, in order; a batch before `k` has seen at least `maxRotatedFiles + 1` rotations
begin since it was appended. -/
theorem rotation_history (calls : List AppendCall) :
    ∃ k ≤ (calls.foldl AppendHistory.call .init).batches.length,
      containerLogs (fun _ => false) (calls.foldl AppendHistory.call .init).dir =
        .ok ((((calls.foldl AppendHistory.call .init).batches.drop k).flatMap Batch.recs).map
          Record.entry) ∧
      ∀ b ∈ (calls.foldl AppendHistory.call .init).batches.take k,
        b.begunAt + (maxRotatedFiles + 1) ≤ (calls.foldl AppendHistory.call .init).begun := by
  obtain ⟨segs, dropped, hr⟩ := Retains.calls calls
  exact hr.filed

end ContainerdManager.Logs
