import ContainerdManager.Lib.Runs
import ContainerdManager.Logs.RotatedFollow

/-!
# Reading the logs while they rotate

`container_logs_filtered` of `src/logs.rs` looks which rotated files exist
and then reads them one by one, oldest first; `append_batch` of
`src/log_tailer.rs` renames the same files upwards one by one. `ReadSys`
interleaves the two. The reader visits the slots from the top down, so a
file is lost to it when it moves from a slot it has still to visit to one
it has passed. As long as no rename does that (`RenameSeen`) the reader
returns what was there when it began, less at most the pruned file.
-/

namespace ContainerdManager.Logs

open Lib

/-! ## The writer -/

/-- One file operation of an `append_batch` that rotates; `write_all` may take several writes. -/
inductive TailerOp where
  | rotate (op : RotateOp)
  | openEvents
  | write (chunk : Bytes)
  deriving DecidableEq, Repr

def TailerOp.run (ino : Nat) (dir : EventsDir) : TailerOp → EventsDir
  | .rotate op => op.run noFaults ino dir
  | .openEvents => openAppend ino dir
  | .write chunk => appendBytes dir chunk

/-- The operations of an `append_batch` that rotates, the batch written in these chunks. -/
def appendOps (chunks : List Bytes) : List TailerOp :=
  rotateOps.map .rotate ++ .openEvents :: chunks.map .write

theorem appendBytes_append {dir : EventsDir} {f : EventsFile} (h : dir 0 = some f) (a b : Bytes) :
    appendBytes (appendBytes dir a) b = appendBytes dir (a ++ b) := by
  simp only [appendBytes, h, Slots.set_self, List.append_assoc]
  funext k
  by_cases hk : k = 0
  · subst hk; simp
  · simp [hk]

theorem appendBytes_nil {dir : EventsDir} {f : EventsFile} (h : dir 0 = some f) :
    appendBytes dir [] = dir := by
  simp only [appendBytes, h, List.append_nil]
  funext k
  by_cases hk : k = 0
  · subst hk; rw [Slots.set_self, h]
  · exact if_neg hk

theorem appendBytes_log {dir : EventsDir} {f : EventsFile} (h : dir 0 = some f) (batch : Bytes) :
    appendBytes dir batch = dir.set 0 (some { f with bytes := f.bytes ++ batch }) := by
  simp only [appendBytes, h]

theorem writes_run (ino : Nat) (chunks : List Bytes) {dir : EventsDir} {f : EventsFile}
    (h : dir 0 = some f) :
    (chunks.map TailerOp.write).foldl (TailerOp.run ino) dir = appendBytes dir chunks.flatten := by
  induction chunks generalizing dir f with
  | nil => exact (appendBytes_nil h).symm
  | cons c cs ih =>
    have hc : appendBytes dir c 0 = some { f with bytes := f.bytes ++ c } := by
      rw [appendBytes_log h, Slots.set_self]
    rw [List.map_cons, List.foldl_cons, List.flatten_cons, ← appendBytes_append h]
    exact ih hc

/-- The operations in turn are the call. -/
theorem appendOps_run (ino : Nat) (dir : EventsDir) (chunks : List Bytes)
    (h : rotationNeeded dir chunks.flatten.length) :
    (appendOps chunks).foldl (TailerOp.run ino) dir =
      (appendBatch noFaults ino dir chunks.flatten).2 := by
  have hrot : (rotateOps.map TailerOp.rotate).foldl (TailerOp.run ino) dir = rotated ino dir := by
    rw [List.foldl_map]
    exact rotateOps_all ino dir
  rw [appendOps, List.foldl_append, hrot, List.foldl_cons, appendBatch_noFaults, beforeAppend,
    if_pos h]
  show (chunks.map TailerOp.write).foldl (TailerOp.run ino) (openAppend ino (rotated ino dir)) = _
  rw [openAppend_rotated]
  exact writes_run ino chunks (Slots.set_self _ _ _)

/-! ## The reader -/

inductive Reader where
  | checking (left found : List Nat)
  | reading (files : List Nat) (out : List LogEntry)
  deriving DecidableEq, Repr

def Reader.start : Reader := .checking (List.range' 1 maxRotatedFiles).reverse []

/-- One existence check or one read; `events.log` is put last without a check. -/
def Reader.step (dir : EventsDir) : Reader → Option Reader
  | .checking (n :: left) found =>
    some (.checking left (if (dir n).isSome then found ++ [n] else found))
  | .checking [] found => some (.reading (found ++ [0]) [])
  | .reading (n :: files) out =>
    match readFileOrEmpty (fun _ => false) dir n with
    | .ok bytes => some (.reading files (out ++ parseEventsFile bytes))
    | .error _ => none
  | .reading [] _ => none

/-- What the call returns, with the default filter. -/
def Reader.returned : Reader → Option (List LogEntry)
  | .reading [] out => some (({} : LogsFilter).apply out)
  | _ => none

/-- The slots the reader has still to visit, in its order. -/
def Reader.pending : Reader → List Nat
  | .checking left found => found ++ left ++ [0]
  | .reading files _ => files

def Reader.out : Reader → List LogEntry
  | .checking _ _ => []
  | .reading _ out => out

/-! ## Both together -/

structure ReadSys where
  dir : EventsDir
  reader : Reader
  /-- What `append_batch` has still to do. -/
  ops : List TailerOp

inductive Turn where
  | reader
  | tailer
  deriving DecidableEq, Repr

def ReadSys.step (ino : Nat) (s : ReadSys) : Turn → Option ReadSys
  | .reader => (s.reader.step s.dir).map fun r => { s with reader := r }
  | .tailer =>
    match s.ops with
    | [] => none
    | op :: ops => some { s with dir := op.run ino s.dir, ops := ops }

/-- The call begins when `append_batch` has carried out `done` of its operations. -/
def ReadSys.begin (ino : Nat) (dir : EventsDir) (chunks : List Bytes) (done : Nat) : ReadSys where
  dir := ((appendOps chunks).take done).foldl (TailerOp.run ino) dir
  reader := .start
  ops := (appendOps chunks).drop done

/-- The entries of all retained files, oldest first. -/
def ReadSys.present (s : ReadSys) : List LogEntry :=
  (s.dir.listing maxRotatedFiles).flatMap EventsFile.entries

/-- The entries of the file the rotation has still to prune. -/
def ReadSys.pruned (s : ReadSys) : List LogEntry :=
  if .rotate (.remove maxRotatedFiles) ∈ s.ops then
    (s.dir maxRotatedFiles).toList.flatMap EventsFile.entries
  else []

/-- The slots between which an operation moves a file. -/
def TailerOp.moves : TailerOp → Option (Nat × Nat)
  | .rotate (.rename src dst) => some (src, dst)
  | _ => none

/-- An existing file is not renamed from a slot the reader has still to visit to one it has passed:
both are ahead of it, or neither. -/
def RenameSeen (s : ReadSys) (turn : Turn) : Prop :=
  turn = .tailer → ∀ m ∈ s.ops.head?.bind TailerOp.moves,
    s.dir m.1 = none ∨ (m.1 ∈ s.reader.pending ↔ m.2 ∈ s.reader.pending)

instance (s : ReadSys) (turn : Turn) : Decidable (RenameSeen s turn) :=
  inferInstanceAs (Decidable (_ → ∀ m ∈ s.ops.head?.bind TailerOp.moves, _))

/-! ## What the reader will have seen -/

/-- What the call would return if nothing else happened. -/
def ReadSys.total (s : ReadSys) : List LogEntry :=
  s.reader.out ++ s.dir.collect EventsFile.entries s.reader.pending

/-- The slots ahead are distinct, oldest first, and nothing was read before the oldest of them. -/
structure Reader.Ordered (r : Reader) : Prop where
  sorted : r.pending.Pairwise (· > ·)
  le : ∀ n ∈ r.pending, n ≤ maxRotatedFiles
  fresh : maxRotatedFiles ∈ r.pending → r.out = []

theorem Reader.Ordered.start : Reader.start.Ordered where
  sorted := by decide
  le := by decide
  fresh _ := rfl

/-- A check keeps the slot ahead or passes over it. -/
theorem Reader.check_sublist (dir : EventsDir) (n : Nat) (left found : List Nat) :
    (Reader.checking left (if (dir n).isSome then found ++ [n] else found)).pending.Sublist
      (Reader.checking (n :: left) found).pending := by
  simp only [Reader.pending]
  split <;> simp

theorem Reader.step_pending {dir : EventsDir} {r r' : Reader} (hs : r.step dir = some r') :
    ∀ n ∈ r'.pending, n ∈ r.pending := by
  cases r with
  | checking left found =>
    cases left with
    | nil => cases hs; simp [Reader.pending]
    | cons n left => cases hs; exact fun _ hk => (Reader.check_sublist dir n left found).subset hk
  | reading files out =>
    cases files with
    | nil => cases hs
    | cons n files =>
      simp only [Reader.step] at hs
      split at hs
      · cases hs; exact fun _ hk => List.mem_cons_of_mem _ hk
      · cases hs

theorem Reader.Ordered.step {dir : EventsDir} {r r' : Reader} (h : r.Ordered)
    (hs : r.step dir = some r') : r'.Ordered := by
  cases r with
  | checking left found =>
    cases left with
    | nil =>
      cases hs
      refine ⟨?_, ?_, fun _ => rfl⟩
      · simpa [Reader.pending] using h.sorted
      · simpa [Reader.pending] using h.le
    | cons n left =>
      cases hs
      have hsub := Reader.check_sublist dir n left found
      exact ⟨h.sorted.sublist hsub, fun k hk => h.le k (hsub.subset hk), fun _ => rfl⟩
  | reading files out =>
    cases files with
    | nil => cases hs
    | cons n files =>
      simp only [Reader.step] at hs
      split at hs
      · cases hs
        have hp := List.pairwise_cons.mp h.sorted
        refine ⟨hp.2, fun k hk => h.le k (List.mem_cons_of_mem _ hk), fun hm => ?_⟩
        have := hp.1 _ hm
        have := h.le n List.mem_cons_self
        omega
      · cases hs

/-- A step of the reader changes nothing of what it will have seen. -/
theorem total_reader {ino : Nat} {s s' : ReadSys} (hs : s.step ino .reader = some s') :
    s'.total = s.total := by
  obtain ⟨r, hr, rfl⟩ := Option.map_eq_some_iff.mp hs
  unfold ReadSys.total
  cases hreader : s.reader with
  | checking left found =>
    rw [hreader] at hr
    cases left with
    | nil =>
      cases hr
      simp [Reader.pending, Reader.out]
    | cons n left =>
      cases hr
      simp only [Reader.pending, Reader.out, Slots.collect_append, Slots.collect_cons]
      cases hn : s.dir n with
      | none => simp
      | some f => simp [Slots.collect_append, hn]
  | reading files out =>
    rw [hreader] at hr
    cases files with
    | nil => cases hr
    | cons n files =>
      simp only [Reader.step, readFileOrEmpty] at hr
      cases hn : s.dir n with
      | none =>
        rw [hn] at hr
        cases hr
        simp [Reader.pending, Reader.out, hn, parseEventsFile_nil]
      | some f =>
        rw [hn] at hr
        cases hr
        simp [Reader.pending, Reader.out, hn, EventsFile.entries]

/-! ## The operations one by one -/

theorem appendOps_get {chunks : List Bytes} {k : Nat} {op : TailerOp}
    (h : (appendOps chunks)[k]? = some op) :
    (k = 0 ∧ op = .rotate (.remove maxRotatedFiles)) ∨
      (∃ m < maxRotatedFiles, k = maxRotatedFiles - m ∧ op = .rotate (.rename m (m + 1))) ∨
      (k = 6 ∧ op = .rotate .create) ∨ (k = 7 ∧ op = .openEvents) ∨
      (∃ c i, k = i + 8 ∧ chunks[i]? = some c ∧ op = .write c) := by
  have hops : appendOps chunks = [.rotate (.remove 5), .rotate (.rename 4 5), .rotate (.rename 3 4),
      .rotate (.rename 2 3), .rotate (.rename 1 2), .rotate (.rename 0 1), .rotate .create,
      .openEvents] ++ chunks.map .write := rfl
  rw [hops] at h
  match k with
  | 0 => cases h; exact .inl ⟨rfl, rfl⟩
  | 1 => cases h; exact .inr (.inl ⟨4, by decide, rfl, rfl⟩)
  | 2 => cases h; exact .inr (.inl ⟨3, by decide, rfl, rfl⟩)
  | 3 => cases h; exact .inr (.inl ⟨2, by decide, rfl, rfl⟩)
  | 4 => cases h; exact .inr (.inl ⟨1, by decide, rfl, rfl⟩)
  | 5 => cases h; exact .inr (.inl ⟨0, by decide, rfl, rfl⟩)
  | 6 => cases h; exact .inr (.inr (.inl ⟨rfl, rfl⟩))
  | 7 => cases h; exact .inr (.inr (.inr (.inl ⟨rfl, rfl⟩)))
  | i + 8 =>
    have hw : (chunks.map TailerOp.write)[i]? = some op := h
    rw [List.getElem?_map, Option.map_eq_some_iff] at hw
    obtain ⟨c, hc, rfl⟩ := hw
    exact .inr (.inr (.inr (.inr ⟨c, i, rfl, hc, rfl⟩)))

/-- The directory after `k` operations. -/
def dirAfter (ino : Nat) (dir : EventsDir) (chunks : List Bytes) (k : Nat) : EventsDir :=
  ((appendOps chunks).take k).foldl (TailerOp.run ino) dir

/-- The part of the batch written after `k` operations. -/
def written (chunks : List Bytes) (k : Nat) : Bytes := (chunks.take (k - 8)).flatten

section After

variable (ino : Nat) (dir : EventsDir) (chunks : List Bytes)

theorem dirAfter_rotation {k : Nat} (hk : k ≤ 7) :
    dirAfter ino dir chunks k = (rotateOps.take k).foldl (RotateOp.run noFaults ino) dir := by
  have hlen : rotateOps.length = 7 := by decide
  rw [dirAfter, appendOps, List.take_append_of_le_length (by simp [hlen, hk]), ← List.map_take,
    List.foldl_map]
  rfl

theorem dirAfter_shift {m : Nat} (hm : m < maxRotatedFiles) :
    dirAfter ino dir chunks (maxRotatedFiles - m) = dir.shiftFrom (m + 1) maxRotatedFiles := by
  have hmax : maxRotatedFiles = 5 := rfl
  obtain ⟨i, hi⟩ : ∃ i, maxRotatedFiles - m = i + 1 := ⟨maxRotatedFiles - m - 1, by omega⟩
  rw [hi, dirAfter_rotation ino dir chunks (by omega), rotateOps_take (by omega)]
  congr 1
  omega

/-- From its creation on, `events.log` holds what was written of the batch. -/
theorem dirAfter_log {k : Nat} (hk : 7 ≤ k) :
    dirAfter ino dir chunks k 0 = some ⟨ino, written chunks k⟩ := by
  have hlen : rotateOps.length = 7 := by decide
  have hrot : (rotateOps.map TailerOp.rotate).foldl (TailerOp.run ino) dir = rotated ino dir := by
    rw [List.foldl_map]
    exact rotateOps_all ino dir
  obtain ⟨i, rfl⟩ : ∃ i, k = 7 + i := ⟨k - 7, by omega⟩
  have htake : (appendOps chunks).take (7 + i) =
      rotateOps.map TailerOp.rotate ++ (TailerOp.openEvents :: chunks.map .write).take i := by
    rw [appendOps, show 7 + i = (rotateOps.map TailerOp.rotate).length + i by simp [hlen],
      List.take_length_add_append]
  have hzero : rotated ino dir 0 = some ⟨ino, []⟩ := Slots.set_self _ _ _
  rw [dirAfter, htake, List.foldl_append, hrot]
  cases i with
  | zero => exact hzero
  | succ i =>
    rw [List.take_succ_cons, List.foldl_cons, ← List.map_take]
    show ((chunks.take i).map TailerOp.write).foldl (TailerOp.run ino)
      (openAppend ino (rotated ino dir)) 0 = _
    rw [openAppend_rotated, writes_run ino _ hzero, appendBytes_log hzero, Slots.set_self, written,
      show 7 + (i + 1) - 8 = i by omega]
    rfl

theorem dirAfter_succ {k : Nat} {op : TailerOp} (h : (appendOps chunks)[k]? = some op) :
    dirAfter ino dir chunks (k + 1) = op.run ino (dirAfter ino dir chunks k) := by
  rw [dirAfter, List.take_add_one, h, List.foldl_append]
  rfl

end After

theorem written_succ {chunks : List Bytes} {i : Nat} {c : Bytes} (h : chunks[i]? = some c) :
    written chunks (i + 8 + 1) = written chunks (i + 8) ++ c := by
  rw [written, show i + 8 + 1 - 8 = i + 1 by omega, List.take_add_one, h, List.flatten_append]
  simp [written]

theorem written_mono (chunks : List Bytes) {k l : Nat} (h : k ≤ l) :
    written chunks k <+: written chunks l := by
  have : chunks.take (k - 8) <+: chunks.take (l - 8) := List.take_prefix_take_left (by omega)
  obtain ⟨t, ht⟩ := this
  exact ⟨t.flatten, by rw [written, written, ← List.flatten_append, ht]⟩

/-- More bytes give more entries. -/
theorem parseEventsFile_mono {x y : Bytes} (h : x <+: y) :
    parseEventsFile x <+: parseEventsFile y := by
  obtain ⟨t, rfl⟩ := h
  rw [parseEventsFile_eq, parseEventsFile_eq, eventDecoder.scan_append]
  exact List.prefix_append _ _

/-! ## The invariant -/

/-- The entries of the oldest file before the call. -/
def oldestEntries (dir : EventsDir) : List LogEntry :=
  (dir maxRotatedFiles).toList.flatMap EventsFile.entries

/-- The entries of the other files before the call, oldest first. -/
def olderEntries (dir : EventsDir) : List LogEntry :=
  (dir.listing (maxRotatedFiles - 1)).flatMap EventsFile.entries

/-- After `k` operations of the writer: what the reader will have seen is the entries
`pre` of the oldest file, or none of them, all entries of the others, and those of the
part `seen` of the batch. -/
structure ReadSys.Inv (ino : Nat) (dir : EventsDir) (chunks : List Bytes) (s : ReadSys) (k : Nat)
    (pre : List LogEntry) (seen : Bytes) : Prop where
  ops : s.ops = (appendOps chunks).drop k
  files : s.dir = dirAfter ino dir chunks k
  ordered : s.reader.Ordered
  total : s.total = pre ++ olderEntries dir ++ parseEventsFile seen
  oldest : pre = [] ∨ pre = oldestEntries dir ∧ (k = 0 ∨ maxRotatedFiles ∉ s.reader.pending)
  first : k = 0 → pre = oldestEntries dir
  part : seen <+: written chunks k
  ahead : 0 ∈ s.reader.pending → seen = written chunks k

section Steps

variable {ino : Nat} {dir : EventsDir} {chunks : List Bytes} {s : ReadSys} {k : Nat}
  {pre : List LogEntry} {seen : Bytes}

theorem ReadSys.Inv.begin (ino : Nat) (dir : EventsDir) (chunks : List Bytes) :
    (ReadSys.begin ino dir chunks 0).Inv ino dir chunks 0 (oldestEntries dir) [] where
  ops := rfl
  files := rfl
  ordered := .start
  total := by
    show dir.collect EventsFile.entries [5, 4, 3, 2, 1, 0] =
      (dir 5).toList.flatMap EventsFile.entries ++ ((dir 4).toList ++ ((dir 3).toList ++
        ((dir 2).toList ++ ((dir 1).toList ++ (dir 0).toList)))).flatMap EventsFile.entries ++ []
    simp
  oldest := .inr ⟨rfl, .inl rfl⟩
  first _ := rfl
  part := List.nil_prefix
  ahead _ := rfl

/-- The reader leaves what it will have seen as it is, and only passes slots. -/
theorem ReadSys.Inv.reader {s' : ReadSys} (h : s.Inv ino dir chunks k pre seen)
    (hs : s.step ino .reader = some s') : s'.Inv ino dir chunks k pre seen := by
  have htotal := total_reader hs
  obtain ⟨r, hr, rfl⟩ := Option.map_eq_some_iff.mp hs
  have hsub : ∀ n ∈ r.pending, n ∈ s.reader.pending := Reader.step_pending hr
  refine ⟨h.ops, h.files, h.ordered.step hr, htotal.trans h.total, ?_, h.first, h.part,
    fun h0 => h.ahead (hsub 0 h0)⟩
  rcases h.oldest with he | ⟨he, hk⟩
  · exact .inl he
  · exact .inr ⟨he, hk.imp id fun hn hm => hn (hsub _ hm)⟩

/-- The first of the slots ahead. -/
theorem Reader.Ordered.head {r : Reader} (h : r.Ordered) (hm : maxRotatedFiles ∈ r.pending) :
    ∃ rest, r.pending = maxRotatedFiles :: rest ∧ maxRotatedFiles ∉ rest := by
  have hsorted := h.sorted
  have hle := h.le
  cases hp : r.pending with
  | nil => rw [hp] at hm; cases hm
  | cons x xs =>
    rw [hp] at hm hsorted hle
    have hx := (List.pairwise_cons.mp hsorted).1
    have hx5 := hle x List.mem_cons_self
    have hnot : maxRotatedFiles ∉ xs := fun hn => by have := hx _ hn; omega
    have hxe : x = maxRotatedFiles := by
      rcases List.mem_cons.mp hm with e | e
      · exact e.symm
      · exact absurd e hnot
    exact ⟨xs, by rw [hxe], hnot⟩

/-- The last of the slots ahead. -/
theorem Reader.Ordered.last {r : Reader} (h : r.Ordered) (hm : 0 ∈ r.pending) :
    ∃ init, r.pending = init ++ [0] ∧ 0 ∉ init := by
  have hsorted := h.sorted
  rcases List.eq_nil_or_concat r.pending with hp | ⟨init, x, hp⟩
  · rw [hp] at hm; cases hm
  · rw [List.concat_eq_append] at hp
    rw [hp] at hm hsorted
    have hx : ∀ y ∈ init, y > x := fun y hy =>
      (List.pairwise_append.mp hsorted).2.2 y hy x (List.mem_singleton.mpr rfl)
    have hnot : 0 ∉ init := fun hn => by have := hx 0 hn; omega
    have hx0 : x = 0 := by
      rcases List.mem_append.mp hm with e | e
      · exact absurd e hnot
      · exact (List.mem_singleton.mp e).symm
    exact ⟨init, by rw [hp, hx0], hnot⟩

/-- What is left of `s` when the writer has carried out its next operation. -/
def ReadSys.wrote (ino : Nat) (s : ReadSys) (op : TailerOp) (ops : List TailerOp) : ReadSys :=
  { s with dir := op.run ino s.dir, ops := ops }

theorem total_wrote (op : TailerOp) (ops : List TailerOp) : (s.wrote ino op ops).total =
    s.reader.out ++ Slots.collect EventsFile.entries (op.run ino s.dir) s.reader.pending := rfl

section Operation

variable {op : TailerOp} {ops : List TailerOp} (h : s.Inv ino dir chunks k pre seen)
  (hops : s.ops = op :: ops)

include h hops

theorem ReadSys.Inv.next :
    (appendOps chunks)[k]? = some op ∧ ops = (appendOps chunks).drop (k + 1) := by
  have hd : (appendOps chunks).drop k = op :: ops := h.ops.symm.trans hops
  constructor
  · rw [← List.head?_drop, hd]
    rfl
  · rw [← List.tail_drop, hd]
    rfl

/-- An operation that leaves what the reader will have seen as it is. -/
theorem ReadSys.Inv.unseen (hk : 0 < k) (hw : written chunks (k + 1) = written chunks k)
    (ht : (s.wrote ino op ops).total = s.total) :
    (s.wrote ino op ops).Inv ino dir chunks (k + 1) pre seen := by
  obtain ⟨hop, hrest⟩ := h.next hops
  refine ⟨hrest, ?_, h.ordered, ht.trans h.total, ?_, by omega, by rw [hw]; exact h.part,
    fun h0 => by rw [hw]; exact h.ahead h0⟩
  · show op.run ino s.dir = _
    rw [h.files, dirAfter_succ ino dir chunks hop]
  · rcases h.oldest with he | ⟨he, hz | hn⟩
    · exact .inl he
    · omega
    · exact .inr ⟨he, .inr hn⟩

/-- Pruning the oldest file takes its entries from a reader that has it still ahead. -/
theorem ReadSys.Inv.prune (hk : k = 0) (hop' : op = .rotate (.remove maxRotatedFiles)) :
    ∃ pre', (s.wrote ino op ops).Inv ino dir chunks (k + 1) pre' seen ∧
      (pre' = pre ∨ pre' = []) := by
  obtain ⟨hop, hrest⟩ := h.next hops
  subst hk hop'
  have hfiles : (TailerOp.rotate (.remove maxRotatedFiles)).run ino s.dir =
      dirAfter ino dir chunks 1 := by
    rw [h.files, ← dirAfter_succ ino dir chunks hop]
  have hset : (TailerOp.rotate (.remove maxRotatedFiles)).run ino s.dir =
      s.dir.set maxRotatedFiles none := rfl
  by_cases hm : maxRotatedFiles ∈ s.reader.pending
  · obtain ⟨rest, hp, hnot⟩ := h.ordered.head hm
    have hout := h.ordered.fresh hm
    have ht := h.total
    have hdir : s.dir = dir := h.files
    rw [ReadSys.total, hout, hp, List.nil_append, Slots.collect_cons, h.first rfl, hdir,
      List.append_assoc] at ht
    refine ⟨[], ⟨hrest, hfiles, h.ordered, ?_, .inl rfl, by omega, h.part, h.ahead⟩, .inr rfl⟩
    rw [total_wrote, hset, hout, hp, Slots.collect_cons, Slots.set_self,
      Slots.collect_set_of_not_mem _ _ hnot, hdir,
      List.append_cancel_left ht]
    rfl
  · refine ⟨pre, ⟨hrest, hfiles, h.ordered, ?_, .inr ⟨h.first rfl, .inr hm⟩, by omega, h.part,
      h.ahead⟩, .inl rfl⟩
    rw [total_wrote, hset, Slots.collect_set_of_not_mem _ _ hm]
    exact h.total

/-- A write reaches a reader that has `events.log` still ahead. -/
theorem ReadSys.Inv.chunk {c : Bytes} {i : Nat} (hk : k = i + 8) (hc : chunks[i]? = some c)
    (hop' : op = .write c) :
    ∃ seen', (s.wrote ino op ops).Inv ino dir chunks (k + 1) pre seen' ∧ seen <+: seen' := by
  obtain ⟨hop, hrest⟩ := h.next hops
  subst hk hop'
  have hfiles : (TailerOp.write c).run ino s.dir = dirAfter ino dir chunks (i + 8 + 1) := by
    rw [h.files, ← dirAfter_succ ino dir chunks hop]
  have hlog : s.dir 0 = some ⟨ino, written chunks (i + 8)⟩ := by
    rw [h.files]
    exact dirAfter_log ino dir chunks (by omega)
  have hset : (TailerOp.write c).run ino s.dir =
      s.dir.set 0 (some ⟨ino, written chunks (i + 8) ++ c⟩) := appendBytes_log hlog c
  have hold : pre = [] ∨ pre = oldestEntries dir ∧
      (i + 8 + 1 = 0 ∨ maxRotatedFiles ∉ s.reader.pending) := by
    rcases h.oldest with he | ⟨he, hz | hn⟩
    · exact .inl he
    · omega
    · exact .inr ⟨he, .inr hn⟩
  by_cases h0 : 0 ∈ s.reader.pending
  · obtain ⟨init, hp, hnot⟩ := h.ordered.last h0
    have ht := h.total
    rw [h.ahead h0, ReadSys.total, hp, Slots.collect_append, Slots.collect_cons, hlog,
      ← List.append_assoc] at ht
    have hfront := List.append_cancel_right (ht.trans (by simp [EventsFile.entries]) :
      _ = pre ++ olderEntries dir ++
        ((some (⟨ino, written chunks (i + 8)⟩ : EventsFile)).toList.flatMap
        EventsFile.entries ++ Slots.collect EventsFile.entries s.dir []))
    refine ⟨written chunks (i + 8 + 1), ⟨hrest, hfiles, h.ordered, ?_, hold, by omega,
      List.prefix_refl _, fun _ => rfl⟩, h.part.trans (written_mono chunks (by omega))⟩
    rw [total_wrote, hset, hp, Slots.collect_append, Slots.collect_cons, Slots.set_self,
      Slots.collect_set_of_not_mem _ _ hnot, ← List.append_assoc, hfront, written_succ hc]
    simp [EventsFile.entries]
  · refine ⟨seen, ⟨hrest, hfiles, h.ordered, ?_, hold, by omega,
      h.part.trans (written_mono chunks (by omega)), fun h0' => absurd h0' h0⟩, List.prefix_refl _⟩
    rw [total_wrote, hset, Slots.collect_set_of_not_mem _ _ h0]
    exact h.total

end Operation

theorem openAppend_collect (ino : Nat) (d : EventsDir) (ns : List Nat) :
    Slots.collect EventsFile.entries (openAppend ino d) ns = d.collect EventsFile.entries ns := by
  unfold openAppend
  cases hd : d 0 with
  | some f => rfl
  | none =>
    show Slots.collect _ (d.set 0 (some ⟨ino, []⟩)) ns = _
    refine Slots.collect_congr fun n _ => ?_
    by_cases hn : n = 0
    · subst hn
      rw [Slots.set_self, hd]
      rfl
    · rw [Slots.set_of_ne hn]

/-- **One operation of the writer.** -/
theorem ReadSys.Inv.tailer {op : TailerOp} {ops : List TailerOp}
    (h : s.Inv ino dir chunks k pre seen) (hops : s.ops = op :: ops)
    (hseen : RenameSeen s .tailer) :
    ∃ pre' seen', (s.wrote ino op ops).Inv ino dir chunks (k + 1) pre' seen' ∧
      (pre' = pre ∨ pre' = []) ∧ seen <+: seen' := by
  have hmax : maxRotatedFiles = 5 := rfl
  rcases appendOps_get (h.next hops).1 with ⟨hk, hop⟩ | ⟨m, hm, hk, hop⟩ | ⟨hk, hop⟩ | ⟨hk, hop⟩ |
    ⟨c, i, hk, hc, hop⟩
  · obtain ⟨pre', h', hpre⟩ := h.prune hops hk hop
    exact ⟨pre', seen, h', hpre, List.prefix_refl _⟩
  · have hw : written chunks (k + 1) = written chunks k := by
      rw [written, written, show k + 1 - 8 = k - 8 by omega]
    refine ⟨pre, seen, h.unseen hops (by omega) hw ?_, .inl rfl, List.prefix_refl _⟩
    subst hop
    have hgap : s.dir (m + 1) = none := by
      rw [h.files, hk, dirAfter_shift ino dir chunks hm, Slots.shiftFrom_gap]
    rw [total_wrote]
    show s.reader.out ++ Slots.collect _ (s.dir.rename m (m + 1)) _ = _
    rcases hseen rfl (m, m + 1) (by rw [hops]; rfl) with hnone | hboth
    · rw [Slots.rename, hnone]
      rfl
    · rw [Slots.collect_rename _ _ hgap h.ordered.sorted hboth]
      rfl
  · refine ⟨pre, seen, h.unseen hops (by omega) (by simp [written, hk]) ?_, .inl rfl,
      List.prefix_refl _⟩
    subst hop
    exact congrArg (s.reader.out ++ ·) (openAppend_collect ino s.dir s.reader.pending)
  · refine ⟨pre, seen, h.unseen hops (by omega) (by simp [written, hk]) ?_, .inl rfl,
      List.prefix_refl _⟩
    subst hop
    exact congrArg (s.reader.out ++ ·) (openAppend_collect ino s.dir s.reader.pending)
  · obtain ⟨seen', h', hs⟩ := h.chunk hops hk hc hop
    exact ⟨pre, seen', h', .inl rfl, hs⟩

end Steps

/-- The call begins after any number of operations: it has all slots ahead of it. -/
theorem ReadSys.Inv.begun (ino : Nat) (dir : EventsDir) (chunks : List Bytes) (done : Nat) :
    ∃ pre seen, (ReadSys.begin ino dir chunks done).Inv ino dir chunks done pre seen := by
  induction done with
  | zero => exact ⟨_, _, .begin ino dir chunks⟩
  | succ done ih =>
    obtain ⟨pre, seen, h⟩ := ih
    cases hops : (ReadSys.begin ino dir chunks done).ops with
    | nil =>
      -- there was no operation left
      have hle : (appendOps chunks).length ≤ done := List.drop_eq_nil_iff.mp hops
      have hlen : (appendOps chunks).length = chunks.length + 8 := by
        simp [appendOps, show rotateOps.length = 7 by decide]
        omega
      have hbegin : ReadSys.begin ino dir chunks (done + 1) =
          ReadSys.begin ino dir chunks done := by
        simp only [ReadSys.begin, List.take_of_length_le hle, List.drop_of_length_le hle,
          List.take_of_length_le (Nat.le_succ_of_le hle),
            List.drop_of_length_le (Nat.le_succ_of_le hle)]
      have hw : written chunks (done + 1) = written chunks done := by
        rw [written, written, List.take_of_length_le (by omega), List.take_of_length_le (by omega)]
      refine ⟨pre, seen, ?_⟩
      rw [hbegin]
      refine ⟨hops.trans (List.drop_of_length_le (by omega)).symm, ?_, h.ordered, h.total, ?_,
        by omega,
        by rw [hw]; exact h.part, fun h0 => by rw [hw]; exact h.ahead h0⟩
      · rw [h.files, dirAfter, dirAfter, List.take_of_length_le hle,
          List.take_of_length_le (by omega)]
      · rcases h.oldest with he | ⟨he, hz | hn⟩
        · exact .inl he
        · omega
        · exact .inr ⟨he, .inr hn⟩
    | cons op ops =>
      obtain ⟨hop, hrest⟩ := h.next hops
      have hseen : RenameSeen (ReadSys.begin ino dir chunks done) .tailer := by
        rintro - ⟨src, dst⟩ hmove
        rw [hops] at hmove
        rcases appendOps_get hop with ⟨-, rfl⟩ | ⟨m, hm, -, rfl⟩ | ⟨-, rfl⟩ | ⟨-, rfl⟩ |
          ⟨c, i, -, -, rfl⟩
        · cases hmove
        · cases hmove
          refine .inr ?_
          have hall : ∀ m < maxRotatedFiles, m ∈ Reader.start.pending ↔
              m + 1 ∈ Reader.start.pending := by
            decide
          exact hall _ hm
        · cases hmove
        · cases hmove
        · cases hmove
      obtain ⟨pre', seen', h', -, -⟩ := h.tailer hops hseen
      refine ⟨pre', seen', ?_⟩
      have hbegin : ReadSys.begin ino dir chunks (done + 1) =
          (ReadSys.begin ino dir chunks done).wrote ino op ops := by
        simp only [ReadSys.wrote, ReadSys.begin, hrest]
        congr 1
        exact dirAfter_succ ino dir chunks hop
      rw [hbegin]
      exact h'

/-- **One turn of either.** -/
theorem ReadSys.Inv.step {ino : Nat} {dir : EventsDir} {chunks : List Bytes} {s s' : ReadSys}
    {k : Nat}
    {pre : List LogEntry} {seen : Bytes} {turn : Turn} (h : s.Inv ino dir chunks k pre seen)
    (hok : RenameSeen s turn) (hs : s.step ino turn = some s') :
    ∃ k' pre' seen', s'.Inv ino dir chunks k' pre' seen' ∧ (pre' = pre ∨ pre' = []) ∧
      seen <+: seen' := by
  cases turn with
  | reader => exact ⟨k, pre, seen, h.reader hs, .inl rfl, List.prefix_refl _⟩
  | tailer =>
    cases hops : s.ops with
    | nil => simp [ReadSys.step, hops] at hs
    | cons op ops =>
      simp only [ReadSys.step, hops, Option.some.injEq] at hs
      subst hs
      obtain ⟨pre', seen', h', hpre, hseen⟩ := h.tailer hops hok
      exact ⟨k + 1, pre', seen', h', hpre, hseen⟩

/-! ## What the call returns -/

/-- Before its first step the reader has everything ahead of it. -/
theorem begin_total (ino : Nat) (dir : EventsDir) (chunks : List Bytes) (done : Nat) :
    (ReadSys.begin ino dir chunks done).total = (ReadSys.begin ino dir chunks done).present := by
  have hall (d : EventsDir) : Slots.collect EventsFile.entries d [5, 4, 3, 2, 1, 0] =
      ((d 5).toList ++ ((d 4).toList ++ ((d 3).toList ++ ((d 2).toList ++ ((d 1).toList ++
        (d 0).toList))))).flatMap EventsFile.entries := by
    simp
  exact hall (ReadSys.begin ino dir chunks done).dir

/-- The records of the file that is pruned are those the invariant tells apart. -/
theorem ReadSys.Inv.begin_pruned {ino : Nat} {dir : EventsDir} {chunks : List Bytes} {done : Nat}
    {pre : List LogEntry} {seen : Bytes}
    (h : (ReadSys.begin ino dir chunks done).Inv ino dir chunks done pre seen) :
    (ReadSys.begin ino dir chunks done).pruned = pre := by
  cases done with
  | zero =>
    have hmem : TailerOp.rotate (.remove maxRotatedFiles) ∈ (ReadSys.begin ino dir chunks 0).ops :=
      List.mem_cons_self
    rw [ReadSys.pruned, if_pos hmem, h.first rfl]
    rfl
  | succ done =>
    have hmem : TailerOp.rotate (.remove maxRotatedFiles) ∉
        (ReadSys.begin ino dir chunks (done + 1)).ops := by
      intro hm
      have hm1 : TailerOp.rotate (.remove maxRotatedFiles) ∈ (appendOps chunks).drop 1 := by
        rw [ReadSys.begin, Nat.add_comm, ← List.drop_drop] at hm
        exact List.mem_of_mem_drop hm
      have hdrop : (appendOps chunks).drop 1 = (rotateOps.drop 1).map .rotate ++
          .openEvents :: chunks.map .write := rfl
      rw [hdrop] at hm1
      rcases List.mem_append.mp hm1 with hm2 | hm2
      · exact absurd hm2 (by decide)
      · simp at hm2
    rw [ReadSys.pruned, if_neg hmem]
    rcases h.oldest with he | ⟨-, hz | hn⟩
    · exact he.symm
    · cases hz
    · exact absurd (by decide : maxRotatedFiles ∈ Reader.start.pending) hn

/-- **Reading during a rotation.** However the steps of a `container_logs_filtered` call with the
default filter and those of an `append_batch` that rotates take turns, and wherever in the
`append_batch` the call begins: if no existing file is renamed past the reader, the call returns the
entries of all files that were there when it began, in order and each once, without those of the
pruned file or with them, followed by entries of the batch. -/
theorem read_during_rotation (ino : Nat) (dir : EventsDir) (recs : List Record)
    (chunks : List Bytes)
    (hbatch : chunks.flatten = encodeAll recs) (done : Nat) (turns : List Turn) (s : ReadSys)
    (out : List LogEntry)
    (hok : Along (ReadSys.step ino) RenameSeen (.begin ino dir chunks done) turns)
    (hr : run (ReadSys.step ino) (.begin ino dir chunks done) turns = some s)
    (hout : s.reader.returned = some out) :
    ∃ kept pre new, (ReadSys.begin ino dir chunks done).present =
        (ReadSys.begin ino dir chunks done).pruned ++ kept ∧
      (pre = [] ∨ pre = (ReadSys.begin ino dir chunks done).pruned) ∧
      out = pre ++ kept ++ new ∧ new <:+: recs.map Record.entry := by
  obtain ⟨pre, seen, h0⟩ := ReadSys.Inv.begun ino dir chunks done
  obtain ⟨k, pre', seen', h, hpre, hseen⟩ : ∃ k pre' seen', s.Inv ino dir chunks k pre' seen' ∧
      (pre' = pre ∨ pre' = []) ∧ seen <+: seen' := by
    refine run_inv (I := fun s => ∃ k pre' seen', s.Inv ino dir chunks k pre' seen' ∧
      (pre' = pre ∨ pre' = []) ∧ seen <+: seen') ?_
        ⟨done, pre, seen, h0, .inl rfl, List.prefix_refl _⟩
      hok hr
    rintro s turn s' ⟨k, pre1, seen1, h1, hpre1, hseen1⟩ hturn hs
    obtain ⟨k', pre2, seen2, h2, hpre2, hseen2⟩ := h1.step hturn hs
    refine ⟨k', pre2, seen2, h2, ?_, hseen1.trans hseen2⟩
    rcases hpre2 with rfl | rfl
    · exact hpre1
    · exact .inr rfl
  have htotal : out = s.total := by
    cases hreader : s.reader with
    | checking left found => rw [hreader] at hout; cases hout
    | reading files res =>
      rw [hreader] at hout
      cases files with
      | cons n files => cases hout
      | nil =>
        cases hout
        simp [ReadSys.total, hreader, Reader.out, Reader.pending, LogsFilter.apply]
  obtain ⟨new, hnew⟩ := parseEventsFile_mono hseen
  refine ⟨olderEntries dir ++ parseEventsFile seen, pre', new, ?_, ?_, ?_, ?_⟩
  · rw [h0.begin_pruned, ← begin_total, h0.total, List.append_assoc]
  · rw [h0.begin_pruned]
    exact hpre.symm
  · rw [htotal, h.total, ← hnew]
    simp
  · have hall : parseEventsFile seen' <+: recs.map Record.entry := by
      rw [← parseEventsFile_encodeAll, ← hbatch]
      refine parseEventsFile_mono (h.part.trans ?_)
      exact ⟨(chunks.drop (k - 8)).flatten, by
        rw [written, ← List.flatten_append, List.take_append_drop]⟩
    rw [← hnew] at hall
    exact (List.suffix_append _ new).isInfix.trans hall.isInfix

/-- One file, and a batch that is written while a call has looked at `.5` only. -/
def oneFile : EventsDir := EventsDir.empty.set 0 (some ⟨3, encodeAll [helloRecord]⟩)

def earlyTurns : List Turn :=
  .reader :: List.replicate 9 .tailer ++ List.replicate 7 .reader

/-- The reader finds the renamed file and the new one. -/
theorem read_early_rotation : ∃ s out,
    run (ReadSys.step 4) (.begin 4 oneFile [encodeAll [emptyLine]] 0) earlyTurns = some s ∧
    s.reader.returned = some out ∧
    ∃ kept pre new, (ReadSys.begin 4 oneFile [encodeAll [emptyLine]] 0).present =
        (ReadSys.begin 4 oneFile [encodeAll [emptyLine]] 0).pruned ++ kept ∧
      (pre = [] ∨ pre = (ReadSys.begin 4 oneFile [encodeAll [emptyLine]] 0).pruned) ∧
      out = pre ++ kept ++ new ∧ new <:+: [emptyLine].map Record.entry := by
  obtain ⟨s, hr, hret⟩ := run_eval (ReadSys.step 4) (.begin 4 oneFile [encodeAll [emptyLine]] 0)
    earlyTurns (fun s => s.reader.returned = some [helloRecord.entry, emptyLine.entry])
    (by decide +kernel)
  exact ⟨s, _, hr, hret, read_during_rotation 4 oneFile [emptyLine] _ (by simp) 0 earlyTurns s _
    (by decide +kernel) hr hret⟩

/-- A full `events.log`, and a batch whose rotation falls between the last check and the read. -/
def fullFile : EventsDir := EventsDir.empty.set 0 (some ⟨3, encodeAll emptyLines⟩)

def lateTurns : List Turn :=
  List.replicate 6 .reader ++ List.replicate 7 .tailer ++ [.reader]

/-- **A rotation hides a whole file from the reader**: `events.log.1` was looked up before
`events.log` moved there, and the file read as `events.log` is the new, empty one. -/
theorem read_misses_file : ∃ s out,
    rotationNeeded fullFile (encodeAll [helloRecord]).length ∧
    run (ReadSys.step 4) (.begin 4 fullFile [encodeAll [helloRecord]] 0) lateTurns = some s ∧
    s.reader.returned = some out ∧
    ¬ ∃ kept pre new, (ReadSys.begin 4 fullFile [encodeAll [helloRecord]] 0).present =
        (ReadSys.begin 4 fullFile [encodeAll [helloRecord]] 0).pruned ++ kept ∧
      (pre = [] ∨ pre = (ReadSys.begin 4 fullFile [encodeAll [helloRecord]] 0).pruned) ∧
      out = pre ++ kept ++ new ∧ new <:+: [helloRecord].map Record.entry := by
  have hneeded : rotationNeeded fullFile (encodeAll [helloRecord]).length := by
    have hbig := emptyLines_big
    have hlen : fullFile.currentLen = (encodeAll emptyLines).length := rfl
    unfold rotationNeeded saturatingAdd
    rw [hlen]
    have : eventsRotateBytes < u64Bound - 1 := by decide
    omega
  refine ⟨_, [], hneeded, rfl, rfl, ?_⟩
  rintro ⟨kept, pre, new, hpresent, -, hout, -⟩
  have hkept : kept = emptyLines.map Record.entry := by
    rw [← parseEventsFile_encodeAll]
    exact hpresent.symm.trans (List.append_nil _)
  have hlen := congrArg List.length hout
  rw [List.length_append, List.length_append, hkept, List.length_map, emptyLines,
    List.length_replicate, List.length_nil] at hlen
  omega

end ContainerdManager.Logs
