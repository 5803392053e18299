import ContainerdManager.Error
import ContainerdManager.Lib.Slots
import ContainerdManager.Logs.Parse

/-!
# The events files of a container

Slot `0` of an `EventsDir` is `events.log`, slot `n` is `events.log.n`.
`appendBatch` and `rotateIfNeeded` are those of `src/log_tailer.rs`, with
the rotation spelled out as its sequence of file operations so that it can
be cut anywhere; `containerLogsFiltered` is the reader of `src/logs.rs`.
Every file operation has a site in `IoStep`, and a failing operation leaves
its file as it was.
-/

namespace ContainerdManager.Logs

open Lib

structure EventsFile where
  inode : Nat
  bytes : Bytes
  deriving DecidableEq, Repr

/-- `events.log` at `0` and `events.log.n` at `n`. -/
abbrev EventsDir := Slots EventsFile

def EventsDir.empty : EventsDir := fun _ => none

/-- The file operations of the tailer, by call site. -/
inductive IoStep where
  | openRaw
  | statRaw
  | seekRaw
  | readRaw
  | statEvents
  | removeOldest
  | renameEvents (n : Nat)
  | createEvents
  | openEvents
  | writeEvents
  deriving DecidableEq, Repr

/-- Which operations fail in a pass. -/
abbrev IoFaults := IoStep → Bool

def noFaults : IoFaults := fun _ => false

/-- One file operation of a rotation. -/
inductive RotateOp where
  | remove (n : Nat)
  | rename (src dst : Nat)
  | create
  deriving DecidableEq, Repr

/-- `OpenOptions::create(true).append(true).open(events_path)`: a missing file is created, empty,
under a new inode. -/
def openAppend (ino : Nat) (dir : EventsDir) : EventsDir :=
  match dir 0 with
  | some _ => dir
  | none => dir.set 0 (some ⟨ino, []⟩)

/-- A failing removal or rename is not an error; the rotation goes on. -/
def RotateOp.run (io : IoFaults) (ino : Nat) (dir : EventsDir) : RotateOp → EventsDir
  | .remove n => if io .removeOldest then dir else dir.set n none
  | .rename src dst => if io (.renameEvents src) then dir else dir.rename src dst
  | .create => if io .createEvents then dir else openAppend ino dir

/-- The operations of a rotation, in order: prune the oldest file, shift the others up, move
`events.log` to `.1` and recreate it. -/
def rotateOps : List RotateOp :=
  .remove maxRotatedFiles ::
    ((List.range' 1 (maxRotatedFiles - 1)).reverse.map fun n => .rename n (n + 1)) ++
    [.rename 0 1, .create]

/-- `u64::saturating_add`. -/
def saturatingAdd (a b : Nat) : Nat := min (a + b) (u64Bound - 1)

/-- The length `fs::metadata` reports, `0` for a missing file. -/
def EventsDir.currentLen (dir : EventsDir) : Nat :=
  match dir 0 with
  | some f => f.bytes.length
  | none => 0

/-- Whether appending `incoming` bytes makes `rotate_if_needed` rotate. -/
def rotationNeeded (dir : EventsDir) (incoming : Nat) : Prop :=
  ¬ saturatingAdd dir.currentLen incoming ≤ eventsRotateBytes

instance (dir : EventsDir) (incoming : Nat) : Decidable (rotationNeeded dir incoming) :=
  inferInstanceAs (Decidable (¬ _))

def rotateIfNeeded (io : IoFaults) (ino : Nat) (dir : EventsDir) (incoming : Nat) :
    Except Error Unit × EventsDir :=
  if io .statEvents then (.error (.io "tailer: stat events"), dir)
  else if rotationNeeded dir incoming then
    let dir' := rotateOps.foldl (RotateOp.run io ino) dir
    if io .createEvents then (.error (.io "tailer: create new events after rotate"), dir')
    else (.ok (), dir')
  else (.ok (), dir)

/-- The most `tokio::fs::File` writes at once. -/
def maxWriteChunk : Nat := 2 * 1024 * 1024

/-- `write_all` on a file opened for appending. -/
def appendBytes (dir : EventsDir) (batch : Bytes) : EventsDir :=
  match dir 0 with
  | some f => dir.set 0 (some { f with bytes := f.bytes ++ batch })
  | none => dir

/-- What `write_all` on a file of `tokio::fs` answers when every write of the batch fails. A chunk
is written in the background, and its failure comes back with the next chunk: there is no flush, so
that of the last one is dropped with the file. -/
def writeFails (batch : Bytes) : Except Error Unit :=
  if batch.length ≤ maxWriteChunk then .ok () else .error (.io "tailer: write events")

def appendBatch (io : IoFaults) (ino : Nat) (dir : EventsDir) (batch : Bytes) :
    Except Error Unit × EventsDir :=
  match rotateIfNeeded io ino dir batch.length with
  | (.error e, dir) => (.error e, dir)
  | (.ok (), dir) =>
    if io .openEvents then (.error (.io "tailer: open events"), dir)
    else if io .writeEvents then (writeFails batch, openAppend ino dir)
    else (.ok (), appendBytes (openAppend ino dir) batch)

/-! ## The bytes of events.log -/

/-- Bytes of `events.log`, none when it does not exist. -/
def EventsDir.logBytes (dir : EventsDir) : Bytes := (dir 0).elim [] EventsFile.bytes

theorem logBytes_some {dir : EventsDir} {file : EventsFile} (h : dir 0 = some file) :
    dir.logBytes = file.bytes := by
  simp [EventsDir.logBytes, h]

theorem logBytes_append (dir : EventsDir) (ino : Nat) (batch : Bytes) :
    EventsDir.logBytes (appendBytes (openAppend ino dir) batch) = dir.logBytes ++ batch := by
  unfold EventsDir.logBytes openAppend
  cases h : dir 0 <;> simp [appendBytes, h]

/-! ## Reading -/

/-- The slots read, oldest first; `events.log` is read whether or not it exists. -/
def eventsFilesOldestFirst (dir : EventsDir) : List Nat :=
  ((List.range' 1 maxRotatedFiles).reverse.filter fun n => (dir n).isSome) ++ [0]

def readFileOrEmpty (fails : Nat → Bool) (dir : EventsDir) (n : Nat) : Except Error Bytes :=
  match dir n with
  | none => .ok []
  | some f => if fails n then .error (.io "read task log file") else .ok f.bytes

structure LogsFilter where
  tail : Option Nat := none
  since : Option Int := none
  until_ : Option Int := none

/-- `since`, then `until`, then the last `tail` entries. -/
def LogsFilter.apply (filter : LogsFilter) (all : List LogEntry) : List LogEntry :=
  let all := match filter.since with
    | some since => all.filter fun e => decide (since ≤ e.timestamp)
    | none => all
  let all := match filter.until_ with
    | some until_ => all.filter fun e => decide (e.timestamp ≤ until_)
    | none => all
  match filter.tail with
  | some n => if all.length > n then all.drop (all.length - n) else all
  | none => all

/-- The events of the given files in turn; the first unreadable one is the error. -/
def readEvents (fails : Nat → Bool) (dir : EventsDir) : List Nat → Except Error (List LogEntry)
  | [] => .ok []
  | n :: ns =>
    match readFileOrEmpty fails dir n with
    | .error e => .error e
    | .ok bytes =>
      match readEvents fails dir ns with
      | .error e => .error e
      | .ok rest => .ok (parseEventsFile bytes ++ rest)

def containerLogsFiltered (fails : Nat → Bool) (dir : EventsDir) (filter : LogsFilter) :
    Except Error (List LogEntry) :=
  (readEvents fails dir (eventsFilesOldestFirst dir)).map filter.apply

def containerLogs (fails : Nat → Bool) (dir : EventsDir) : Except Error (List LogEntry) :=
  containerLogsFiltered fails dir {}

end ContainerdManager.Logs
