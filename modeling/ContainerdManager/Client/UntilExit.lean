import ContainerdManager.Lib.Runs
import ContainerdManager.Logs.Follower
import ContainerdManager.Tailer.Runs
import ContainerdManager.Types

/-!
# Streaming logs until the task exits

`container_logs_stream_until_exit` of `src/client.rs` joins four loops: the
task writes its raw files, the tailer moves lines into `events.log`, a
watcher polls the task's status, and the follower polls `events.log` until
the watcher signals the exit, then once more. A pass of the tailer moves its
position when it reads; what it has read reaches `events.log` later, and the
follower may poll in between. The signal does not pass through the tailer:
the final poll reads what has reached `events.log` by then.
`until_exit_delivers` says when that is every line of the task.
-/

namespace ContainerdManager.Client

open Lib Logs Tailer

/-! ## The watcher -/

/-- Failures in a row after which the watcher gives up and ends the stream. -/
def maxInspectErrors : Nat := 60

/-- What one `inspect_container` of the watcher answers. -/
inductive Inspected where
  | status (status : Option TaskStatus)
  | containerNotFound
  | failed
  deriving DecidableEq, Repr

structure Watcher where
  consecutiveErrors : Nat := 0
  /-- It has sent the stop signal and returned. -/
  signalled : Bool := false
  deriving DecidableEq, Repr

def Watcher.inspect (w : Watcher) : Inspected → Watcher
  | .status status => { consecutiveErrors := 0, signalled := decide (status = some .stopped) }
  | .containerNotFound => { w with signalled := true }
  | .failed =>
    { consecutiveErrors := w.consecutiveErrors + 1
      signalled := decide (w.consecutiveErrors + 1 ≥ maxInspectErrors) }

/-! ## The four loops -/

/-- Where `follow_loop` is. -/
inductive FollowerPc where
  | poll
  /-- Waiting for the interval or the stop signal. -/
  | select
  | finalPoll
  /-- Returned: `recv` answers `None` once the channel is empty. -/
  | done
  deriving DecidableEq, Repr

structure StreamSys where
  raw : LogStream → Option Bytes := fun _ => some []
  exited : Bool := false
  tailer : TailerLoop := {}
  /-- The part of the batches the tailer has read that is not in `events.log` yet. -/
  pending : Bytes := []
  dir : EventsDir := .empty
  watcher : Watcher := {}
  pc : FollowerPc := .poll
  state : EventsTailState := {}
  tx : Sender := {}

inductive StreamAct where
  | write (stream : LogStream) (data : Bytes)
  | exit
  /-- A step of the tailer, a pass up to its batch; the task appends `grown` to the file while it is
  read. -/
  | tick (now : Int) (grown : Bytes)
  /-- The next `n` bytes of what the tailer has read reach `events.log`, which `append_batch`
  creates under inode `ino` if it is not there. -/
  | append (ino n : Nat)
  | inspect (answer : Inspected)
  /-- A step of the follower; `stop` tells which branch its wait takes if the signal is there. -/
  | follow (stop : Bool)

def StreamSys.step (s : StreamSys) : StreamAct → Option StreamSys
  | .write stream data =>
    if s.exited then none
    else some { s with
      raw := Function.update s.raw stream (some ((s.raw stream).getD [] ++ data)) }
  | .exit => if s.exited then none else some { s with exited := true }
  | .tick now grown =>
    let env : PassEnv := { now := now, grown := grown }
    let pending := s.pending ++ s.tailer.batch env s.raw
    -- nothing is written after the exit, and no batch rotates the file
    if s.exited = true ∧ grown ≠ [] ∨ rotationNeeded s.dir pending.length then none
    else
      -- without I/O errors the loop goes on as if the batch were in the file
      match s.tailer.tick env false s.raw s.dir with
      | (tailer, _) =>
        some { s with
          raw := growRaw s.raw s.tailer.pc grown, tailer := tailer, pending := pending }
  | .append ino n =>
    if s.pending = [] then none
    else
      some { s with
        dir := appendBytes (openAppend ino s.dir) (s.pending.take n), pending := s.pending.drop n }
  | .inspect answer =>
    -- containerd reports no running task stopped
    if s.watcher.signalled = true ∨ answer = .status (some .stopped) ∧ s.exited = false then none
    else some { s with watcher := s.watcher.inspect answer }
  | .follow stop =>
    match s.pc with
    | .poll =>
      match pollEventsOnce noPollFaults s.dir s.state s.tx with
      | (_, state, tx) => some { s with pc := .select, state := state, tx := tx }
    | .select =>
      some { s with pc := if stop = true ∧ s.watcher.signalled = true then .finalPoll else .poll }
    | .finalPoll =>
      match pollEventsOnce noPollFaults s.dir s.state s.tx with
      | (_, state, tx) => some { s with pc := .done, state := state, tx := tx }
    | .done => none

/-- The data of the entries the follower has sent for a stream. -/
def StreamSys.delivered (s : StreamSys) (stream : LogStream) : List Bytes :=
  (s.tx.sent.filter fun e => e.stream = stream).map LogEntry.data

/-- The final poll runs after the exit, with no complete line left to the tailer, and all that the
tailer has read in `events.log`. -/
def CaughtUp (s : StreamSys) : StreamAct → Prop
  | .follow _ => s.pc = .finalPoll → s.exited = true ∧ s.pending = [] ∧
      ∀ stream, nl ∉ ((s.raw stream).getD []).drop (s.tailer.tail stream).pos
  | .write _ _ | .exit | .tick _ _ | .append _ _ | .inspect _ => True

instance (s : StreamSys) : DecidablePred (CaughtUp s)
  | .follow _ => inferInstanceAs (Decidable (_ → _))
  | .write _ _ | .exit | .tick _ _ | .append _ _ | .inspect _ => .isTrue trivial

/-! ## The invariant -/

/-- `recs` are the records in `events.log` and on their way there, and the follower has sent those
it has read completely. -/
structure StreamSys.Inv (s : StreamSys) (recs : List Record) : Prop where
  log : s.dir.logBytes ++ s.pending = encodeAll recs
  small : (encodeAll recs).length ≤ eventsRotateBytes
  streams : ∀ stream, StreamInv (dataOn stream recs) (s.raw stream) (s.tailer.tail stream)
  reading : Reading s.dir s.state s.tx
  done : s.pc = .done → s.exited = true ∧
    ∀ stream, LinesRecorded (s.delivered stream) ((s.raw stream).getD [])

theorem StreamSys.Inv.init : StreamSys.Inv {} [] where
  log := rfl
  small := Nat.zero_le _
  streams _ := .init _
  reading := .init _
  done h := by cases h

theorem StreamSys.Inv.write {s s' : StreamSys} {recs : List Record} (h : s.Inv recs)
    {stream : LogStream} {data : Bytes} (hs : s.step (.write stream data) = some s') :
    s'.Inv recs := by
  simp only [StreamSys.step] at hs
  split at hs
  case isTrue => cases hs
  case isFalse hrun =>
    cases hs
    exact ⟨h.log, h.small, StreamInv.writeRaw h.streams stream data, h.reading,
      fun hd => absurd (h.done hd).1 hrun⟩

theorem StreamSys.Inv.exit {s s' : StreamSys} {recs : List Record} (h : s.Inv recs)
    (hs : s.step .exit = some s') : s'.Inv recs := by
  simp only [StreamSys.step] at hs
  split at hs
  case isTrue => cases hs
  case isFalse =>
    cases hs
    exact ⟨h.log, h.small, h.streams, h.reading, fun hd => ⟨rfl, (h.done hd).2⟩⟩

theorem StreamSys.Inv.inspect {s s' : StreamSys} {recs : List Record} (h : s.Inv recs)
    {answer : Inspected} (hs : s.step (.inspect answer) = some s') : s'.Inv recs := by
  simp only [StreamSys.step] at hs
  split at hs
  case isTrue => cases hs
  case isFalse =>
    cases hs
    exact ⟨h.log, h.small, h.streams, h.reading, h.done⟩

/-- What is pending rotates nothing, and so the file stays small. -/
theorem length_le_of_fits {dir : EventsDir} {pending : Bytes}
    (h : ¬ rotationNeeded dir pending.length) :
    (dir.logBytes ++ pending).length ≤ eventsRotateBytes := by
  have hlen : dir.currentLen = dir.logBytes.length := by
    unfold EventsDir.currentLen EventsDir.logBytes
    cases dir 0 <;> rfl
  have hbound : eventsRotateBytes < u64Bound - 1 := by decide
  rw [rotationNeeded, not_not, saturatingAdd, hlen] at h
  rw [List.length_append]
  omega

theorem StreamSys.Inv.tick {s s' : StreamSys} {recs : List Record} (h : s.Inv recs)
    {now : Int} {grown : Bytes} (hs : s.step (.tick now grown) = some s') :
    ∃ recs', s'.Inv recs' := by
  simp only [StreamSys.step] at hs
  split at hs
  case isTrue => cases hs
  case isFalse hguard =>
    cases hs
    obtain ⟨hstill, hfits⟩ := not_or.mp hguard
    obtain ⟨more, hbatch, -, hstreams⟩ := tick_spec h.streams
      { now := now, grown := grown } rfl false s.dir
    have hlog : s.dir.logBytes ++ (s.pending ++
        s.tailer.batch { now := now, grown := grown } s.raw) = encodeAll (recs ++ more) := by
      rw [hbatch, ← List.append_assoc, h.log, encodeAll_append]
    refine ⟨recs ++ more, hlog, ?_, fun stream => ?_, h.reading, fun hd => ?_⟩
    · rw [← hlog]
      exact length_le_of_fits hfits
    · rw [dataOn_append]
      exact StreamInv.growRaw (hstreams stream) _ _
    · obtain ⟨hexited, hrec⟩ := h.done hd
      have hgrown : grown = [] := by
        by_contra hne
        exact hstill ⟨hexited, hne⟩
      refine ⟨hexited, fun stream => ?_⟩
      simp only [hgrown, growRaw_nil]
      exact hrec stream

theorem StreamSys.Inv.append {s s' : StreamSys} {recs : List Record} (h : s.Inv recs)
    {ino n : Nat} (hs : s.step (.append ino n) = some s') : s'.Inv recs := by
  simp only [StreamSys.step] at hs
  split at hs
  case isTrue => cases hs
  case isFalse =>
    cases hs
    refine ⟨?_, h.small, h.streams, h.reading.append _ _, h.done⟩
    rw [logBytes_append, List.append_assoc, List.take_append_drop]
    exact h.log

/-- The file is never longer than a record may be. -/
theorem StreamSys.Inv.logBytes_le {s : StreamSys} {recs : List Record} (h : s.Inv recs) :
    s.dir.logBytes.length ≤ maxRecordBytes := by
  have hle := congrArg List.length h.log
  have hsmall := h.small
  have hmax : eventsRotateBytes ≤ maxRecordBytes := by decide
  rw [List.length_append] at hle
  omega

theorem delivered_eq {s : StreamSys} {recs : List Record} (h : s.tx.sent = recs.map Record.entry)
    (stream : LogStream) : s.delivered stream = dataOn stream recs := by
  rw [StreamSys.delivered, h, data_entries]

theorem StreamSys.Inv.follow {s s' : StreamSys} {recs : List Record} (h : s.Inv recs)
    {stop : Bool} (hok : CaughtUp s (.follow stop)) (hs : s.step (.follow stop) = some s') :
    s'.Inv recs := by
  obtain ⟨state, tx, hpoll, hreading, hsent⟩ := h.reading.poll h.logBytes_le
  cases hpc : s.pc with
  | poll =>
    simp only [StreamSys.step, hpc, hpoll] at hs
    cases hs
    exact ⟨h.log, h.small, h.streams, hreading, fun hd => by cases hd⟩
  | select =>
    simp only [StreamSys.step, hpc] at hs
    cases hs
    refine ⟨h.log, h.small, h.streams, h.reading, fun hd => ?_⟩
    simp only at hd
    split at hd <;> cases hd
  | finalPoll =>
    obtain ⟨hexited, hpending, hrest⟩ := hok hpc
    simp only [StreamSys.step, hpc, hpoll] at hs
    cases hs
    refine ⟨h.log, h.small, h.streams, hreading, fun _ => ⟨hexited, fun stream => ?_⟩⟩
    -- all that has been read is in the file, and the poll has sent it
    have hlog := h.log
    rw [hpending, List.append_nil] at hlog
    rw [hlog, scan_encodeAll] at hsent
    rw [delivered_eq hsent]
    exact (h.streams stream).linesRecorded (hrest stream)
  | done =>
    simp only [StreamSys.step, hpc] at hs
    cases hs

theorem StreamSys.Inv.step {s s' : StreamSys} {a : StreamAct} (h : ∃ recs, s.Inv recs)
    (hok : CaughtUp s a) (hs : s.step a = some s') : ∃ recs, s'.Inv recs := by
  obtain ⟨recs, h⟩ := h
  cases a with
  | write stream data => exact ⟨recs, h.write hs⟩
  | exit => exact ⟨recs, h.exit hs⟩
  | tick now grown => exact h.tick hs
  | append ino n => exact ⟨recs, h.append hs⟩
  | inspect answer => exact ⟨recs, h.inspect hs⟩
  | follow stop => exact ⟨recs, h.follow hok hs⟩

end ContainerdManager.Client
