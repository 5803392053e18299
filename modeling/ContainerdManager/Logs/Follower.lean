import ContainerdManager.Logs.EventsDir

/-!
# The follower

`poll_events_once` and `drain_rotated_remainder` of `src/logs.rs`. A poll is
cut where the source awaits the file: `pollStat` is what it does with the
answer of the stat (rotation, truncation), `pollRead` what it does with the
bytes of the read; `pollEventsOnce` is a poll during which the directory
does not change. `tx.send` fails once the receiver has been dropped.
-/

namespace ContainerdManager.Logs

open Lib

/-- Per-file state of the follower. -/
structure EventsTailState where
  pos : Nat := 0
  /-- Partial trailing record of the previous poll. -/
  leftover : Bytes := []
  /-- Inode of the events.log it has open, if it ever opened one. -/
  inode : Option Nat := none
  deriving DecidableEq, Repr

/-- The sending half of the follower's channel. -/
structure Sender where
  sent : List LogEntry := []
  /-- How many more entries are taken before the receiver is dropped; `none` while it is kept. -/
  takes : Option Nat := none
  deriving DecidableEq, Repr

def Sender.send (tx : Sender) (entry : LogEntry) : Option Sender :=
  match tx.takes with
  | none => some { tx with sent := tx.sent ++ [entry] }
  | some 0 => none
  | some (k + 1) => some { sent := tx.sent ++ [entry], takes := some k }

inductive PollOutcome where
  | continue
  | receiverDropped
  | fatal (e : Error)
  deriving DecidableEq, Repr

/-- The file operations of a poll, by call site. -/
inductive PollStep where
  | openEvents
  | statEvents
  | seekEvents
  | readEvents
  | openRotated
  | statRotated
  | seekRotated
  | readRotated
  deriving DecidableEq, Repr

abbrev PollFaults := PollStep → Bool

def noPollFaults : PollFaults := fun _ => false

/-- Send entries in turn, until the receiver is gone. -/
def sendAll (tx : Sender) : List LogEntry → PollOutcome × Sender
  | [] => (.continue, tx)
  | entry :: rest =>
    match tx.send entry with
    | none => (.receiverDropped, tx)
    | some tx => sendAll tx rest

/-- Emits the records of `events.log.1` from `prevPos` on, when it is the file that was followed. -/
def drainRotatedRemainder (io : PollFaults) (rotated : Option EventsFile) (prevInode prevPos : Nat)
    (tx : Sender) : PollOutcome × Sender :=
  match rotated with
  | none => (.continue, tx)
  | some file =>
    if io .openRotated then (.fatal (.io "follow: open rotated events"), tx)
    else if io .statRotated then (.fatal (.io "follow: stat rotated events"), tx)
    else if file.inode ≠ prevInode then (.continue, tx)
    else if file.bytes.length ≤ prevPos then (.continue, tx)
    else if io .seekRotated then (.fatal (.io "follow: seek rotated events"), tx)
    else if io .readRotated then (.fatal (.io "follow: read rotated events"), tx)
    else
      let want := min (file.bytes.length - prevPos) rotatedDrainMaxBytes
      sendAll tx (parseEventsFile ((file.bytes.drop prevPos).take want))

/-- What a poll does between the stat, which answered `len` and `inode`, and the read. -/
def pollStat (io : PollFaults) (rotatedFile : Option EventsFile) (len inode : Nat)
    (state : EventsTailState) (tx : Sender) : PollOutcome × EventsTailState × Sender :=
  let rotated := state.inode.any fun prev => prev ≠ inode
  let truncated := decide (len < state.pos)
  if rotated then
    match state.inode with
    | none => (.continue, { pos := 0, leftover := [], inode := some inode }, tx)
    | some prevInode =>
      match drainRotatedRemainder io rotatedFile prevInode state.pos tx with
      | (.continue, tx) => (.continue, { pos := 0, leftover := [], inode := some inode }, tx)
      | (other, tx) => (other, state, tx)
  else if truncated then (.continue, { pos := 0, leftover := [], inode := some inode }, tx)
  else (.continue, { state with inode := some inode }, tx)

/-- The decode loop of a poll: the outcome, the cursor it stops at and the sender. -/
def pollLoop (bytes : Bytes) : Nat → Nat → Sender → PollOutcome × Nat × Sender
  | 0, cursor, tx => (.continue, cursor, tx)
  | fuel + 1, cursor, tx =>
    if cursor < bytes.length then
      match decodeEventWithLen (bytes.drop cursor) with
      | .record entry consumed =>
        match tx.send entry with
        | none => (.receiverDropped, cursor, tx)
        | some tx => pollLoop bytes fuel (cursor + consumed) tx
      | .needMore => (.continue, cursor, tx)
      | .malformed =>
        match resyncOffset (bytes.drop cursor) with
        | some skip => pollLoop bytes fuel (cursor + skip) tx
        | none => (.continue, cursor, tx)
    else (.continue, cursor, tx)

/-- The stuck-leftover guard: an oversize remainder without a terminator is discarded. -/
def keepRemainder (remainder : Bytes) : Bytes :=
  if remainder.length > maxRecordBytes ∧ ¬ nl ∈ remainder then [] else remainder

/-- What a poll does with the bytes `fresh` it read behind `state.pos`; `len` is what the stat
answered. -/
def pollRead (len : Nat) (fresh : Bytes) (state : EventsTailState) (tx : Sender) :
    PollOutcome × EventsTailState × Sender :=
  let combined := state.leftover ++ fresh
  let state := { state with pos := len, leftover := [] }
  match pollLoop combined combined.length 0 tx with
  | (.continue, cursor, tx) =>
    (.continue, { state with leftover := keepRemainder (combined.drop cursor) }, tx)
  | (other, _, tx) => (other, state, tx)

/-- A poll while the directory does not change. -/
def pollEventsOnce (io : PollFaults) (dir : EventsDir) (state : EventsTailState) (tx : Sender) :
    PollOutcome × EventsTailState × Sender :=
  if io .openEvents then (.fatal (.io "follow: open events"), state, tx)
  else
    match dir 0 with
    | none =>
      -- `state.inode` survives a missing file, so that a later poll notices the rotation
      if state.inode.isNone then (.continue, { state with pos := 0, leftover := [] }, tx)
      else (.continue, state, tx)
    | some file =>
      if io .statEvents then (.fatal (.io "follow: stat events"), state, tx)
      else
        match pollStat io (dir 1) file.bytes.length file.inode state tx with
        | (.continue, state, tx) =>
          if file.bytes.length = state.pos then (.continue, state, tx)
          else if io .seekEvents then (.fatal (.io "follow: seek events"), state, tx)
          else if io .readEvents then
            (.fatal (.io "follow: read events"), { state with leftover := [] }, tx)
          else pollRead file.bytes.length (file.bytes.drop state.pos) state tx
        | stopped => stopped

/-! ## Polls without faults and with a live receiver -/

/-- The sender of a kept receiver after `entries` more. -/
def Sender.push (tx : Sender) (entries : List LogEntry) : Sender :=
  { tx with sent := tx.sent ++ entries }

theorem send_live {tx : Sender} (h : tx.takes = none) (entry : LogEntry) :
    tx.send entry = some (tx.push [entry]) := by
  simp [Sender.send, Sender.push, h]

@[simp] theorem push_sent (tx : Sender) (entries : List LogEntry) :
    (tx.push entries).sent = tx.sent ++ entries := rfl

@[simp] theorem push_nil (tx : Sender) : tx.push [] = tx := by simp [Sender.push]

@[simp] theorem push_push (tx : Sender) (a b : List LogEntry) :
    (tx.push a).push b = tx.push (a ++ b) := by
  simp [Sender.push]

theorem sendAll_live {tx : Sender} (h : tx.takes = none) (entries : List LogEntry) :
    sendAll tx entries = (.continue, tx.push entries) := by
  induction entries generalizing tx with
  | nil => simp [sendAll]
  | cons e rest ih =>
    simp only [sendAll, send_live h]
    rw [ih (by exact h), push_push]
    rfl

/-- The decode loop scans the bytes from its cursor on and sends what it decodes. -/
theorem pollLoop_scan (bytes : Bytes) {fuel : Nat} (cursor : Nat) {tx : Sender}
    (htx : tx.takes = none) (hf : bytes.length ≤ fuel + cursor) :
    ∃ stop, pollLoop bytes fuel cursor tx =
        (.continue, stop, tx.push (eventDecoder.scan (bytes.drop cursor)).1) ∧
      bytes.drop stop = (eventDecoder.scan (bytes.drop cursor)).2 := by
  induction fuel generalizing cursor tx with
  | zero =>
    have hd : bytes.drop cursor = [] := List.drop_eq_nil_of_le (by omega)
    rw [hd, scan_nil]
    exact ⟨cursor, by simp [pollLoop], hd⟩
  | succ fuel ih =>
    simp only [pollLoop]
    split
    case isFalse hge =>
      have hd : bytes.drop cursor = [] := List.drop_eq_nil_of_le (by omega)
      rw [hd, scan_nil]
      exact ⟨cursor, by simp, hd⟩
    case isTrue hlt =>
      cases hdec : decodeEventWithLen (bytes.drop cursor) with
      | record e n =>
        have hw := decode_record_width hdec
        have hlive : (tx.push [e]).takes = none := htx
        obtain ⟨stop, h1, h2⟩ := ih (cursor + n) hlive (by omega)
        simp only [send_live htx]
        rw [Decoder.scan_item (front_record hdec), List.drop_drop]
        exact ⟨stop, by rw [h1, push_push]; rfl, h2⟩
      | needMore =>
        rw [Decoder.scan_wait (front_needMore hdec)]
        exact ⟨cursor, by simp, rfl⟩
      | malformed =>
        cases hr : resyncOffset (bytes.drop cursor) with
        | none =>
          rw [Decoder.scan_wait (front_stuck hdec hr)]
          exact ⟨cursor, by simp, rfl⟩
        | some n =>
          have hw := resyncOffset_width hr
          obtain ⟨stop, h1, h2⟩ := ih (cursor + n) htx (by omega)
          rw [Decoder.scan_skip (front_resync hdec hr), List.drop_drop]
          exact ⟨stop, h1, h2⟩

/-- **What a read sends and keeps**: the scan of the leftover and the new bytes. -/
theorem pollRead_scan (len : Nat) (fresh : Bytes) (state : EventsTailState) {tx : Sender}
    (htx : tx.takes = none) :
    pollRead len fresh state tx =
      (.continue,
        { pos := len
          leftover := keepRemainder (eventDecoder.scan (state.leftover ++ fresh)).2
          inode := state.inode },
        tx.push (eventDecoder.scan (state.leftover ++ fresh)).1) := by
  obtain ⟨stop, h1, h2⟩ := pollLoop_scan (state.leftover ++ fresh) 0 htx (Nat.le_refl _)
  rw [List.drop_zero] at h1 h2
  simp only [pollRead, h1, h2]

theorem keepRemainder_eq {remainder : Bytes}
    (h : nl ∉ remainder → remainder.length ≤ maxRecordBytes) :
    keepRemainder remainder = remainder := by
  unfold keepRemainder
  split
  · rename_i hc
    have := h hc.2
    omega
  · rfl

/-- A stat of the file the follower already has open, or of the first one it opens. -/
theorem pollStat_same {io : PollFaults} {rotatedFile : Option EventsFile} {len inode : Nat}
    {state : EventsTailState} (tx : Sender) (hi : state.inode = none ∨ state.inode = some inode)
    (hl : state.pos ≤ len) :
    pollStat io rotatedFile len inode state tx =
      (.continue, { state with inode := some inode }, tx) := by
  have hr : (state.inode.any fun prev => prev ≠ inode) = false := by
    rcases hi with h | h <;> simp [h]
  have ht : ¬ len < state.pos := by omega
  simp only [pollStat, hr, Bool.false_eq_true, if_false, ht, decide_false]

/-- **A poll of the file the follower is on** scans its leftover and the bytes behind `pos`. -/
theorem pollEventsOnce_same {dir : EventsDir} {file : EventsFile} {state : EventsTailState}
    {tx : Sender} (hf : dir 0 = some file) (hi : state.inode = none ∨ state.inode = some file.inode)
    (hl : state.pos ≤ file.bytes.length) (htx : tx.takes = none)
    (hrest : eventDecoder.front state.leftover = .wait)
    (hkeep : keepRemainder state.leftover = state.leftover) :
    pollEventsOnce noPollFaults dir state tx =
      (.continue,
        { pos := file.bytes.length
          leftover :=
            keepRemainder (eventDecoder.scan (state.leftover ++ file.bytes.drop state.pos)).2
          inode := some file.inode },
        tx.push (eventDecoder.scan (state.leftover ++ file.bytes.drop state.pos)).1) := by
  simp only [pollEventsOnce, noPollFaults, Bool.false_eq_true, if_false, hf, pollStat_same tx hi hl]
  by_cases he : file.bytes.length = state.pos
  · -- nothing new: the poll returns before the read
    rw [if_pos he, List.drop_eq_nil_of_le (Nat.le_of_eq he), List.append_nil,
      Decoder.scan_wait hrest]
    simp [hkeep, he]
  · rw [if_neg he, pollRead_scan _ _ _ htx]

/-! ## The file a follower is on -/

/-- `F` has no newline-free stretch longer than a record may be. -/
def ShortRuns (F : Bytes) : Prop := ∀ u, u <:+: F → nl ∉ u → u.length ≤ maxRecordBytes

theorem ShortRuns.mono {F G : Bytes} (h : ShortRuns F) (hp : G <+: F) : ShortRuns G :=
  fun u hu => h u (hu.trans hp.isInfix)

theorem ShortRuns.keep {F : Bytes} (h : ShortRuns F) :
    keepRemainder (eventDecoder.scan F).2 = (eventDecoder.scan F).2 :=
  keepRemainder_eq (h _ (Decoder.scan_snd_suffix F).isInfix)

theorem ShortRuns.of_length {F : Bytes} (h : F.length ≤ maxRecordBytes) : ShortRuns F :=
  fun _ hu _ => Nat.le_trans hu.length_le h

/-- The follower is on `events.log`, or has not opened it yet, and what it has sent and kept is the
scan of what it has read. -/
structure Reading (dir : EventsDir) (state : EventsTailState) (tx : Sender) : Prop where
  inode : (state.inode = none ∧ state.pos = 0) ∨
    ∃ file, dir 0 = some file ∧ state.inode = some file.inode
  pos_le : state.pos ≤ dir.logBytes.length
  read : eventDecoder.scan (dir.logBytes.take state.pos) = (tx.sent, state.leftover)
  live : tx.takes = none

theorem Reading.init (dir : EventsDir) : Reading dir {} {} where
  inode := .inl ⟨rfl, rfl⟩
  pos_le := Nat.zero_le _
  read := scan_nil
  live := rfl

/-- Bytes that reach the file change nothing of what has been read. -/
theorem Reading.append {dir : EventsDir} {state : EventsTailState} {tx : Sender}
    (h : Reading dir state tx) (ino : Nat) (bytes : Bytes) :
    Reading (appendBytes (openAppend ino dir) bytes) state tx where
  inode := by
    refine h.inode.imp id ?_
    rintro ⟨file, hf, hi⟩
    exact ⟨{ file with bytes := file.bytes ++ bytes }, by simp [openAppend, appendBytes, hf], hi⟩
  pos_le := by
    have := h.pos_le
    rw [logBytes_append, List.length_append]
    omega
  read := by
    rw [logBytes_append, List.take_append_of_le_length h.pos_le]
    exact h.read
  live := h.live

/-- **A poll reads the file to its end**, whatever part of a record it ends in, as long as that is
shorter than a record may be. -/
theorem Reading.poll {dir : EventsDir} {state : EventsTailState} {tx : Sender}
    (h : Reading dir state tx) (hsmall : dir.logBytes.length ≤ maxRecordBytes) :
    ∃ state' tx', pollEventsOnce noPollFaults dir state tx = (.continue, state', tx') ∧
      Reading dir state' tx' ∧ tx'.sent = (eventDecoder.scan dir.logBytes).1 := by
  have hread := h.read
  have hleft : state.leftover = (eventDecoder.scan (dir.logBytes.take state.pos)).2 := by
    rw [hread]
  cases hd : dir 0 with
  | none =>
    have hlog : dir.logBytes = [] := by rw [EventsDir.logBytes, hd]; rfl
    have hnone : state.inode = none := by
      rcases h.inode with hi | ⟨file, hf, -⟩
      · exact hi.1
      · rw [hd] at hf
        cases hf
    rw [hlog, List.take_nil, scan_nil] at hread
    have hsent : tx.sent = [] := (congrArg Prod.fst hread).symm
    refine ⟨{ state with pos := 0, leftover := [] }, tx, ?_, ⟨.inl ⟨hnone, rfl⟩, Nat.zero_le _, ?_,
      h.live⟩, ?_⟩
    · simp [pollEventsOnce, noPollFaults, hd, hnone]
    · rw [List.take_zero, scan_nil, hsent]
    · rw [hlog, scan_nil, hsent]
  | some file =>
    have hlog := logBytes_some hd
    have hpos := h.pos_le
    rw [hlog] at hread hleft hpos hsmall
    have hi : state.inode = none ∨ state.inode = some file.inode := by
      rcases h.inode with hi | ⟨file', hf, hi⟩
      · exact .inl hi.1
      · rw [hd] at hf
        cases hf
        exact .inr hi
    have hshort : ShortRuns file.bytes := .of_length hsmall
    have hpoll := pollEventsOnce_same hd hi hpos h.live
      (by rw [hleft]; exact Decoder.front_scan_snd _)
      (by rw [hleft]; exact (hshort.mono (List.take_prefix _ _)).keep)
    have hfeed := Decoder.scan_append (D := eventDecoder) (file.bytes.take state.pos)
      (file.bytes.drop state.pos)
    rw [List.take_append_drop, hread] at hfeed
    have hkeep := hshort.keep
    rw [hfeed] at hkeep
    refine ⟨_, _, hpoll, ⟨.inr ⟨file, hd, rfl⟩, ?_, ?_, h.live⟩, ?_⟩
    · exact Nat.le_of_eq (by rw [hlog])
    · rw [hlog, List.take_length, hkeep, hfeed]
      rfl
    · rw [hlog, hfeed]
      rfl

/-! ## Following appends of one file -/

/-- The file `events.log` of inode `ino`, its follower and what it has sent. -/
structure Following where
  bytes : Bytes := []
  state : EventsTailState := {}
  tx : Sender := {}

/-- Append a chunk, then poll; the other files of the directory are those of `dir`. -/
def Following.appendAndPoll (dir : EventsDir) (ino : Nat) (s : Following) (chunk : Bytes) :
    Following :=
  let bytes := s.bytes ++ chunk
  let r := pollEventsOnce noPollFaults (dir.set 0 (some ⟨ino, bytes⟩)) s.state s.tx
  { bytes := bytes, state := r.2.1, tx := r.2.2 }

/-- The follower has read all of the file and agrees with the scan of it. -/
structure Following.InSync (ino : Nat) (s : Following) : Prop where
  pos : s.state.pos = s.bytes.length
  leftover : s.state.leftover = (eventDecoder.scan s.bytes).2
  sent : s.tx.sent = (eventDecoder.scan s.bytes).1
  live : s.tx.takes = none
  inode : s.state.inode = none ∨ s.state.inode = some ino

theorem Following.InSync.step {dir : EventsDir} {ino : Nat} {s : Following} (h : s.InSync ino)
    {chunk : Bytes} (hs : ShortRuns (s.bytes ++ chunk)) :
    (s.appendAndPoll dir ino chunk).InSync ino := by
  have hfeed := Decoder.scan_append (D := eventDecoder) s.bytes chunk
  have hfile : dir.set 0 (some ⟨ino, s.bytes ++ chunk⟩) 0 = some ⟨ino, s.bytes ++ chunk⟩ :=
    Slots.set_self _ _ _
  have hpos : s.state.pos ≤ (s.bytes ++ chunk).length := by
    rw [h.pos, List.length_append]
    omega
  have hpoll := pollEventsOnce_same hfile h.inode hpos h.live
    (by rw [h.leftover]; exact Decoder.front_scan_snd _)
    (by rw [h.leftover]; exact (hs.mono (List.prefix_append _ _)).keep)
  rw [h.pos, List.drop_left, h.leftover] at hpoll
  have hkeep := hs.keep
  rw [hfeed] at hkeep
  constructor <;> simp only [appendAndPoll, hpoll]
  · rw [hfeed]; exact hkeep
  · rw [push_sent, h.sent, hfeed]
  · exact h.live
  · exact .inr trivial

theorem Following.InSync.init (ino : Nat) : Following.InSync ino {} where
  pos := rfl
  leftover := by rw [scan_nil]
  sent := by rw [scan_nil]
  live := rfl
  inode := .inl rfl

/-- **Incremental decoding equals batch decoding**: however `F` is cut into appends, each followed
by a poll, the follower sends what `parse_events_file` returns for `F` and is left with the bytes
it stops on. -/
theorem followChunks_eq_parse (dir : EventsDir) (ino : Nat) (F : Bytes) (chunks : List Bytes)
    (hF : chunks.flatten = F) (hs : ShortRuns F) :
    (chunks.foldl (Following.appendAndPoll dir ino) {}).tx.sent = parseEventsFile F ∧
      (chunks.foldl (Following.appendAndPoll dir ino) {}).state.leftover =
        parseEventsFileRest F := by
  suffices ∀ s : Following, s.InSync ino → ShortRuns (s.bytes ++ chunks.flatten) →
      (chunks.foldl (Following.appendAndPoll dir ino) s).InSync ino ∧
        (chunks.foldl (Following.appendAndPoll dir ino) s).bytes = s.bytes ++ chunks.flatten by
    obtain ⟨hsync, hb⟩ := this {} (.init ino) (by rw [hF]; exact hs)
    rw [parseEventsFile_eq, parseEventsFileRest_eq, hsync.sent, hsync.leftover, hb, hF]
    exact ⟨rfl, rfl⟩
  clear hF
  induction chunks with
  | nil => intro s h _; exact ⟨h, by simp⟩
  | cons c cs ih =>
    intro s h hs
    rw [List.flatten_cons, ← List.append_assoc] at hs
    obtain ⟨h1, h2⟩ := ih (s.appendAndPoll dir ino c) (h.step (hs.mono (List.prefix_append _ _))) hs
    exact ⟨h1, by rw [List.foldl_cons, h2, List.flatten_cons, ← List.append_assoc]; rfl⟩

theorem followChunks_hello :
    ShortRuns helloRecord.encode ∧
      [helloRecord.encode.take 5, [], helloRecord.encode.drop 5].flatten = helloRecord.encode ∧
      ([helloRecord.encode.take 5, [], helloRecord.encode.drop 5].foldl
        (Following.appendAndPoll .empty 7) {}).tx.sent = parseEventsFile helloRecord.encode :=
  ⟨.of_length (by decide), by decide,
    (followChunks_eq_parse .empty 7 helloRecord.encode
      [helloRecord.encode.take 5, [], helloRecord.encode.drop 5] (by decide)
      (.of_length (by decide))).1⟩

end ContainerdManager.Logs
