import ContainerdManager.Lib.Runs
import ContainerdManager.Logs.Follower

/-!
# A follower and a writer, step by step

`follow_loop` polls one `events.log` that the tailer appends whole records
to. The writer's appends may fall between the open, the stat, the read and
the sends of a poll. `poll_events_once` reads to the end of the file but
moves its position only to the length the stat answered: an append between
the two is read twice. Runs without such an append deliver every record
exactly once, in order (`follow_in_order`).
-/

namespace ContainerdManager.Logs

open Lib

/-- Where the follower is in its poll. -/
inductive PollPhase where
  /-- Between two polls. -/
  | idle
  | opened
  /-- The stat answered `len`, which is not the position: a read follows. -/
  | statted (len : Nat)
  /-- The read is done; the entries still to be sent, and the state the poll ends in. -/
  | sending (pending : List LogEntry) (final : EventsTailState)
  deriving DecidableEq, Repr

structure FollowSys where
  dir : EventsDir := .empty
  appended : List Record := []
  phase : PollPhase := .idle
  state : EventsTailState := {}
  sent : List LogEntry := []

inductive FollowAct where
  /-- The tailer appends whole records; a file it creates gets inode `ino`. -/
  | append (recs : List Record) (ino : Nat)
  | open
  | stat
  | read
  | send
  | finish

def FollowSys.step (s : FollowSys) : FollowAct → Option FollowSys
  | .append recs ino =>
    some { s with
      dir := appendBytes (openAppend ino s.dir) (encodeAll recs)
      appended := s.appended ++ recs }
  | .open =>
    match s.phase, s.dir 0 with
    | .idle, none =>
      some { s with
        state := if s.state.inode.isNone then { s.state with pos := 0, leftover := [] }
          else s.state }
    | .idle, some _ => some { s with phase := .opened }
    | _, _ => none
  | .stat =>
    match s.phase, s.dir 0 with
    | .opened, some file =>
      match pollStat noPollFaults (s.dir 1) file.bytes.length file.inode s.state
        { sent := s.sent } with
      | (.continue, state, tx) =>
        let phase := if file.bytes.length = state.pos then .idle else .statted file.bytes.length
        some { s with state := state, sent := tx.sent, phase := phase }
      | _ => none
    | _, _ => none
  | .read =>
    match s.phase, s.dir 0 with
    | .statted len, some file =>
      -- the file is read to its end as it is now; `len` is what the stat had answered
      let r := pollRead len (file.bytes.drop s.state.pos) s.state {}
      some { s with
        state := { s.state with pos := len, leftover := [] }
        phase := .sending r.2.2.sent r.2.1 }
    | _, _ => none
  | .send =>
    match s.phase with
    | .sending (entry :: pending) final =>
      some { s with sent := s.sent ++ [entry], phase := .sending pending final }
    | _ => none
  | .finish =>
    match s.phase with
    | .sending [] final => some { s with state := final, phase := .idle }
    | _ => none

/-- No record is appended between the stat and the read of a poll. -/
def NoAppendBeforeRead (s : FollowSys) (a : FollowAct) : Prop :=
  match s.phase, a with
  | .statted _, .append recs _ => recs = []
  | _, _ => True

instance (s : FollowSys) : DecidablePred (NoAppendBeforeRead s) := fun a =>
  match s, a with
  | ⟨_, _, .statted _, _, _⟩, .append recs _ => inferInstanceAs (Decidable (recs = []))
  | ⟨_, _, .statted _, _, _⟩, .open | ⟨_, _, .statted _, _, _⟩, .stat
  | ⟨_, _, .statted _, _, _⟩, .read | ⟨_, _, .statted _, _, _⟩, .send
  | ⟨_, _, .statted _, _, _⟩, .finish | ⟨_, _, .idle, _, _⟩, _ | ⟨_, _, .opened, _, _⟩, _
  | ⟨_, _, .sending _ _, _, _⟩, _ => .isTrue trivial

/-! ## The invariant -/

/-- The follower has the current `events.log` open, or none yet. -/
def OnLog (dir : EventsDir) (state : EventsTailState) : Prop :=
  state.inode = none ∨ ∃ file, dir 0 = some file ∧ state.inode = some file.inode

/-- The follower stands behind the records `got`. -/
structure Behind (dir : EventsDir) (got : List Record) (state : EventsTailState) : Prop where
  pos : state.pos = (encodeAll got).length
  leftover : state.leftover = []
  onLog : OnLog dir state

/-- The records `got` have been read; those not sent yet are pending. -/
def FollowSys.PhaseInv (s : FollowSys) (got : List Record) : Prop :=
  match s.phase with
  | .idle | .opened => Behind s.dir got s.state ∧ s.sent = got.map Record.entry
  | .statted len =>
    Behind s.dir got s.state ∧ s.sent = got.map Record.entry ∧ len = s.dir.logBytes.length
  | .sending pending final => Behind s.dir got final ∧ s.sent ++ pending = got.map Record.entry

structure FollowSys.Inv (s : FollowSys) : Prop where
  log : s.dir.logBytes = encodeAll s.appended
  phase : ∃ got, got <+: s.appended ∧ s.PhaseInv got

theorem OnLog.append {dir : EventsDir} {state : EventsTailState} (h : OnLog dir state) (ino : Nat)
    (batch : Bytes) : OnLog (appendBytes (openAppend ino dir) batch) state := by
  rcases h with h | ⟨file, hf, hi⟩
  · exact .inl h
  · refine .inr ⟨{ file with bytes := file.bytes ++ batch }, ?_, hi⟩
    simp [openAppend, appendBytes, hf]

theorem Behind.append {dir : EventsDir} {got : List Record} {state : EventsTailState}
    (h : Behind dir got state) (ino : Nat) (batch : Bytes) :
    Behind (appendBytes (openAppend ino dir) batch) got state :=
  ⟨h.pos, h.leftover, h.onLog.append ino batch⟩

theorem inv_append {s : FollowSys} (h : s.Inv) {recs : List Record} {ino : Nat}
    (hok : NoAppendBeforeRead s (.append recs ino)) {s' : FollowSys}
    (hs : s.step (.append recs ino) = some s') : s'.Inv := by
  obtain ⟨hlog, got, hgot, hph⟩ := h
  cases hs
  refine ⟨by simp [logBytes_append, hlog], got, hgot.trans (List.prefix_append _ _), ?_⟩
  unfold FollowSys.PhaseInv at hph ⊢
  cases hp : s.phase with
  | idle => rw [hp] at hph; exact ⟨hph.1.append _ _, hph.2⟩
  | opened => rw [hp] at hph; exact ⟨hph.1.append _ _, hph.2⟩
  | statted len =>
    rw [hp] at hph
    simp only [NoAppendBeforeRead, hp] at hok
    subst hok
    refine ⟨hph.1.append _ _, hph.2.1, ?_⟩
    show len = _
    rw [logBytes_append]
    simpa using hph.2.2
  | sending pending final => rw [hp] at hph; exact ⟨hph.1.append _ _, hph.2⟩

theorem encodeAll_mono {got rs : List Record} (h : got <+: rs) :
    encodeAll got <+: encodeAll rs := by
  obtain ⟨more, rfl⟩ := h
  exact ⟨encodeAll more, (encodeAll_append _ _).symm⟩

theorem Behind.pos_le {s : FollowSys} (hlog : s.dir.logBytes = encodeAll s.appended)
    {got : List Record} (hgot : got <+: s.appended) {state : EventsTailState}
    (h : Behind s.dir got state) {file : EventsFile} (hf : s.dir 0 = some file) :
    state.pos ≤ file.bytes.length := by
  rw [h.pos, ← logBytes_some hf, hlog]
  exact (encodeAll_mono hgot).length_le

theorem OnLog.current {dir : EventsDir} {state : EventsTailState} (h : OnLog dir state)
    {file : EventsFile} (hf : dir 0 = some file) :
    state.inode = none ∨ state.inode = some file.inode := by
  rcases h with h | ⟨file', hf', hi⟩
  · exact .inl h
  · rw [hf] at hf'
    cases hf'
    exact .inr hi

theorem inv_open {s s' : FollowSys} (h : s.Inv) (hs : s.step .open = some s') : s'.Inv := by
  obtain ⟨hlog, got, hgot, hph⟩ := h
  simp only [FollowSys.step] at hs
  split at hs
  · rename_i hp hd
    cases hs
    simp only [FollowSys.PhaseInv, hp] at hph
    refine ⟨hlog, got, hgot, ?_⟩
    simp only [FollowSys.PhaseInv, hp]
    refine ⟨?_, hph.2⟩
    split
    · have hnil : encodeAll got = [] := by
        have := encodeAll_mono hgot
        rw [← hlog, EventsDir.logBytes, hd] at this
        exact List.prefix_nil.mp this
      exact ⟨by simp [hnil], rfl, hph.1.onLog⟩
    · exact hph.1
  · rename_i hp _
    cases hs
    simp only [FollowSys.PhaseInv, hp] at hph
    exact ⟨hlog, got, hgot, hph⟩
  · cases hs

theorem inv_stat {s s' : FollowSys} (h : s.Inv) (hs : s.step .stat = some s') : s'.Inv := by
  obtain ⟨hlog, got, hgot, hph⟩ := h
  simp only [FollowSys.step] at hs
  split at hs
  · rename_i file hp hf
    simp only [FollowSys.PhaseInv, hp] at hph
    obtain ⟨hb, hsent⟩ := hph
    rw [pollStat_same _ (hb.onLog.current hf) (hb.pos_le hlog hgot hf)] at hs
    simp only [Option.some.injEq] at hs
    subst hs
    have hb' : Behind s.dir got { s.state with inode := some file.inode } :=
      ⟨hb.pos, hb.leftover, .inr ⟨file, hf, rfl⟩⟩
    refine ⟨hlog, got, hgot, ?_⟩
    by_cases he : file.bytes.length = s.state.pos
    · simp only [he, if_true, FollowSys.PhaseInv]
      exact ⟨hb', hsent⟩
    · simp only [he, if_false, FollowSys.PhaseInv]
      exact ⟨hb', hsent, by rw [logBytes_some hf]⟩
  · cases hs

/-- The bytes behind the records `got` are those of the records after them. -/
theorem drop_encodeAll (got more : List Record) :
    (encodeAll (got ++ more)).drop (encodeAll got).length = encodeAll more := by
  rw [encodeAll_append, List.drop_left]

theorem inv_read {s s' : FollowSys} (h : s.Inv) (hs : s.step .read = some s') : s'.Inv := by
  obtain ⟨hlog, got, ⟨more, hmore⟩, hph⟩ := h
  simp only [FollowSys.step] at hs
  split at hs
  · rename_i len file hp hf
    simp only [FollowSys.PhaseInv, hp] at hph
    obtain ⟨hb, hsent, hlen⟩ := hph
    have hbytes : file.bytes = encodeAll (got ++ more) := by rw [← logBytes_some hf, hlog, hmore]
    rw [pollRead_scan _ _ _ rfl, hb.leftover, List.nil_append, hb.pos, hbytes, drop_encodeAll,
      scan_encodeAll] at hs
    cases hs
    refine ⟨hlog, s.appended, List.prefix_refl _, ?_⟩
    refine ⟨⟨?_, by rfl, hb.onLog⟩, ?_⟩
    · show len = _
      rw [hlen, hlog]
    · show s.sent ++ ([] ++ more.map Record.entry) = _
      rw [hsent, ← hmore, List.map_append, List.nil_append]
  · cases hs

theorem inv_send {s s' : FollowSys} (h : s.Inv) (hs : s.step .send = some s') : s'.Inv := by
  obtain ⟨hlog, got, hgot, hph⟩ := h
  simp only [FollowSys.step] at hs
  split at hs
  · rename_i entry pending final hp
    cases hs
    simp only [FollowSys.PhaseInv, hp] at hph
    refine ⟨hlog, got, hgot, hph.1, ?_⟩
    rw [← hph.2, List.append_assoc]
    rfl
  · cases hs

theorem inv_finish {s s' : FollowSys} (h : s.Inv) (hs : s.step .finish = some s') : s'.Inv := by
  obtain ⟨hlog, got, hgot, hph⟩ := h
  simp only [FollowSys.step] at hs
  split at hs
  · rename_i final hp
    cases hs
    simp only [FollowSys.PhaseInv, hp] at hph
    exact ⟨hlog, got, hgot, hph.1, by rw [← hph.2, List.append_nil]⟩
  · cases hs

theorem inv_step {s s' : FollowSys} {a : FollowAct} (h : s.Inv) (hok : NoAppendBeforeRead s a)
    (hs : s.step a = some s') : s'.Inv := by
  cases a with
  | append recs ino => exact inv_append h hok hs
  | «open» => exact inv_open h hs
  | stat => exact inv_stat h hs
  | read => exact inv_read h hs
  | send => exact inv_send h hs
  | finish => exact inv_finish h hs

theorem inv_init : FollowSys.Inv {} where
  log := rfl
  phase := ⟨[], List.nil_prefix, ⟨rfl, rfl, .inl rfl⟩, rfl⟩

theorem encode_ne_nil (r : Record) : r.encode ≠ [] := by
  simp [Record.encode, encodeRecordInto]

theorem eq_of_encodeAll_length {got rs : List Record} (h : got <+: rs)
    (hl : (encodeAll got).length = (encodeAll rs).length) : got = rs := by
  obtain ⟨more, rfl⟩ := h
  cases more with
  | nil => simp
  | cons r more =>
    have hpos : 0 < (recordFrames.enc r).length := List.length_pos_iff.mpr (encode_ne_nil r)
    simp only [encodeAll, recordFrames.encAll_append, recordFrames.encAll_cons,
      List.length_append] at hl
    omega

/-- **Every record once, in order, with its bytes**: in a run in which nothing is appended between
the stat and the read of a poll, the entries sent are at every moment a prefix of the records
appended, and all of them once the follower has read the file to its end. -/
theorem follow_in_order (acts : List FollowAct) (s : FollowSys)
    (hr : run FollowSys.step {} acts = some s)
    (hok : Along FollowSys.step NoAppendBeforeRead {} acts) :
    s.sent <+: s.appended.map Record.entry ∧
      (s.phase = .idle → s.state.pos = s.dir.logBytes.length →
        s.sent = s.appended.map Record.entry) := by
  have hinv : s.Inv := run_inv (fun _ _ _ h ho hs => inv_step h ho hs) inv_init hok hr
  obtain ⟨hlog, got, hgot, hph⟩ := hinv
  have hpre : got.map Record.entry <+: s.appended.map Record.entry := hgot.map _
  unfold FollowSys.PhaseInv at hph
  constructor
  · cases hp : s.phase with
    | idle => rw [hp] at hph; rw [hph.2]; exact hpre
    | opened => rw [hp] at hph; rw [hph.2]; exact hpre
    | statted len => rw [hp] at hph; rw [hph.2.1]; exact hpre
    | sending pending final =>
      rw [hp] at hph
      exact (List.prefix_append _ _).trans (hph.2 ▸ hpre)
  · intro hp hpos
    rw [hp] at hph
    have hl : (encodeAll got).length = (encodeAll s.appended).length := by
      rw [← hph.1.pos, hpos, hlog]
    rw [hph.2, eq_of_encodeAll_length hgot hl]

/-- A poll that finds one record, and a poll that finds another. -/
def quietActs : List FollowAct :=
  [.append [helloRecord] 7, .open, .stat, .read, .append [helloRecord] 7, .send, .finish,
    .open, .stat, .read, .send, .finish]

theorem follow_quiet : ∃ s, run FollowSys.step {} quietActs = some s ∧
    Along FollowSys.step NoAppendBeforeRead {} quietActs ∧
    s.sent <+: s.appended.map Record.entry :=
  have hs : (run FollowSys.step {} quietActs).isSome := by decide +kernel
  have hok : Along FollowSys.step NoAppendBeforeRead {} quietActs := by decide +kernel
  ⟨_, (Option.some_get hs).symm, hok,
    (follow_in_order quietActs _ (Option.some_get hs).symm hok).1⟩

/-- Another short record. -/
def byeRecord : Record := ⟨2000000, .stderr, [98, 121, 101, 10], by decide⟩

/-- An append between the stat and the read, then another poll. -/
def racingActs : List FollowAct :=
  [.append [helloRecord] 7, .open, .stat, .append [byeRecord] 7, .read, .send, .send, .finish,
    .open, .stat, .read, .send, .finish]

/-- **The follower sends a record twice**: one appended between its stat and its read is read by
both polls, because the position moves only to the length of the stat. -/
theorem follow_duplicates :
    (run FollowSys.step {} racingActs).map (fun s => (s.sent, s.appended.map Record.entry)) =
        some ([helloRecord.entry, byeRecord.entry, byeRecord.entry],
          [helloRecord.entry, byeRecord.entry]) ∧
      ¬ [helloRecord.entry, byeRecord.entry, byeRecord.entry] <+:
        [helloRecord.entry, byeRecord.entry] := by
  decide +kernel

end ContainerdManager.Logs
