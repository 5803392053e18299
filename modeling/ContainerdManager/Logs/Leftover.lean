import ContainerdManager.Lib.Runs
import ContainerdManager.Logs.Follower

/-!
# The follower's buffer

How large `state.leftover` of `src/logs.rs` gets. A `PollView` is what one
call of `poll_events_once` sees of the directory, with nothing assumed of
its relation to what other calls see. The stuck-leftover guard discards a
remainder without a line end; one on which the decoder is undecided although
it holds a line end is kept at any length. `leftover_bounded_iff` says that
these are the only ones above the bound.
-/

namespace ContainerdManager.Logs

open Lib

/-! ## Headers -/

theorem decimal_length_le {n k : Nat} (hk : 0 < k) (h : n < Nat.pow 10 k) :
    (decimal n).length ≤ k := by
  rw [decimal, List.length_map]
  exact (Nat.length_toDigits_le_iff (by omega) hk).mpr h

theorem decimal_length_gt {n k : Nat} (hk : 0 < k) (h : Nat.pow 10 k ≤ n) :
    k < (decimal n).length := by
  rw [decimal, List.length_map]
  exact Nat.lt_of_not_le fun hle =>
    Nat.not_lt_of_le h ((Nat.length_toDigits_le_iff (by omega) hk).mp hle)

/-- A slice has at most `isize::MAX` bytes. -/
def isizeMax : Nat := 0x7fffffffffffffff

/-- Bytes of a record before its payload. -/
def headerLength (timestamp : SystemTime) (data : Bytes) : Nat :=
  (decimal (unixMillis timestamp)).length + 3 + (decimal data.length).length + 1

/-- The longest header: twenty digits of `u64::MAX` milliseconds and nineteen of `isize::MAX`
bytes. -/
def longestHeader : Nat := 43

theorem headerLength_le (timestamp : SystemTime) {data : Bytes} (h : data.length ≤ isizeMax) :
    headerLength timestamp data ≤ longestHeader := by
  have h1 : (decimal (unixMillis timestamp)).length ≤ 20 :=
    decimal_length_le (by omega) (Nat.lt_trans (unixMillis_lt timestamp) (by decide))
  have h2 : (decimal data.length).length ≤ 19 :=
    decimal_length_le (by omega) (Nat.lt_of_le_of_lt h (by decide))
  simp only [headerLength, longestHeader]
  omega

theorem exists_of_length (n : Nat) : ∃ data : Bytes, data.length = n :=
  ⟨List.replicate n nl, List.length_replicate⟩

theorem headerLength_attained :
    ∃ timestamp data, data.length ≤ isizeMax ∧ headerLength timestamp data = longestHeader := by
  obtain ⟨data, hd⟩ := exists_of_length isizeMax
  have ht : unixMillis (u64Bound * 1000000) = u64Bound - 1 := by decide +kernel
  have h1 : 19 < (decimal (u64Bound - 1)).length := decimal_length_gt (by omega) (by decide)
  have h2 : 18 < (decimal isizeMax).length := decimal_length_gt (by omega) (by decide)
  refine ⟨u64Bound * 1000000, data, Nat.le_of_eq hd, ?_⟩
  have hle := headerLength_le (u64Bound * 1000000) (Nat.le_of_eq hd)
  rw [headerLength, ht, hd, longestHeader] at hle ⊢
  omega

/-- The largest record: header, payload and terminator. -/
def leftoverBound : Nat := longestHeader + maxRecordBytes + 1

/-! ## What one poll sees -/

/-- What one poll sees: which of its operations fail, the file it opens and stats, the
`events.log.1` it may drain, and the content of the open file when it reads, which may have changed
since the stat. -/
structure PollView where
  io : PollFaults
  file : Option EventsFile
  rotated : Option EventsFile
  content : Bytes

/-- A poll up to its read: its result when it does not get that far, else the length it saw, its
state and its sender. -/
def PollView.open (v : PollView) (state : EventsTailState) (tx : Sender) :
    Except (PollOutcome × EventsTailState × Sender) (Nat × EventsTailState × Sender) :=
  if v.io .openEvents then .error (.fatal (.io "follow: open events"), state, tx)
  else
    match v.file with
    | none =>
      if state.inode.isNone then .error (.continue, { state with pos := 0, leftover := [] }, tx)
      else .error (.continue, state, tx)
    | some file =>
      if v.io .statEvents then .error (.fatal (.io "follow: stat events"), state, tx)
      else
        match pollStat v.io v.rotated file.bytes.length file.inode state tx with
        | (.continue, state, tx) =>
          if file.bytes.length = state.pos then .error (.continue, state, tx)
          else if v.io .seekEvents then .error (.fatal (.io "follow: seek events"), state, tx)
          else if v.io .readEvents then
            .error (.fatal (.io "follow: read events"), { state with leftover := [] }, tx)
          else .ok (file.bytes.length, state, tx)
        | stopped => .error stopped

/-- `poll_events_once` on what it sees. -/
def PollView.poll (v : PollView) (state : EventsTailState) (tx : Sender) :
    PollOutcome × EventsTailState × Sender :=
  match v.open state tx with
  | .error stopped => stopped
  | .ok (len, state, tx) => pollRead len (v.content.drop state.pos) state tx

/-- A poll while the directory does not change sees one content. -/
theorem poll_quiet (io : PollFaults) (dir : EventsDir) (state : EventsTailState) (tx : Sender) :
    PollView.poll ⟨io, dir 0, dir 1, dir.logBytes⟩ state tx = pollEventsOnce io dir state tx := by
  by_cases ho : io .openEvents
  · simp only [PollView.poll, PollView.open, pollEventsOnce, if_pos ho]
  cases hf : dir 0 with
  | none =>
    by_cases hi : state.inode.isNone <;>
      simp only [PollView.poll, PollView.open, pollEventsOnce, if_neg ho, hf, hi,
        Bool.false_eq_true, if_true, if_false]
  | some file =>
    simp only [PollView.poll, PollView.open, pollEventsOnce, if_neg ho, hf, logBytes_some hf]
    by_cases hs : io .statEvents
    · simp only [if_pos hs]
    simp only [if_neg hs]
    obtain ⟨outcome, state', tx'⟩ := pollStat io (dir 1) file.bytes.length file.inode state tx
    cases outcome with
    | receiverDropped => rfl
    | fatal e => rfl
    | «continue» =>
      simp only
      by_cases hl : file.bytes.length = state'.pos
      · simp only [if_pos hl]
      by_cases hk : io .seekEvents
      · simp only [if_neg hl, if_pos hk]
      by_cases hr : io .readEvents <;> simp only [if_neg hl, if_neg hk, hr, if_true, if_false,
        Bool.false_eq_true]

/-! ## One poll -/

/-- The decode loop hands what it decodes to the receiver, and stops where the decoder waits
unless the receiver is gone before. -/
theorem pollLoop_sendAll (bytes : Bytes) {fuel : Nat} (cursor : Nat) (tx : Sender)
    (hf : bytes.length ≤ fuel + cursor) :
    (pollLoop bytes fuel cursor tx).1 = (sendAll tx (eventDecoder.scan (bytes.drop cursor)).1).1 ∧
      ((pollLoop bytes fuel cursor tx).1 = .continue →
        bytes.drop (pollLoop bytes fuel cursor tx).2.1 =
          (eventDecoder.scan (bytes.drop cursor)).2) := by
  induction fuel generalizing cursor tx with
  | zero =>
    have hd : bytes.drop cursor = [] := List.drop_eq_nil_of_le (by omega)
    rw [hd, scan_nil]
    exact ⟨rfl, fun _ => hd⟩
  | succ fuel ih =>
    simp only [pollLoop]
    by_cases hlt : cursor < bytes.length
    · rw [if_pos hlt]
      cases hdec : decodeEventWithLen (bytes.drop cursor) with
      | record e n =>
        have hw := decode_record_width hdec
        rw [Decoder.scan_item (front_record hdec), List.drop_drop]
        cases hs : tx.send e with
        | none => simp only [sendAll, hs]; exact ⟨trivial, fun h => by cases h⟩
        | some tx' =>
          simp only [sendAll, hs]
          exact ih (cursor + n) tx' (by omega)
      | needMore =>
        rw [Decoder.scan_wait (front_needMore hdec)]
        exact ⟨rfl, fun _ => rfl⟩
      | malformed =>
        cases hr : resyncOffset (bytes.drop cursor) with
        | none =>
          rw [Decoder.scan_wait (front_stuck hdec hr)]
          exact ⟨rfl, fun _ => rfl⟩
        | some n =>
          have hw := resyncOffset_width hr
          rw [Decoder.scan_skip (front_resync hdec hr), List.drop_drop]
          exact ih (cursor + n) tx (by omega)
    · rw [if_neg hlt, List.drop_eq_nil_of_le (Nat.le_of_not_lt hlt), scan_nil]
      exact ⟨rfl, fun _ => rfl⟩

/-- What a poll keeps of the bytes it decodes. -/
theorem pollRead_leftover (len : Nat) (fresh : Bytes) (state : EventsTailState) (tx : Sender) :
    (pollRead len fresh state tx).2.1.leftover =
      if (sendAll tx (eventDecoder.scan (state.leftover ++ fresh)).1).1 = .continue then
        keepRemainder (eventDecoder.scan (state.leftover ++ fresh)).2
      else [] := by
  obtain ⟨h1, h2⟩ := pollLoop_sendAll (state.leftover ++ fresh) 0 tx (Nat.le_refl _)
  rw [List.drop_zero] at h1 h2
  unfold pollRead
  simp only
  cases hl : pollLoop (state.leftover ++ fresh) (state.leftover ++ fresh).length 0 tx with
  | mk outcome rest =>
    obtain ⟨cursor, tx'⟩ := rest
    simp only [hl] at h1 h2
    rw [← h1]
    cases outcome with
    | «continue» => rw [if_pos rfl, ← h2 rfl]
    | receiverDropped => rfl
    | fatal e => rfl

/-- Bytes the decoder is undecided on although they hold a line end and are longer than the
largest record. -/
structure Overlong (tail : Bytes) : Prop where
  undecided : decodeEventWithLen tail = .needMore
  newline : nl ∈ tail
  long : leftoverBound < tail.length

/-- No header is complete where the longest one of the encoder would be. -/
theorem Overlong.header {tail : Bytes} (h : Overlong tail) (hd : Header) :
    ¬ HeaderAt (tail.take longestHeader) hd := by
  intro hh
  have hdec := hh.decode (tail.drop longestHeader)
  have hlong := h.long
  rw [List.take_append_drop, h.undecided] at hdec
  have hfits := hh.fits
  have hlen := hh.len_le
  rw [List.length_take] at hfits
  rw [leftoverBound] at hlong
  rw [if_neg (by omega)] at hdec
  split at hdec <;> cases hdec

/-- No receiver that is still there is left with overlong bytes: wherever decoding gets to behind
entries the receiver takes, it does not get stuck on such bytes. -/
def NoOverlong (tx : Sender) (bytes : Bytes) : Prop :=
  ∀ entries tail, eventDecoder.Reaches bytes entries tail →
    (sendAll tx entries).1 = .continue → ¬ Overlong tail

theorem front_wait_iff {tail : Bytes} (hn : nl ∈ tail) :
    eventDecoder.front tail = .wait ↔ decodeEventWithLen tail = .needMore := by
  refine ⟨fun h => ?_, front_needMore⟩
  cases hd : decodeEventWithLen tail with
  | needMore => rfl
  | record e n => rw [front_record hd] at h; cases h
  | malformed =>
    obtain ⟨i, hi⟩ := Option.isSome_iff_exists.mp
      (List.findIdx?_isSome (p := (· == nl)) ▸ List.any_eq_true.mpr ⟨nl, hn, by simp⟩)
    rw [front_resync hd (n := i + 1) (by simp [resyncOffset, hi])] at h
    cases h

theorem keepRemainder_le_iff {rest : Bytes} (hw : eventDecoder.front rest = .wait) :
    (keepRemainder rest).length ≤ leftoverBound ↔ ¬ Overlong rest := by
  have hb : maxRecordBytes ≤ leftoverBound := by decide
  by_cases hn : nl ∈ rest
  · rw [keepRemainder, if_neg fun h => h.2 hn]
    exact ⟨fun h ho => Nat.not_lt_of_le h ho.long,
      fun h => Nat.le_of_not_lt fun hl => h ⟨(front_wait_iff hn).mp hw, hn, hl⟩⟩
  · refine ⟨fun _ ho => hn ho.newline, fun _ => ?_⟩
    unfold keepRemainder
    split
    · exact Nat.zero_le _
    · rename_i hc
      have : ¬ rest.length > maxRecordBytes := fun h => hc ⟨h, hn⟩
      omega

theorem pollRead_bounded_iff (len : Nat) (fresh : Bytes) (state : EventsTailState) (tx : Sender) :
    (pollRead len fresh state tx).2.1.leftover.length ≤ leftoverBound ↔
      NoOverlong tx (state.leftover ++ fresh) := by
  rw [pollRead_leftover]
  generalize hs : eventDecoder.scan (state.leftover ++ fresh) = r
  have hw : eventDecoder.front r.2 = .wait := hs ▸ Decoder.front_scan_snd _
  have hreach : ∀ entries tail, Overlong tail →
      (eventDecoder.Reaches (state.leftover ++ fresh) entries tail ↔ r = (entries, tail)) :=
    fun entries tail ho => by
      rw [← hs]; exact Decoder.reaches_wait_iff (front_needMore ho.undecided)
  by_cases hc : (sendAll tx r.1).1 = .continue
  · rw [if_pos hc, keepRemainder_le_iff hw]
    constructor
    · intro h entries tail hr _ ho
      have := (hreach entries tail ho).mp hr
      subst this
      exact h ho
    · intro h ho
      exact h r.1 r.2 ((hreach _ _ ho).mpr rfl) hc ho
  · rw [if_neg hc]
    refine ⟨fun _ entries tail hr hcont ho => ?_, fun _ => Nat.zero_le _⟩
    have := (hreach entries tail ho).mp hr
    subst this
    exact hc hcont

/-! ## Sequences of polls -/

/-- A follower and the sending half of its channel. -/
structure Polling where
  state : EventsTailState := {}
  tx : Sender := {}

def Polling.poll (p : Polling) (v : PollView) : Polling where
  state := (v.poll p.state p.tx).2.1
  tx := (v.poll p.state p.tx).2.2

/-- The bytes a poll decodes, if it gets to that, do not leave it with overlong bytes. -/
def PollView.Clear (v : PollView) (p : Polling) : Prop :=
  ∀ len state tx, v.open p.state p.tx = .ok (len, state, tx) →
    NoOverlong tx (state.leftover ++ v.content.drop state.pos)

theorem pollStat_leftover (io : PollFaults) (rotatedFile : Option EventsFile) (len inode : Nat)
    (state : EventsTailState) (tx : Sender) :
    (pollStat io rotatedFile len inode state tx).2.1.leftover = [] ∨
      (pollStat io rotatedFile len inode state tx).2.1.leftover = state.leftover := by
  unfold pollStat
  simp only
  split
  · split
    · exact .inl rfl
    · split
      · exact .inl rfl
      · exact .inr rfl
  · split
    · exact .inl rfl
    · exact .inr rfl

/-- A poll that does not get to its read keeps its leftover or drops it. -/
theorem open_leftover {v : PollView} {state : EventsTailState} {tx : Sender}
    {stopped : PollOutcome × EventsTailState × Sender} (h : v.open state tx = .error stopped) :
    stopped.2.1.leftover = [] ∨ stopped.2.1.leftover = state.leftover := by
  unfold PollView.open at h
  split at h
  · cases h; exact .inr rfl
  · split at h
    · split at h
      · cases h; exact .inl rfl
      · cases h; exact .inr rfl
    · rename_i file _
      split at h
      · cases h; exact .inr rfl
      · have hst := pollStat_leftover v.io v.rotated file.bytes.length file.inode state tx
        split at h
        · rename_i hp
          rw [hp] at hst
          split at h
          · cases h; exact hst
          · split at h
            · cases h; exact hst
            · split at h
              · cases h; exact .inl rfl
              · cases h
        · cases h; exact hst

theorem poll_bounded_iff (v : PollView) {p : Polling}
    (h : p.state.leftover.length ≤ leftoverBound) :
    (p.poll v).state.leftover.length ≤ leftoverBound ↔ v.Clear p := by
  unfold Polling.poll PollView.poll PollView.Clear
  cases ho : v.open p.state p.tx with
  | error stopped =>
    refine ⟨fun _ len state tx he => by (cases he), fun _ => ?_⟩
    rcases open_leftover ho with hl | hl
    · rw [hl]; exact Nat.zero_le _
    · rw [hl]; exact h
  | ok r =>
    obtain ⟨len, state, tx⟩ := r
    refine (pollRead_bounded_iff len (v.content.drop state.pos) state tx).trans ⟨?_, ?_⟩
    · intro hn len' state' tx' he
      cases he
      exact hn
    · intro hc
      exact hc len state tx rfl

/-- **The leftover stays within the largest record exactly as long as no poll gets stuck on
overlong bytes**, over every sequence of polls, whatever each of them sees. -/
theorem leftover_bounded_iff (tx : Sender) (polls : List PollView) :
    (∀ done, done <+: polls →
      (done.foldl Polling.poll { tx := tx }).state.leftover.length ≤ leftoverBound) ↔
      ∀ done v, done ++ [v] <+: polls → v.Clear (done.foldl Polling.poll { tx := tx }) :=
  foldl_prefix_iff Polling.poll (fun p => p.state.leftover.length ≤ leftoverBound)
    (fun p v => v.Clear p) (Nat.zero_le leftoverBound) fun _ v _ h => poll_bounded_iff v h

/-- A file of `n` line ends and nothing else. -/
def newlines (n : Nat) : PollView where
  io := noPollFaults
  file := some ⟨7, List.replicate n nl⟩
  rotated := none
  content := List.replicate n nl

theorem newlines_undecided (n : Nat) : decodeEventWithLen (List.replicate n nl) = .needMore := by
  have h : (List.replicate n nl).findIdx? (· == sp) = none :=
    List.findIdx?_eq_none_iff.mpr fun b hb => by rw [List.eq_of_mem_replicate hb]; decide
  simp only [decodeEventWithLen, h]

theorem newlines_open {n : Nat} (h : n ≠ 0) :
    (newlines n).open {} {} = .ok (n, { inode := some 7 }, {}) := by
  simp [PollView.open, newlines, noPollFaults, pollStat, h]

theorem newlines_not_clear {n : Nat} (h : leftoverBound < n) : ¬ (newlines n).Clear {} := by
  intro hc
  have hn : n ≠ 0 := Nat.ne_of_gt (Nat.lt_of_le_of_lt (Nat.zero_le _) h)
  refine hc n _ _ (newlines_open hn) [] (List.replicate n nl) .start rfl ?_
  exact ⟨newlines_undecided n, List.mem_replicate.mpr ⟨hn, rfl⟩, by rwa [List.length_replicate]⟩

theorem newlines_not_bounded {n : Nat} (h : leftoverBound < n) :
    ¬ ([newlines n].foldl Polling.poll {}).state.leftover.length ≤ leftoverBound := by
  rw [List.foldl_cons, List.foldl_nil, poll_bounded_iff (newlines n) (Nat.zero_le _)]
  exact newlines_not_clear h

/-- A poll of one line end more than the bound keeps all of them. -/
theorem leftover_newlines :
    ¬ ∀ polls done : List PollView, done <+: polls →
      (done.foldl Polling.poll {}).state.leftover.length ≤ leftoverBound := by
  intro h
  exact newlines_not_bounded (Nat.lt_add_one leftoverBound)
    (h [newlines (leftoverBound + 1)] [newlines (leftoverBound + 1)] (List.prefix_refl _))

end ContainerdManager.Logs
