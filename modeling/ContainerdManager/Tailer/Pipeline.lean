import ContainerdManager.Logs.RotatedFollow
import ContainerdManager.Tailer.FileSize
import ContainerdManager.Tailer.Runs
import Mathlib.Data.List.Infix

/-!
# From the task to the follower

The whole way of the logs: the task appends to its raw files, the passes of
the tailer carry them to the events files, which are rotated, and a follower
polls these. A pass appends its batch at once, so that the state of the
pipeline is one of `RotSys` without a pending batch and a follower never
holds a partial record. All a rotation has to find is a follower that has
opened the file (`Followed`).
-/

namespace ContainerdManager.Tailer

open Lib Logs

/-! ## The pipeline -/

structure PipeSys where
  tail : TailSys := {}
  state : EventsTailState := {}
  tx : Sender := {}

inductive PipeAct where
  /-- A write of the task or a step of the tailer. -/
  | tail (a : TailAct)
  | poll

def PipeSys.step (s : PipeSys) : PipeAct → Option PipeSys
  | .tail a => some { s with tail := s.tail.step a }
  | .poll =>
    match pollEventsOnce noPollFaults s.tail.dir s.state s.tx with
    | (_, state, tx) => some { s with state := state, tx := tx }

/-- The step meets no I/O error. -/
def PipeAct.Quiet : PipeAct → Prop
  | .tail a => a.Quiet
  | .poll => True

/-- A batch fits in an events file, and a rotation finds the follower on the file it rotates and
creates the new one under an inode that no other file has. -/
def Followed (s : PipeSys) : PipeAct → Prop
  | .tail (.tick env _) =>
    let batch := s.tail.tailer.batch env s.tail.raw
    batch.length ≤ eventsRotateBytes ∧
      (batch ≠ [] → rotationNeeded s.tail.dir batch.length →
        Unused env.ino s.tail.dir ∧ ∀ file ∈ s.tail.dir 0, s.state.inode = some file.inode)
  | .tail (.write _ _) => True
  | .poll => True

instance (s : PipeSys) : DecidablePred (Followed s)
  | .tail (.tick _ _) => inferInstanceAs (Decidable (_ ∧ (_ → _ → _)))
  | .tail (.write _ _) => .isTrue trivial
  | .poll => .isTrue trivial

/-- The data sent of a stream. -/
def PipeSys.sentOn (s : PipeSys) (stream : LogStream) : Bytes :=
  ((s.tx.sent.filter fun e => e.stream = stream).map LogEntry.data).flatten

/-! ## The invariant -/

/-- The pipeline as a follower sees it. -/
def PipeSys.rot (s : PipeSys) (begun : List Record) (rotated : Bool) : RotSys where
  dir := s.tail.dir
  begun := begun
  rotated := rotated
  state := s.state
  tx := s.tx

structure PipeSys.Inv (s : PipeSys) : Prop where
  tail : ∃ hist, s.tail.Inv hist
  bounded : Bounded s.tail.dir
  whole : s.state.leftover = []
  follow : ∃ begun rotated base, (s.rot begun rotated).Inv base ∧
    begun.map Record.entry = s.tail.written

theorem PipeSys.Inv.init : PipeSys.Inv {} where
  tail := ⟨[], .init⟩
  bounded := bounded_of_rotate fun n file hf => by cases hf
  whole := rfl
  follow := ⟨[], false, [], .init, rfl⟩

/-- Every file is within what a follower drains. -/
theorem Bounded.small {dir : EventsDir} (h : Bounded dir) :
    dir.logBytes.length < rotatedDrainMaxBytes := by
  have hlt : eventsRotateBytes < rotatedDrainMaxBytes := by decide
  cases hd : dir 0 with
  | none =>
    rw [EventsDir.logBytes, hd]
    decide
  | some file =>
    rw [logBytes_some hd]
    exact Nat.lt_of_le_of_lt (h 0 file hd).1 hlt

/-! ## Batches -/

/-- The batch becomes visible at once. -/
theorem writeAll {r : RotSys} {base : Bytes} (h : r.Inv base)
    (hsmall : (appendBytes r.dir r.pending).logBytes.length < rotatedDrainMaxBytes) :
    RotSys.Inv { r with dir := appendBytes r.dir r.pending, pending := [] } base := by
  refine h.write (n := r.pending.length) ?_
  simp only [RotSys.step, List.take_length, List.drop_length]
  refine if_pos ?_
  cases hd : r.dir 0 with
  | none =>
    rw [h.opened hd, List.length_nil, Nat.add_zero]
    exact h.small
  | some file => rwa [logBytes_appendBytes hd, List.length_append] at hsmall

/-- What `append_batch` does to a follower without a partial record. -/
theorem appendBatch_followed {r : RotSys} {base : Bytes} (h : r.Inv base) (hp : r.pending = [])
    (hwhole : r.state.leftover = []) (recs : List Record) (ino : Nat)
    (hrot : rotationNeeded r.dir (encodeAll recs).length →
      Unused ino r.dir ∧ ∀ file ∈ r.dir 0, r.state.inode = some file.inode)
    (hsmall : (appendBatch noFaults ino r.dir (encodeAll recs)).2.logBytes.length <
      rotatedDrainMaxBytes) :
    ∃ rotated base', RotSys.Inv
      { r with
        dir := (appendBatch noFaults ino r.dir (encodeAll recs)).2
        begun := r.begun ++ recs
        pending := []
        rotated := rotated } base' := by
  rw [appendBatch_noFaults] at hsmall ⊢
  unfold beforeAppend at hsmall ⊢
  by_cases hneed : rotationNeeded r.dir (encodeAll recs).length
  · obtain ⟨hino, hseen⟩ := hrot hneed
    rw [if_pos hneed] at hsmall ⊢
    -- the follower is on the file that is rotated, so nothing was rotated since its last poll
    have hcur : OnCurrent r base := by
      rcases h.reading with hc | ⟨-, _, file1, file0, -, h0, hi, hne, -⟩
      · exact hc
      · have hi' := hseen file0 h0
        rw [hi] at hi'
        exact absurd (Option.some.inj hi').symm hne
    have h₀ : RotSys.Inv { r with rotated := false } base :=
      ⟨h.written, h.whole, h.opened, h.small, h.live, .inl ⟨hcur.inode, hcur.pos_le, hcur.read⟩⟩
    have h₁ := h₀.beginRotated hp rfl recs hino hwhole fun file hf => .inr (hseen file hf)
    exact ⟨_, _, writeAll h₁ hsmall⟩
  · rw [if_neg hneed] at hsmall ⊢
    exact ⟨_, _, writeAll (h.beginHere hp recs ino r.rotated id) hsmall⟩

theorem PipeSys.Inv.write {s : PipeSys} (h : s.Inv) (stream : LogStream) (data : Bytes) :
    PipeSys.Inv { s with tail := s.tail.step (.write stream data) } := by
  obtain ⟨hist, htail⟩ := h.tail
  exact ⟨⟨hist, htail.write stream data⟩, h.bounded, h.whole, h.follow⟩

/-- A step of the tailer. -/
theorem PipeSys.Inv.tick {s : PipeSys} (h : s.Inv) {env : PassEnv} {stop : Bool}
    (hio : env.io = noFaults) (hok : Followed s (.tail (.tick env stop))) :
    PipeSys.Inv { s with tail := s.tail.step (.tick env stop) } := by
  obtain ⟨hist, htail⟩ := h.tail
  obtain ⟨recs, hbatch, hdir, -⟩ := tick_spec htail.streams env hio stop s.tail.dir
  obtain ⟨hfits, hrot⟩ := hok
  rw [hbatch] at hfits hrot
  obtain ⟨begun, rotated, base, hfollow, hwritten⟩ := h.follow
  have hdir' : (s.tail.step (.tick env stop)).dir = _ := hdir
  by_cases hne : recs.isEmpty
  · rw [if_pos hne] at hdir'
    have hnil : (encodeAll recs).isEmpty = true := by rw [encodeAll_isEmpty, hne]
    have hbatches : (s.tail.step (.tick env stop)).batches = s.tail.batches := by
      simp [TailSys.step, hbatch, hnil]
    refine ⟨htail.tick hio stop, hdir'.symm ▸ h.bounded, h.whole, begun, rotated, base, ?_, ?_⟩
    · rw [PipeSys.rot, hdir']
      exact hfollow
    · rw [hwritten, TailSys.written, TailSys.written, hbatches]
  · rw [if_neg hne] at hdir'
    have hnil : (encodeAll recs).isEmpty = false := by
      rw [encodeAll_isEmpty]
      exact Bool.not_eq_true _ ▸ hne
    have hbatches : (s.tail.step (.tick env stop)).batches =
        s.tail.batches ++ [encodeAll recs] := by
      simp [TailSys.step, hbatch, hnil]
    have hbounded := (bounded_append_iff h.bounded env.ino (encodeAll recs)).mpr hfits
    have hcons : encodeAll recs ≠ [] := fun he => by simp [he] at hnil
    obtain ⟨rotated', base', hfollow'⟩ := appendBatch_followed hfollow rfl h.whole recs env.ino
      (hrot hcons) hbounded.small
    refine ⟨htail.tick hio stop, hdir'.symm ▸ hbounded, h.whole, begun ++ recs, rotated', base',
      ?_, ?_⟩
    · rw [PipeSys.rot, hdir']
      exact hfollow'
    · rw [List.map_append, hwritten, TailSys.written, TailSys.written, hbatches,
        List.flatMap_append, List.flatMap_singleton, parseEventsFile_encodeAll]

/-! ## Polls -/

/-- Without a pending batch the files hold the whole records. -/
theorem visible_eq {r : RotSys} {base : Bytes} (h : r.Inv base) (hp : r.pending = []) :
    base ++ r.dir.logBytes = encodeAll r.begun := by
  rw [← h.written, hp, List.append_nil]

/-- **A poll** brings the follower to the end of the records, without a partial one. -/
theorem PipeSys.Inv.poll {s s' : PipeSys} (h : s.Inv) (hs : s.step .poll = some s') :
    s'.Inv ∧ s'.tail = s.tail ∧ s'.tx.sent = s.tail.written := by
  obtain ⟨begun, rotated, base, hfollow, hwritten⟩ := h.follow
  have hvisible : base ++ s.tail.dir.logBytes = encodeAll begun := visible_eq hfollow rfl
  obtain ⟨r, hr⟩ : ∃ r, (s.rot begun rotated).step .poll = some r := ⟨_, rfl⟩
  obtain ⟨hinv, hsent⟩ := hfollow.poll hr
  simp only [RotSys.step, PipeSys.rot] at hr
  simp only [PipeSys.step] at hs
  cases hr
  cases hs
  have hdone : (pollEventsOnce noPollFaults s.tail.dir s.state s.tx).2.2.sent =
      s.tail.written := by
    rw [← hwritten]
    have := hsent.trans (by rw [hvisible, scan_encodeAll])
    exact this
  refine ⟨⟨h.tail, h.bounded, ?_, begun, false, base, hinv, hwritten⟩, rfl, hdone⟩
  show (pollEventsOnce noPollFaults s.tail.dir s.state s.tx).2.1.leftover = []
  cases hd : s.tail.dir 0 with
  | none =>
    simp only [pollEventsOnce, noPollFaults, Bool.false_eq_true, if_false, hd]
    split
    · rfl
    · exact h.whole
  | some file =>
    rw [logBytes_some hd] at hvisible
    have hpoll : pollEventsOnce noPollFaults s.tail.dir s.state s.tx = (.continue,
        ⟨file.bytes.length, (eventDecoder.scan (base ++ file.bytes)).2, some file.inode⟩,
        { s.tx with sent := (eventDecoder.scan (base ++ file.bytes)).1 }) := by
      rcases hfollow.reading with hc | hc
      · exact hfollow.pollCurrent hc hd
      · obtain ⟨file', hf, hpoll⟩ := hfollow.pollRotated hc
        cases (show s.tail.dir 0 = some file' from hf).symm.trans hd
        exact hpoll
    rw [hpoll, hvisible, scan_encodeAll]

theorem PipeSys.Inv.step {s s' : PipeSys} {a : PipeAct} (h : s.Inv)
    (hok : a.Quiet ∧ Followed s a) (hs : s.step a = some s') : s'.Inv := by
  obtain ⟨hquiet, hfollowed⟩ := hok
  cases a with
  | poll => exact (h.poll hs).1
  | tail a =>
    cases hs
    cases a with
    | write stream data => exact h.write stream data
    | tick env stop => exact h.tick hquiet hfollowed

/-! ## Runs -/

theorem PipeSys.Inv.run {acts : List PipeAct} {s : PipeSys}
    (hok : Along PipeSys.step (fun s a => a.Quiet ∧ Followed s a) {} acts)
    (hr : run PipeSys.step {} acts = some s) : s.Inv :=
  run_inv (fun _ _ _ h ho hs => h.step ho hs) .init hok hr

/-- What a follower has sent is a part of what the files hold. -/
theorem sent_prefix {r : RotSys} {base : Bytes} (h : r.Inv base) (hp : r.pending = []) :
    r.tx.sent <+: r.begun.map Record.entry := by
  have hcut {x y : Bytes} {rest : Bytes} (hxy : x ++ y = encodeAll r.begun)
      (hx : eventDecoder.scan x = (r.tx.sent, rest)) : r.tx.sent <+: r.begun.map Record.entry := by
    have hscan := Decoder.scan_append (D := eventDecoder) x y
    rw [hxy, scan_encodeAll, hx] at hscan
    exact ⟨_, (congrArg Prod.fst hscan).symm⟩
  have hvisible := visible_eq h hp
  rcases h.reading with hc | hc
  · refine hcut (y := r.dir.logBytes.drop r.state.pos) ?_ hc.read
    rw [List.append_assoc, List.take_append_drop, hvisible]
  · obtain ⟨before, file1, file0, -, -, -, -, hbase, -, hread⟩ := hc.files
    refine hcut (y := file1.bytes.drop r.state.pos ++ r.dir.logBytes) ?_ hread
    rw [← hvisible, hbase]
    simp only [List.append_assoc, ← List.append_assoc (file1.bytes.take _),
      List.take_append_drop]

theorem PipeSys.Inv.sent_prefix {s : PipeSys} (h : s.Inv) : s.tx.sent <+: s.tail.written := by
  obtain ⟨begun, rotated, base, hfollow, hwritten⟩ := h.follow
  rw [← hwritten]
  exact Tailer.sent_prefix hfollow rfl

theorem TailSys.Inv.conserved {s : TailSys} {hist : List (List Record × Nat)} (h : s.Inv hist)
    (stream : LogStream) :
    ((s.writtenOn stream).map LogEntry.data).flatten ++ (s.tailer.tail stream).leftover =
      ((s.raw stream).getD []).take (s.tailer.tail stream).pos := by
  rw [h.writtenOn]
  exact (h.streams stream).conserved

/-- **From the task to the follower.** In every run of writes, passes, rotations and polls in which
rotations find the follower, what has been sent is a prefix of the records written, and of each
stream a prefix of what the task wrote to it. A poll sends all records; together with the partial
line of the tailer they are the raw file as far as it was read. -/
theorem pipeline_delivers (acts : List PipeAct) (s : PipeSys)
    (hr : run PipeSys.step {} acts = some s)
    (hok : Along PipeSys.step (fun s a => a.Quiet ∧ Followed s a) {} acts) :
    s.tx.sent <+: s.tail.written ∧
    (∀ stream, s.sentOn stream <+: (s.tail.raw stream).getD []) ∧
    ∀ s', s.step .poll = some s' → s'.tx.sent = s.tail.written ∧ ∀ stream,
      s'.sentOn stream ++ (s.tail.tailer.tail stream).leftover =
        ((s.tail.raw stream).getD []).take (s.tail.tailer.tail stream).pos := by
  have h := PipeSys.Inv.run hok hr
  obtain ⟨hist, htail⟩ := h.tail
  refine ⟨h.sent_prefix, fun stream => ?_, fun s' hs => ?_⟩
  · have hsent : s.sentOn stream <+: ((s.tail.writtenOn stream).map LogEntry.data).flatten :=
      List.IsPrefix.flatten ((h.sent_prefix.filter _).map _)
    have hraw := (List.prefix_append _ _).trans (htail.conserved stream ▸ List.take_prefix _ _)
    exact hsent.trans hraw
  · obtain ⟨-, -, hsent⟩ := h.poll hs
    refine ⟨hsent, fun stream => ?_⟩
    rw [PipeSys.sentOn, hsent]
    exact htail.conserved stream

/-- A task that writes a line and a half, in two pieces, and a poll between them. -/
def halfLinePipe : List PipeAct :=
  [.tail (.write .stdout [104]), .tail (.tick {} false), .poll, .tail (.tick {} false),
    .tail (.tick {} false), .tail (.write .stdout [105, 10, 104]), .tail (.tick { now := 5 } false)]

theorem halfLinePipe_ok :
    Along PipeSys.step (fun s a => a.Quiet ∧ Followed s a) {} halfLinePipe := by
  refine along_and (along_of_forall (p := PipeAct.Quiet) ?_) (by decide +kernel)
  simp [halfLinePipe, PipeAct.Quiet, TailAct.Quiet]

theorem pipeline_delivers_halfLine : ∃ s s', run PipeSys.step {} halfLinePipe = some s ∧
    s.step .poll = some s' ∧ s'.sentOn .stdout = [104, 105, 10] ∧
    s'.sentOn .stdout ++ (s.tail.tailer.tail .stdout).leftover =
      ((s.tail.raw .stdout).getD []).take (s.tail.tailer.tail .stdout).pos := by
  obtain ⟨s', hr, hsent⟩ := run_eval PipeSys.step {} (halfLinePipe ++ [.poll])
    (fun s' => s'.sentOn .stdout = [104, 105, 10]) (by decide +kernel)
  obtain ⟨s, hs, hpoll⟩ := run_append.mp hr
  obtain ⟨_, hpoll, he⟩ := run_cons.mp hpoll
  cases he
  exact ⟨s, s', hs, hpoll, hsent,
    ((pipeline_delivers halfLinePipe s hs halfLinePipe_ok).2.2 s' hpoll).2 .stdout⟩

/-- Steps of the tailer and the task are those of `TailSys`. -/
theorem run_tail (acts : List TailAct) (s : PipeSys) :
    run PipeSys.step s (acts.map .tail) =
      some { s with tail := acts.foldl TailSys.step s.tail } := by
  induction acts generalizing s with
  | nil => rfl
  | cons a acts ih => exact ih { s with tail := s.tail.step a }

/-- **A follower gets all there is at the exit exactly when the final passes suffice**: after any
run, the stop signal, the final pass over each stream and a poll have sent the whole of a raw file
if and only if its backlog fits in one read and no partial line is kept back. -/
theorem pipeline_complete_iff (acts : List PipeAct) (s : PipeSys)
    (hr : run PipeSys.step {} acts = some s) (hpc : s.tail.tailer.pc = .select) (out err : PassEnv)
    (hout : out.Still) (herr : err.Still)
    (hok : Along PipeSys.step (fun s a => a.Quiet ∧ Followed s a) {}
      (acts ++ (finalTicks out err).map .tail)) (t : PipeSys)
    (ht : run PipeSys.step s ((finalTicks out err).map .tail ++ [.poll]) = some t) :
    t.tail.tailer.pc = .done ∧ ∀ stream,
      t.sentOn stream = (s.tail.raw stream).getD [] ↔
        FinalPassSuffices ((s.tail.raw stream).getD []) (s.tail.tailer.tail stream) := by
  have hbefore := PipeSys.Inv.run (along_left hok) hr
  rw [run_append, run_tail] at ht
  obtain ⟨m, hm, hpoll⟩ := ht
  have h := PipeSys.Inv.run hok (run_append.mpr ⟨s, hr, (run_tail _ s).trans hm⟩)
  obtain ⟨t', hs, he⟩ := run_cons.mp hpoll
  cases he
  obtain ⟨-, htail, hsent⟩ := h.poll hs
  obtain ⟨hdone, hraw, hto, hte⟩ := finalTicks_spec hpc hout herr
  have hmtail : m.tail = (finalTicks out err).foldl TailSys.step s.tail := by cases hm; rfl
  rw [← hmtail] at hdone hraw hto hte
  obtain ⟨hist, hinv⟩ := h.tail
  obtain ⟨hist₀, hinv₀⟩ := hbefore.tail
  refine ⟨by rw [htail]; exact hdone, fun stream => ?_⟩
  have hcomplete := (hinv.streams stream).complete_iff
  rw [← hinv.writtenOn] at hcomplete
  rw [PipeSys.sentOn, hsent, ← hraw]
  refine hcomplete.trans ?_
  rw [hraw]
  cases stream with
  | stdout => rw [hto]; exact (hinv₀.streams .stdout).drained_iff hout.1 .stdout
  | stderr => rw [hte]; exact (hinv₀.streams .stderr).drained_iff herr.1 .stderr

/-- A round of passes, and then a task that writes `hi` and a newline and exits. -/
def wholeLinePipe : List PipeAct :=
  [.tail (.tick {} false), .tail (.tick {} false), .poll, .tail (.write .stdout [104, 105, 10])]

theorem wholeLinePipe_ok : Along PipeSys.step (fun s a => a.Quiet ∧ Followed s a) {}
    (wholeLinePipe ++ (finalTicks {} {}).map .tail) := by
  refine along_and (along_of_forall (p := PipeAct.Quiet) ?_) (by decide +kernel)
  simp [wholeLinePipe, finalTicks, PipeAct.Quiet, TailAct.Quiet]

theorem pipeline_complete_wholeLine : ∃ t,
    run PipeSys.step {} (wholeLinePipe ++ ((finalTicks {} {}).map .tail ++ [.poll])) = some t ∧
    t.tail.tailer.pc = .done ∧ t.sentOn .stdout = [104, 105, 10] := by
  obtain ⟨s, hr, hpc, hsuff⟩ := run_eval PipeSys.step {} wholeLinePipe
    (fun s => s.tail.tailer.pc = .select ∧ (s.tail.raw .stdout = some [104, 105, 10] ∧
      s.tail.tailer.tail .stdout = {})) (by decide +kernel)
  obtain ⟨t, ht⟩ : ∃ t, run PipeSys.step s ((finalTicks {} {}).map .tail ++ [.poll]) = some t :=
    ⟨_, rfl⟩
  obtain ⟨hdone, hall⟩ := pipeline_complete_iff wholeLinePipe s hr hpc {} {} ⟨rfl, rfl⟩ ⟨rfl, rfl⟩
    wholeLinePipe_ok t ht
  have hstdout := (hall .stdout).mpr
  rw [hsuff.1, hsuff.2] at hstdout
  exact ⟨t, run_append.mpr ⟨s, hr, ht⟩, hdone, hstdout ⟨by decide, .inl (by decide)⟩⟩

end ContainerdManager.Tailer
