import ContainerdManager.Tailer.Loop

/-!
# The tailer and the task

Any schedule of the task's writes and the tailer's steps, from an empty log
directory. Nothing the task wrote is lost, reordered or duplicated on its
way into the events log (`tailer_conserves`); what the stop signal's final
passes leave behind is `final_drain_complete_iff`.
-/

namespace ContainerdManager.Tailer

open Lib Logs

/-! ## The tailer and the task -/

/-- The raw files, the tailer, the events files, and the batches handed to `append_batch`. -/
structure TailSys where
  raw : LogStream → Option Bytes := fun _ => none
  tailer : TailerLoop := {}
  dir : EventsDir := .empty
  batches : List Bytes := []

inductive TailAct where
  /-- The task appends to a raw file. -/
  | write (stream : LogStream) (data : Bytes)
  /-- A step of the tailer; `stop` tells whether it finds the stop signal. -/
  | tick (env : PassEnv) (stop : Bool)

/-- The raw files after a pass during which the task appended to the file being read. -/
def growRaw (raw : LogStream → Option Bytes) (pc : TailerPc) (grown : Bytes) :
    LogStream → Option Bytes :=
  match pc.stream with
  | none => raw
  | some stream => Function.update raw stream ((raw stream).map (· ++ grown))

def TailSys.step (s : TailSys) : TailAct → TailSys
  | .write stream data =>
    { s with raw := Function.update s.raw stream (some ((s.raw stream).getD [] ++ data)) }
  | .tick env stop =>
    let (tailer, dir) := s.tailer.tick env stop s.raw s.dir
    let batch := s.tailer.batch env s.raw
    { raw := growRaw s.raw s.tailer.pc env.grown
      tailer := tailer
      dir := dir
      batches := if batch.isEmpty then s.batches else s.batches ++ [batch] }

/-- The step meets no I/O error. -/
def TailAct.Quiet : TailAct → Prop
  | .write _ _ => True
  | .tick env _ => env.io = noFaults

/-- The records written to the events log, as they are read back. -/
def TailSys.written (s : TailSys) : List LogEntry := s.batches.flatMap parseEventsFile

def TailSys.writtenOn (s : TailSys) (stream : LogStream) : List LogEntry :=
  s.written.filter fun e => e.stream = stream

/-! ## The history of the events files -/

/-- The events files after `append_batch` calls, each with the inode it would create a
file under. -/
def histDir (hist : List (List Record × Nat)) : EventsDir := (AppendHistory.init.appends hist).dir

theorem histDir_snoc (hist : List (List Record × Nat)) (recs : List Record) (ino : Nat) :
    histDir (hist ++ [(recs, ino)]) =
      (appendBatch noFaults ino (histDir hist) (encodeAll recs)).2 := by
  rw [histDir, AppendHistory.appends_snoc]
  rfl

/-! ## The invariant of a run -/

/-- The batches are the records of `hist`, the files are what `append_batch` made of them, and
each stream is conserved. -/
structure TailSys.Inv (s : TailSys) (hist : List (List Record × Nat)) : Prop where
  batches : s.batches = hist.map fun c => encodeAll c.1
  dir : s.dir = histDir hist
  streams : ∀ stream, StreamInv (dataOn stream (hist.map Prod.fst).flatten) (s.raw stream)
    (s.tailer.tail stream)

theorem TailSys.Inv.init : TailSys.Inv {} [] where
  batches := rfl
  dir := rfl
  streams _ := .init none

/-- A write to one raw file leaves the invariant of both. -/
theorem StreamInv.writeRaw {data : LogStream → List Bytes} {raw : LogStream → Option Bytes}
    {tail : LogStream → TailState}
    (h : ∀ stream, StreamInv (data stream) (raw stream) (tail stream))
    (stream : LogStream) (more : Bytes) (other : LogStream) :
    StreamInv (data other)
      (Function.update raw stream (some ((raw stream).getD [] ++ more)) other) (tail other) := by
  by_cases he : other = stream
  · subst he
    rw [Function.update_self]
    exact (h other).write more
  · rw [Function.update_of_ne he]
    exact h other

theorem TailSys.Inv.write {s : TailSys} {hist : List (List Record × Nat)} (h : s.Inv hist)
    (stream : LogStream) (data : Bytes) : (s.step (.write stream data)).Inv hist where
  batches := h.batches
  dir := h.dir
  streams := StreamInv.writeRaw h.streams stream data

theorem StreamInv.grow {data : List Bytes} {raw : Option Bytes} {state : TailState}
    (h : StreamInv data raw state) (more : Bytes) : StreamInv data (raw.map (· ++ more)) state := by
  cases raw with
  | none => exact h
  | some raw => exact h.write more

theorem StreamInv.growRaw {data : List Bytes} {raw : LogStream → Option Bytes} {stream : LogStream}
    {state : TailState} (h : StreamInv data (raw stream) state) (pc : TailerPc) (grown : Bytes) :
    StreamInv data (growRaw raw pc grown stream) state := by
  unfold Tailer.growRaw
  cases pc.stream with
  | none => exact h
  | some other =>
    by_cases he : stream = other
    · subst he
      simp only [Function.update_self]
      exact h.grow grown
    · simp only [Function.update_of_ne he]
      exact h

theorem TailSys.Inv.tick {s : TailSys} {hist : List (List Record × Nat)} (h : s.Inv hist)
    {env : PassEnv} (hio : env.io = noFaults) (stop : Bool) :
    ∃ hist', (s.step (.tick env stop)).Inv hist' := by
  obtain ⟨recs, hbatch, hdir, hstreams⟩ := tick_spec h.streams env hio stop s.dir
  cases hrecs : recs with
  | nil =>
    subst hrecs
    refine ⟨hist, ?_, ?_, fun stream => StreamInv.growRaw ?_ _ _⟩
    · simp [TailSys.step, hbatch, h.batches]
    · exact hdir.trans h.dir
    · have := hstreams stream
      rwa [dataOn_nil, List.append_nil] at this
  | cons r rest =>
    have hne : recs.isEmpty = false := by rw [hrecs]; rfl
    refine ⟨hist ++ [(recs, env.ino)], ?_, ?_, fun stream => StreamInv.growRaw ?_ _ _⟩
    · simp [TailSys.step, hbatch, h.batches, encodeAll_isEmpty, hne]
    · rw [histDir_snoc, ← h.dir]
      exact hdir.trans (by rw [hne]; rfl)
    · have e : ((hist ++ [(recs, env.ino)]).map Prod.fst).flatten =
          (hist.map Prod.fst).flatten ++ recs := by simp
      rw [e, dataOn_append]
      exact hstreams stream

theorem TailSys.Inv.run {acts : List TailAct} (hq : ∀ a ∈ acts, a.Quiet) :
    ∃ hist, (acts.foldl TailSys.step {}).Inv hist := by
  refine List.foldlRecOn (motive := fun s => ∃ hist, TailSys.Inv s hist) acts TailSys.step
    ⟨_, TailSys.Inv.init⟩ ?_
  rintro s ⟨hist, h⟩ a ha
  cases a with
  | write stream data => exact ⟨_, h.write stream data⟩
  | tick env stop => exact h.tick (hq _ ha) stop

/-- The files hold what the batches are. -/
theorem TailSys.Inv.appended {s : TailSys} {hist : List (List Record × Nat)} (h : s.Inv hist) :
    Appended .init hist s.batches s.dir := by
  rw [h.batches, h.dir]
  exact Retains.init.appended hist

/-- The records written are those of the history. -/
theorem TailSys.Inv.written {s : TailSys} {hist : List (List Record × Nat)} (h : s.Inv hist) :
    s.written = (hist.map Prod.fst).flatten.map Record.entry := by
  rw [TailSys.written, h.batches, List.flatMap_map, List.map_flatten, List.map_map,
    List.flatMap_def]
  congr 1
  exact List.map_congr_left fun c _ => parseEventsFile_encodeAll c.1

theorem TailSys.Inv.writtenOn {s : TailSys} {hist : List (List Record × Nat)} (h : s.Inv hist)
    (stream : LogStream) :
    (s.writtenOn stream).map LogEntry.data = dataOn stream (hist.map Prod.fst).flatten := by
  rw [TailSys.writtenOn, h.written, data_entries]

/-- **The tailer conserves both streams**: after any schedule of writes and tailer steps without
I/O errors, the records of a stream and its partial line are the raw file up to the position. The
partial line is a short one, and every record is a line or a flushed part of one within the
decoder's limit. The batches are whole records, the last of them stands at the end of `events.log`,
and the files read back to all of them but those that rotations have pushed out. -/
theorem tailer_conserves (acts : List TailAct) (hq : ∀ a ∈ acts, a.Quiet) :
    (∀ stream,
      (((acts.foldl TailSys.step {}).writtenOn stream).map LogEntry.data).flatten ++
          ((acts.foldl TailSys.step {}).tailer.tail stream).leftover =
        (((acts.foldl TailSys.step {}).raw stream).getD []).take
          ((acts.foldl TailSys.step {}).tailer.tail stream).pos ∧
      nl ∉ ((acts.foldl TailSys.step {}).tailer.tail stream).leftover ∧
      ((acts.foldl TailSys.step {}).tailer.tail stream).leftover.length < maxLeftoverBytes) ∧
    (∀ e ∈ (acts.foldl TailSys.step {}).written,
      e.data ≠ [] ∧ nl ∉ e.data.dropLast ∧
      e.data.length ≤ maxLeftoverBytes - 1 + maxReadChunk ∧ e.data.length < maxRecordBytes) ∧
    ∃ calls : List (List Record × Nat),
      (acts.foldl TailSys.step {}).written = (calls.map Prod.fst).flatten.map Record.entry ∧
      Appended .init calls (acts.foldl TailSys.step {}).batches
        (acts.foldl TailSys.step {}).dir := by
  obtain ⟨hist, h⟩ := TailSys.Inv.run hq
  refine ⟨fun stream => ?_, fun e he => ?_, hist, h.written, h.appended⟩
  · rw [h.writtenOn]
    have hs := h.streams stream
    exact ⟨hs.conserved, hs.ok.no_nl, hs.ok.short⟩
  · have hd : e.data ∈ dataOn e.stream (hist.map Prod.fst).flatten := by
      rw [← h.writtenOn]
      exact List.mem_map_of_mem (List.mem_filter.mpr ⟨he, by simp⟩)
    obtain ⟨hline, hle⟩ := (h.streams e.stream).shape _ hd
    exact ⟨hline.piece.ne_nil, hline.piece.body, hle, Nat.lt_of_le_of_lt hle maxLine_lt⟩

/-- A task that writes a line and a half, and a round of passes. -/
def halfLineActs : List TailAct :=
  [.write .stdout [104, 105, 10, 104], .tick {} false, .tick { now := 5 } false]

theorem tailer_conserves_halfLine : (∀ a ∈ halfLineActs, a.Quiet) ∧
    (((halfLineActs.foldl TailSys.step {}).writtenOn .stdout).map LogEntry.data).flatten ++
        ((halfLineActs.foldl TailSys.step {}).tailer.tail .stdout).leftover =
      (((halfLineActs.foldl TailSys.step {}).raw .stdout).getD []).take
        ((halfLineActs.foldl TailSys.step {}).tailer.tail .stdout).pos :=
  have hq : ∀ a ∈ halfLineActs, a.Quiet := by simp [halfLineActs, TailAct.Quiet]
  ⟨hq, ((tailer_conserves halfLineActs hq).1 .stdout).1⟩

/-! ## The final passes -/

/-- What the stop signal leads to: one more pass over each stream, then the end. -/
def finalTicks (out err : PassEnv) : List TailAct :=
  [.tick {} true, .tick out false, .tick err false]

/-- The passes meet no I/O error and no later write. -/
def PassEnv.Still (env : PassEnv) : Prop := env.io = noFaults ∧ env.grown = []

/-- One pass takes the rest of the file, and the line it ends in is not kept back. -/
def FinalPassSuffices (raw : Bytes) (state : TailState) : Prop :=
  raw.length ≤ state.pos + maxReadChunk ∧
    ((lines nl (state.leftover ++ raw.drop state.pos)).2 = [] ∨
      maxLeftoverBytes ≤ (lines nl (state.leftover ++ raw.drop state.pos)).2.length)

/-- The records of a stream are the whole file when nothing is kept back. -/
theorem StreamInv.complete_iff {data : List Bytes} {raw : Option Bytes} {state : TailState}
    (h : StreamInv data raw state) :
    data.flatten = raw.getD [] ↔ state.leftover = [] ∧ state.pos = (raw.getD []).length := by
  have hc := h.conserved
  have hle := h.ok.pos_le
  constructor
  · intro hd
    rw [hd] at hc
    have hl := congrArg List.length hc
    rw [List.length_append, List.length_take] at hl
    exact ⟨List.eq_nil_of_length_eq_zero (by omega), by omega⟩
  · rintro ⟨hl, hp⟩
    rwa [hl, hp, List.append_nil, List.take_length] at hc

theorem cut_rest_eq_nil (combined : Bytes) :
    (cut combined).2 = [] ↔
      (lines nl combined).2 = [] ∨ maxLeftoverBytes ≤ (lines nl combined).2.length := by
  unfold cut
  split
  · rename_i h; simp [h]
  · rename_i h; simp [h]

/-- A pass leaves nothing behind exactly when it suffices. -/
theorem StreamInv.drained_iff {data : List Bytes} {raw : Option Bytes} {state : TailState}
    (h : StreamInv data raw state) {env : PassEnv} (hio : env.io = noFaults) (stream : LogStream) :
    ((drainRaw env raw stream state).2.1.leftover = [] ∧
        (drainRaw env raw stream state).2.1.pos = (raw.getD []).length) ↔
      FinalPassSuffices (raw.getD []) state := by
  rcases raw with _ | raw
  · have hfile : state.file = false := by
      cases hf : state.file with
      | false => rfl
      | true => exact absurd (h.file hf) (by simp)
    have hpos : state.pos = 0 := Nat.le_zero.mp h.ok.pos_le
    rw [drainRaw_missing hio hfile]
    simp only [FinalPassSuffices, Option.getD_none, List.length_nil, List.drop_nil, List.append_nil,
      lines_of_not_mem h.ok.no_nl, hpos]
    have := h.ok.short
    simp [Nat.not_le.mpr this]
  · have hok : state.Ok raw := h.ok
    have hle := hok.pos_le
    rw [drainRaw_ok hio hok]
    simp only [FinalPassSuffices, Option.getD_some, cut_rest_eq_nil]
    have hfit : state.pos + (passRead raw state.pos).length = raw.length ↔
        raw.length ≤ state.pos + maxReadChunk := by
      rw [passRead, List.length_take, List.length_drop]
      omega
    rw [hfit, and_comm]
    refine and_congr_right fun hfits => ?_
    have hread : passRead raw state.pos = raw.drop state.pos := by
      rw [passRead, List.take_of_length_le]
      rw [List.length_drop]
      omega
    rw [hread]

theorem drainIntoEvents_state (env : PassEnv) (raw : Option Bytes) (stream : LogStream)
    (state : TailState) (dir : EventsDir) :
    (drainIntoEvents env raw stream state dir).2.1 = (drainRaw env raw stream state).2.1 := by
  unfold drainIntoEvents
  split
  · rename_i hd; rw [hd]
  · rename_i hd
    rw [hd]
    split <;> rfl

theorem tick_tail {t : TailerLoop} {stream : LogStream} (h : t.pc.stream = some stream)
    (env : PassEnv) (stop : Bool) (raw : LogStream → Option Bytes) (dir : EventsDir) :
    (t.tick env stop raw dir).1.tail =
      Function.update t.tail stream (drainRaw env (raw stream) stream (t.tail stream)).2.1 := by
  unfold TailerLoop.tick
  rw [h]
  simp only [drainIntoEvents_state]

theorem growRaw_nil (raw : LogStream → Option Bytes) (pc : TailerPc) : growRaw raw pc [] = raw := by
  unfold growRaw
  cases pc.stream with
  | none => rfl
  | some stream =>
    have : (raw stream).map (· ++ []) = raw stream := by cases raw stream <;> simp
    simp only [this, Function.update_eq_self]

/-- The state of the system after the final passes. -/
theorem finalTicks_spec {s : TailSys} (hpc : s.tailer.pc = .select) {out err : PassEnv}
    (hout : out.Still) (herr : err.Still) :
    ((finalTicks out err).foldl TailSys.step s).tailer.pc = .done ∧
    ((finalTicks out err).foldl TailSys.step s).raw = s.raw ∧
    ((finalTicks out err).foldl TailSys.step s).tailer.tail .stdout =
      (drainRaw out (s.raw .stdout) .stdout (s.tailer.tail .stdout)).2.1 ∧
    ((finalTicks out err).foldl TailSys.step s).tailer.tail .stderr =
      (drainRaw err (s.raw .stderr) .stderr (s.tailer.tail .stderr)).2.1 := by
  let s1 := s.step (.tick {} true)
  have hp1 : s1.tailer.pc = .finalOut := by
    simp [s1, TailSys.step, TailerLoop.tick, TailerLoop.next, hpc, TailerPc.stream]
  have ht1 : s1.tailer.tail = s.tailer.tail := by
    simp [s1, TailSys.step, TailerLoop.tick, hpc, TailerPc.stream]
  have hr1 : s1.raw = s.raw := growRaw_nil _ _
  let s2 := s1.step (.tick out false)
  have hp2 : s2.tailer.pc = .finalErr := by
    simp [s2, TailSys.step, TailerLoop.tick, TailerLoop.next, hp1, TailerPc.stream]
  have ht2 : s2.tailer.tail = Function.update s1.tailer.tail .stdout _ :=
    tick_tail (by rw [hp1]; rfl) out false s1.raw s1.dir
  have hr2 : s2.raw = s1.raw := by
    show growRaw s1.raw s1.tailer.pc out.grown = _
    rw [hout.2, growRaw_nil]
  let s3 := s2.step (.tick err false)
  have hp3 : s3.tailer.pc = .done := by
    simp [s3, TailSys.step, TailerLoop.tick, TailerLoop.next, hp2, TailerPc.stream]
  have ht3 : s3.tailer.tail = Function.update s2.tailer.tail .stderr _ :=
    tick_tail (by rw [hp2]; rfl) err false s2.raw s2.dir
  have hr3 : s3.raw = s2.raw := by
    show growRaw s2.raw s2.tailer.pc err.grown = _
    rw [herr.2, growRaw_nil]
  refine ⟨hp3, by rw [← hr1, ← hr2]; exact hr3, ?_, ?_⟩
  · show s3.tailer.tail .stdout = _
    rw [ht3, Function.update_of_ne (by decide), ht2, Function.update_self, hr1, ht1]
  · show s3.tailer.tail .stderr = _
    rw [ht3, Function.update_self, hr2, hr1, ht2, Function.update_of_ne (by decide), ht1]

/-- **When the final drain is complete**: after any schedule, the two passes that follow the stop
signal leave the records of a stream equal to its whole file if and only if the backlog fits in one
read and no partial line is kept back. The files read back to these records but for batches that
rotations have pushed out. -/
theorem final_drain_complete_iff (acts : List TailAct) (hq : ∀ a ∈ acts, a.Quiet)
    (hpc : (acts.foldl TailSys.step {}).tailer.pc = .select) (out err : PassEnv) (hout : out.Still)
    (herr : err.Still) :
    ((acts ++ finalTicks out err).foldl TailSys.step {}).tailer.pc = .done ∧
    (∀ stream,
      (((acts ++ finalTicks out err).foldl TailSys.step {}).writtenOn stream |>.map
          LogEntry.data).flatten = ((acts.foldl TailSys.step {}).raw stream).getD [] ↔
        FinalPassSuffices (((acts.foldl TailSys.step {}).raw stream).getD [])
          ((acts.foldl TailSys.step {}).tailer.tail stream)) ∧
    ∃ calls : List (List Record × Nat),
      ((acts ++ finalTicks out err).foldl TailSys.step {}).written =
        (calls.map Prod.fst).flatten.map Record.entry ∧
      Appended .init calls ((acts ++ finalTicks out err).foldl TailSys.step {}).batches
        ((acts ++ finalTicks out err).foldl TailSys.step {}).dir := by
  obtain ⟨hist, h⟩ := TailSys.Inv.run hq
  have hq' : ∀ a ∈ acts ++ finalTicks out err, a.Quiet := by
    intro a ha
    rcases List.mem_append.mp ha with ha | ha
    · exact hq a ha
    · simp only [finalTicks, List.mem_cons, List.not_mem_nil, or_false] at ha
      rcases ha with rfl | rfl | rfl
      · rfl
      · exact hout.1
      · exact herr.1
  obtain ⟨hist', h'⟩ := TailSys.Inv.run hq'
  rw [List.foldl_append] at h' ⊢
  obtain ⟨hdone, hraw, hto, hte⟩ := finalTicks_spec hpc hout herr
  refine ⟨hdone, fun stream => ?_, hist', h'.written, h'.appended⟩
  have hs := (h'.streams stream).complete_iff
  rw [h'.writtenOn, ← hraw, hs, hraw]
  cases stream with
  | stdout => rw [hto]; exact (h.streams .stdout).drained_iff hout.1 .stdout
  | stderr => rw [hte]; exact (h.streams .stderr).drained_iff herr.1 .stderr

/-- A task that writes `hi` and a newline before the tailer has made a round of passes. -/
def wholeLineActs : List TailAct :=
  [.tick {} false, .tick {} false, .write .stdout [104, 105, 10]]

theorem final_drain_wholeLine : (∀ a ∈ wholeLineActs, a.Quiet) ∧
    ((((wholeLineActs ++ finalTicks {} {}).foldl TailSys.step {}).writtenOn .stdout).map
        LogEntry.data).flatten = [104, 105, 10] :=
  have hq : ∀ a ∈ wholeLineActs, a.Quiet := by simp [wholeLineActs, TailAct.Quiet]
  ⟨hq, ((final_drain_complete_iff wholeLineActs hq (by decide) {} {} ⟨rfl, rfl⟩ ⟨rfl, rfl⟩).2.1
    .stdout).mpr ⟨by decide, .inl (by decide)⟩⟩

/-- A task that writes `hi` without a newline. -/
def noNewlineActs : List TailAct :=
  [.tick {} false, .tick {} false, .write .stdout [104, 105]]

/-- **The final drain loses a last line without a newline**: nothing of it is in the events
files. -/
theorem final_drain_loses_partial :
    (noNewlineActs.foldl TailSys.step {}).tailer.pc = .select ∧
    ((noNewlineActs ++ finalTicks {} {}).foldl TailSys.step {}).tailer.pc = .done ∧
    ((((noNewlineActs ++ finalTicks {} {}).foldl TailSys.step {}).writtenOn .stdout).map
        LogEntry.data).flatten ≠ [104, 105] ∧
    containerLogs (fun _ => false)
      ((noNewlineActs ++ finalTicks {} {}).foldl TailSys.step {}).dir = .ok [] := by
  decide +kernel

end ContainerdManager.Tailer
