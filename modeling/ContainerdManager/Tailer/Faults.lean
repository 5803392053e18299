import ContainerdManager.Logs.RotationFaults
import ContainerdManager.Lib.Runs
import ContainerdManager.Tailer.Runs

/-!
# Passes with failing file operations

`drain_into_events` takes the partial line out of its state before it reads,
and moves its position before it appends the batch. A pass whose read fails
therefore drops the partial line, and one whose append fails drops the
lines it has read; the loop's next pass starts behind them. `PassKeeps` is
the condition under which a pass drops nothing, and `drains_conserve_iff`
says that a schedule conserves both streams if and only if all its passes
meet it.
-/

namespace ContainerdManager.Tailer

open Lib Logs

/-! ## One pass -/

/-- The pass gets as far as its read. -/
structure PassReads (env : PassEnv) (raw : Option Bytes) (state : TailState) : Prop where
  opened : state.file = true ∨ env.io .openRaw = false
  stat : env.io .statRaw = false
  behind : state.pos < (raw.getD []).length
  seek : env.io .seekRaw = false

/-- The batch of a pass that reads. -/
def passBatch (env : PassEnv) (raw : Option Bytes) (stream : LogStream) (state : TailState) :
    Bytes :=
  (splitBatch env.now stream (state.leftover ++ passRead (raw.getD []) state.pos)).1

/-- The pass drops nothing: when its read fails there is no partial line, and when it has a batch
the append goes through. -/
def PassKeeps (env : PassEnv) (raw : Option Bytes) (stream : LogStream) (state : TailState)
    (dir : EventsDir) : Prop :=
  PassReads env raw state →
    (env.io .readRaw = true → state.leftover = []) ∧
    (env.io .readRaw = false → passBatch env raw stream state ≠ [] →
      AppendKeeps env.io dir (passBatch env raw stream state).length)

/-- What every state of a tailer is like, whatever failed before. -/
structure Sound (raw : Option Bytes) (state : TailState) : Prop where
  ok : state.Ok (raw.getD [])
  file : state.file = true → raw.isSome

/-- The three ways a pass can go up to its batch. -/
inductive RawPass (env : PassEnv) (raw : Option Bytes) (stream : LogStream) (state : TailState) :
    TailState → Bytes → Prop
  /-- Nothing is read; the handle may have been opened. -/
  | idle (file : Bool) (h : ¬ PassReads env raw state) (hf : file = true → raw.isSome) :
      RawPass env raw stream state { state with file := file } []
  | readFails (h : PassReads env raw state) (hio : env.io .readRaw = true) :
      RawPass env raw stream state { state with leftover := [], file := true } []
  | reads (h : PassReads env raw state) (hio : env.io .readRaw = false) :
      RawPass env raw stream state
        { pos := state.pos + (passRead (raw.getD []) state.pos).length
          leftover := (cut (state.leftover ++ passRead (raw.getD []) state.pos)).2
          file := true }
        (passBatch env raw stream state)

theorem ensureFileOpen_cases (io : IoFaults) {raw : Option Bytes} {state : TailState}
    (h : Sound raw state) :
    (ensureFileOpen io state raw = .error (.io "tailer: open raw") ∧ state.file = false ∧
        io .openRaw = true) ∨
      (ensureFileOpen io state raw = .ok (false, state) ∧ raw = none) ∨
      (ensureFileOpen io state raw = .ok (true, { state with file := true }) ∧ raw.isSome ∧
        (state.file = true ∨ io .openRaw = false)) := by
  obtain ⟨pos, leftover, file⟩ := state
  unfold ensureFileOpen
  cases file with
  | true => exact .inr (.inr ⟨rfl, h.file rfl, .inl rfl⟩)
  | false =>
    cases hio : io .openRaw with
    | true => exact .inl ⟨rfl, rfl, rfl⟩
    | false =>
      cases raw with
      | none => exact .inr (.inl ⟨rfl, rfl⟩)
      | some raw => exact .inr (.inr ⟨rfl, rfl, .inr rfl⟩)

/-- The state and batch of a pass are those of one of the three, and a pass that fails before its
batch has none. -/
theorem drainRaw_pass (env : PassEnv) {raw : Option Bytes} (stream : LogStream) {state : TailState}
    (h : Sound raw state) :
    RawPass env raw stream state (drainRaw env raw stream state).2.1
      (drainRaw env raw stream state).2.2 ∧
      (∀ e, (drainRaw env raw stream state).1 = .error e →
        (drainRaw env raw stream state).2.2 = []) := by
  have hle : state.pos ≤ (raw.getD []).length := h.ok.pos_le
  unfold drainRaw
  rcases ensureFileOpen_cases env.io h with ⟨ho, hf, hio⟩ | ⟨ho, hnone⟩ | ⟨ho, hsome, hopened⟩
  · rw [ho]
    refine ⟨.idle state.file (fun hr => ?_) h.file, fun _ _ => rfl⟩
    rcases hr.opened with h' | h'
    · rw [hf] at h'; cases h'
    · rw [hio] at h'; cases h'
  · rw [ho]
    refine ⟨.idle state.file (fun hr => ?_) h.file, fun _ _ => rfl⟩
    have := hr.behind
    rw [hnone] at this
    exact absurd this (Nat.not_lt_zero _)
  · rw [ho]
    have hidle : ¬ PassReads env raw state →
        RawPass env raw stream state { state with file := true } [] :=
          fun hn => .idle true hn fun _ => hsome
    dsimp only
    split
    · rename_i hio
      refine ⟨hidle fun hr => ?_, fun _ _ => rfl⟩
      rw [hr.stat] at hio
      cases hio
    · rename_i hstat
      rw [if_neg (by omega)]
      split
      · rename_i heq
        exact ⟨hidle fun hr => by have := hr.behind; omega, fun _ _ => rfl⟩
      · rename_i hne
        split
        · rename_i hio
          refine ⟨hidle fun hr => ?_, fun _ _ => rfl⟩
          rw [hr.seek] at hio
          cases hio
        · rename_i hseek
          have hreads : PassReads env raw state :=
            ⟨hopened, by simpa using hstat, by omega, by simpa using hseek⟩
          split
          · rename_i hio
            exact ⟨.readFails hreads hio, fun _ _ => rfl⟩
          · rename_i hio
            refine ⟨?_, fun e he => by cases he⟩
            simp only [read_eq_passRead hle]
            have hr : RawPass env raw stream state _ (passBatch env raw stream state) :=
              .reads hreads (by simpa using hio)
            unfold passBatch at hr
            rw [splitBatch_eq] at hr ⊢
            exact hr

/-! ## What a pass does to the log -/

/-- The data of the records read back on a stream. -/
def recordedOn (dir : EventsDir) (stream : LogStream) : List Bytes :=
  ((recorded dir).filter fun e => e.stream = stream).map LogEntry.data

/-- A pass that drops nothing: the log grows by records of the stream, and these with the new
partial line are the old partial line with what was read. -/
def PassAdds (raw : Option Bytes) (stream : LogStream) (state state' : TailState)
    (dir dir' : EventsDir) : Prop :=
  ∃ (recs : List Record) (read : Bytes), recorded dir' = recorded dir ++ recs.map Record.entry ∧
    (∀ r ∈ recs, r.stream = stream) ∧
    state.leftover ++ read = (recs.map Record.data).flatten ++ state'.leftover ∧
    (raw.getD []).take state.pos ++ read = (raw.getD []).take state'.pos

/-- A pass that drops something: the log and the partial line together have grown by less than the
position has moved. -/
def PassDrops (state state' : TailState) (dir dir' : EventsDir) : Prop :=
  bytesIn (recorded dir') + state'.leftover.length + state.pos <
    bytesIn (recorded dir) + state.leftover.length + state'.pos

theorem bytesIn_entries (recs : List Record) :
    bytesIn (recs.map Record.entry) = (recs.map Record.data).flatten.length := by
  rw [bytesIn, List.flatMap_def, List.map_map]
  rfl

theorem drainIntoEvents_dir {env : PassEnv} {raw : Option Bytes} {stream : LogStream}
    {state : TailState} (h : ∀ e, (drainRaw env raw stream state).1 = .error e →
      (drainRaw env raw stream state).2.2 = [])
    (dir : EventsDir) :
    (drainIntoEvents env raw stream state dir).2.2 =
      if (drainRaw env raw stream state).2.2.isEmpty then dir
      else (appendBatch env.io env.ino dir (drainRaw env raw stream state).2.2).2 := by
  unfold drainIntoEvents
  generalize drainRaw env raw stream state = r at h
  obtain ⟨e | _, st, batch⟩ := r
  · obtain rfl : batch = [] := h e rfl
    rfl
  · dsimp only
    split <;> rfl

/-- The batch of a pass that reads is the records of its lines. -/
theorem passBatch_records (env : PassEnv) {raw : Option Bytes} (stream : LogStream)
    {state : TailState} (h : Sound raw state) :
    ∃ recs : List Record, passBatch env raw stream state = encodeAll recs ∧
      recs.map Record.data = (cut (state.leftover ++ passRead (raw.getD []) state.pos)).1 ∧
      (∀ r ∈ recs, r.stream = stream) ∧ ∀ r ∈ recs, r.data ≠ [] := by
  have hlen : (state.leftover ++ passRead (raw.getD []) state.pos).length ≤
      maxLeftoverBytes - 1 + maxReadChunk := by
    have h1 := h.ok.short
    have h2 := passRead_length_le (raw.getD []) state.pos
    rw [List.length_append]
    omega
  obtain ⟨recs, he, hd, hs⟩ := encodeData_records env.now stream
    (cut (state.leftover ++ passRead (raw.getD []) state.pos)).1
    fun d hd => Nat.le_trans (Nat.le_trans (cut_mem hd).2 hlen) (Nat.le_of_lt maxLine_lt)
  refine ⟨recs, ?_, hd, hs, fun r hr => ?_⟩
  · rw [passBatch, splitBatch_eq]
    exact he
  · have hm : r.data ∈ (cut (state.leftover ++ passRead (raw.getD []) state.pos)).1 := by
      rw [← hd]; exact List.mem_map_of_mem hr
    exact (cut_mem hm).1.piece.ne_nil

theorem Sound.reads {raw : Option Bytes} {state : TailState} (h : Sound raw state)
    (hsome : raw.isSome) :
    Sound raw { pos := state.pos + (passRead (raw.getD []) state.pos).length
                leftover := (cut (state.leftover ++ passRead (raw.getD []) state.pos)).2
                file := true } := by
  obtain ⟨hnl, hshort⟩ := cut_rest (state.leftover ++ passRead (raw.getD []) state.pos)
  refine ⟨⟨?_, hnl, hshort⟩, fun _ => hsome⟩
  have := h.ok.pos_le
  simp only [passRead, List.length_take, List.length_drop]
  omega

theorem PassReads.isSome {env : PassEnv} {raw : Option Bytes} {state : TailState}
    (h : PassReads env raw state) : raw.isSome := by
  cases raw with
  | none => exact absurd h.behind (Nat.not_lt_zero _)
  | some _ => rfl

theorem PassAdds.nothing {raw : Option Bytes} {stream : LogStream} {state state' : TailState}
    {dir : EventsDir} (hl : state'.leftover = state.leftover) (hp : state'.pos = state.pos) :
    PassAdds raw stream state state' dir dir :=
  ⟨[], [], by simp, by simp, by simp [hl], by simp [hp]⟩

/-- **A pass keeps everything or drops something**, and the condition says which. -/
theorem drainIntoEvents_faults (env : PassEnv) {raw : Option Bytes} (stream : LogStream)
    {state : TailState} (h : Sound raw state) {dir : EventsDir} (hw : dir.Whole) :
    Sound raw (drainIntoEvents env raw stream state dir).2.1 ∧
      (drainIntoEvents env raw stream state dir).2.2.Whole ∧
      ((PassKeeps env raw stream state dir ∧
          PassAdds raw stream state (drainIntoEvents env raw stream state dir).2.1 dir
            (drainIntoEvents env raw stream state dir).2.2) ∨
        (¬ PassKeeps env raw stream state dir ∧
          PassDrops state (drainIntoEvents env raw stream state dir).2.1 dir
            (drainIntoEvents env raw stream state dir).2.2)) := by
  obtain ⟨hpass, herr⟩ := drainRaw_pass env stream h
  rw [drainIntoEvents_state, drainIntoEvents_dir herr]
  generalize (drainRaw env raw stream state).2.1 = state',
    (drainRaw env raw stream state).2.2 = batch
    at hpass
  cases hpass with
  | idle file hn hf =>
    exact ⟨⟨⟨h.ok.pos_le, h.ok.no_nl, h.ok.short⟩, hf⟩, hw,
      .inl ⟨fun hr => absurd hr hn, .nothing rfl rfl⟩⟩
  | readFails hr hio =>
    refine ⟨⟨⟨h.ok.pos_le, by simp, Nat.two_pow_pos 20⟩, fun _ => hr.isSome⟩, hw, ?_⟩
    by_cases hl : state.leftover = []
    · refine .inl ⟨fun _ => ⟨fun _ => hl, fun hio' => ?_⟩, .nothing hl.symm rfl⟩
      rw [hio] at hio'
      cases hio'
    · refine .inr ⟨fun hk => hl ((hk hr).1 hio), ?_⟩
      have := List.length_pos_iff.mpr hl
      show bytesIn (recorded dir) + 0 + state.pos < bytesIn (recorded dir) + state.leftover.length +
          state.pos
      omega
  | reads hr hio =>
    obtain ⟨recs, hbatch, hdata, hstream, hne⟩ := passBatch_records env stream h
    have hcut := cut_flatten (state.leftover ++ passRead (raw.getD []) state.pos)
    rw [← hdata] at hcut
    have hnofail : ¬ env.io .readRaw = true := by rw [hio]; exact Bool.false_ne_true
    refine ⟨h.reads hr.isSome, ?_⟩
    rw [hbatch, encodeAll_isEmpty]
    cases hrecs : recs.isEmpty with
    | true =>
      obtain rfl := List.isEmpty_iff.mp hrecs
      refine ⟨hw, .inl ⟨fun _ => ⟨fun hc => absurd hc hnofail, fun _ hb => absurd hbatch hb⟩, ?_⟩⟩
      exact ⟨[], _, by simp, hstream, hcut.symm, take_passRead _ _⟩
    | false =>
      have hrecs' : recs ≠ [] := by rintro rfl; cases hrecs
      obtain ⟨hw', happ⟩ := appendBatch_faults env.io env.ino hw hrecs' hne
      refine ⟨hw', ?_⟩
      rcases happ with ⟨hk, he⟩ | ⟨hk, hlt⟩
      · refine .inl ⟨fun _ =>
          ⟨fun hc => absurd hc hnofail, fun _ _ => by rw [hbatch]; exact hk⟩, ?_⟩
        exact ⟨recs, _, he, hstream, hcut.symm, take_passRead _ _⟩
      · refine .inr ⟨fun hc => hk ?_, ?_⟩
        · have := (hc hr).2 hio
          rw [hbatch] at this
          refine this fun e => ?_
          have hemp := encodeAll_isEmpty recs
          rw [e, hrecs] at hemp
          cases hemp
        · have hlen := congrArg List.length hcut
          rw [List.length_append, List.length_append, ← bytesIn_entries] at hlen
          simp only [PassDrops]
          simp only [Bool.false_eq_true, if_false]
          omega

/-! ## Schedules -/

/-- Both streams are conserved: the records in the events files and the partial line are the raw
file up to the position. -/
def TailSys.Conserved (s : TailSys) (stream : LogStream) : Prop :=
  (recordedOn s.dir stream).flatten ++ (s.tailer.tail stream).leftover =
    ((s.raw stream).getD []).take (s.tailer.tail stream).pos

instance (s : TailSys) (stream : LogStream) : Decidable (s.Conserved stream) :=
  inferInstanceAs (Decidable (_ = _))

/-- The action drops nothing. -/
def TailSys.Keeps (s : TailSys) : TailAct → Prop
  | .write _ _ => True
  | .tick env _ => ∀ stream, s.tailer.pc.stream = some stream →
      PassKeeps env (s.raw stream) stream (s.tailer.tail stream) s.dir

/-- What a schedule keeps whatever fails. -/
structure TailSys.Sane (s : TailSys) : Prop where
  streams : ∀ stream, Sound (s.raw stream) (s.tailer.tail stream)
  dir : s.dir.Whole

/-- Bytes in the events files and the partial lines. -/
def TailSys.held (s : TailSys) : Nat :=
  bytesIn (recorded s.dir) + (s.tailer.tail .stdout).leftover.length +
    (s.tailer.tail .stderr).leftover.length

/-- Bytes the tailer has moved past. -/
def TailSys.passed (s : TailSys) : Nat := (s.tailer.tail .stdout).pos + (s.tailer.tail .stderr).pos

theorem bytesIn_streams (es : List LogEntry) :
    bytesIn es = (((es.filter fun e => e.stream = .stdout).map LogEntry.data).flatten).length +
      (((es.filter fun e => e.stream = .stderr).map LogEntry.data).flatten).length := by
  induction es with
  | nil => rfl
  | cons e es ih =>
    have hcons : bytesIn (e :: es) = e.data.length + bytesIn es := by simp [bytesIn]
    rw [hcons, ih]
    cases hs : e.stream <;> simp [hs] <;> omega

theorem TailSys.Sane.held_eq {s : TailSys} (h : s.Sane) (hc : ∀ stream, s.Conserved stream) :
    s.held = s.passed := by
  have hlen : ∀ stream, (recordedOn s.dir stream).flatten.length +
      (s.tailer.tail stream).leftover.length = (s.tailer.tail stream).pos := by
    intro stream
    have hle := (h.streams stream).ok.pos_le
    have he := congrArg List.length (hc stream)
    rw [List.length_append, List.length_take] at he
    omega
  have h1 := hlen .stdout
  have h2 := hlen .stderr
  have hb := bytesIn_streams (recorded s.dir)
  unfold recordedOn at h1 h2
  unfold TailSys.held TailSys.passed
  omega

theorem Sound.write {raw : Option Bytes} {state : TailState} (h : Sound raw state) (more : Bytes) :
    Sound (some (raw.getD [] ++ more)) state where
  ok := ⟨by have := h.ok.pos_le; simp; omega, h.ok.no_nl, h.ok.short⟩
  file _ := rfl

theorem Conserved.write {data : Bytes} {raw : Option Bytes} {state : TailState}
    (h : Sound raw state)
    (hc : data ++ state.leftover = (raw.getD []).take state.pos) (more : Bytes) :
    data ++ state.leftover = ((some (raw.getD [] ++ more)).getD []).take state.pos := by
  rw [Option.getD_some, List.take_append_of_le_length h.ok.pos_le, hc]

/-- What the task writes meanwhile only extends the raw files. -/
theorem growRaw_extends (raw : LogStream → Option Bytes) (pc : TailerPc) (grown : Bytes)
    (stream : LogStream) :
    growRaw raw pc grown stream = raw stream ∨
      ∃ more, growRaw raw pc grown stream = some ((raw stream).getD [] ++ more) := by
  unfold growRaw
  cases pc.stream with
  | none => exact .inl rfl
  | some other =>
    by_cases he : stream = other
    · subst he
      cases hraw : raw stream with
      | none => exact .inl (by simp [hraw])
      | some bytes => exact .inr ⟨grown, by simp [hraw]⟩
    · exact .inl (Function.update_of_ne he ..)

theorem Sound.extend {raw raw' : Option Bytes} {state : TailState} (h : Sound raw state)
    (he : raw' = raw ∨ ∃ more, raw' = some (raw.getD [] ++ more)) : Sound raw' state := by
  rcases he with rfl | ⟨more, rfl⟩
  · exact h
  · exact h.write more

theorem Conserved.extend {data : Bytes} {raw raw' : Option Bytes} {state : TailState}
    (h : Sound raw state) (he : raw' = raw ∨ ∃ more, raw' = some (raw.getD [] ++ more))
    (hc : data ++ state.leftover = (raw.getD []).take state.pos) :
    data ++ state.leftover = (raw'.getD []).take state.pos := by
  rcases he with rfl | ⟨more, rfl⟩
  · exact hc
  · exact Conserved.write h hc more

theorem recordedOn_append {dir dir' : EventsDir} {recs : List Record}
    (h : recorded dir' = recorded dir ++ recs.map Record.entry) (stream : LogStream) :
    recordedOn dir' stream = recordedOn dir stream ++ dataOn stream recs := by
  rw [recordedOn, h, List.filter_append, List.map_append, data_entries]
  rfl

/-- What one pass of the tailer changes. -/
theorem tick_pass {s : TailSys} {stream : LogStream} (hpc : s.tailer.pc.stream = some stream)
    (env : PassEnv) (stop : Bool) :
    (s.step (.tick env stop)).tailer.tail = Function.update s.tailer.tail stream
        (drainIntoEvents env (s.raw stream) stream (s.tailer.tail stream) s.dir).2.1 ∧
      (s.step (.tick env stop)).dir =
        (drainIntoEvents env (s.raw stream) stream (s.tailer.tail stream) s.dir).2.2 := by
  constructor <;> simp only [TailSys.step, TailerLoop.tick, hpc]

theorem tick_no_pass {s : TailSys} (hpc : s.tailer.pc.stream = none) (env : PassEnv) (stop : Bool) :
    (s.step (.tick env stop)).tailer.tail = s.tailer.tail ∧
      (s.step (.tick env stop)).dir = s.dir := by
  constructor <;> simp only [TailSys.step, TailerLoop.tick, hpc]

/-- An action keeps both streams, or it leaves less held than passed. -/
structure Accounts (s : TailSys) (a : TailAct) : Prop where
  sane : (s.step a).Sane
  kept : (s.Keeps a ∧ ((∀ stream, s.Conserved stream) → ∀ stream, (s.step a).Conserved stream) ∧
      (s.step a).held + s.passed = s.held + (s.step a).passed) ∨
    (¬ s.Keeps a ∧ (s.step a).held + s.passed < s.held + (s.step a).passed)

/-- An action that touches only the raw files. -/
theorem Accounts.of_same {s : TailSys} {a : TailAct} (h : s.Sane)
    (hraw : ∀ stream, (s.step a).raw stream = s.raw stream ∨
      ∃ more, (s.step a).raw stream = some ((s.raw stream).getD [] ++ more))
    (htail : (s.step a).tailer.tail = s.tailer.tail) (hdir : (s.step a).dir = s.dir)
    (hkeeps : s.Keeps a) : Accounts s a := by
  refine ⟨⟨fun stream => ?_, hdir ▸ h.dir⟩, .inl ⟨hkeeps, fun hc stream => ?_, ?_⟩⟩
  · rw [htail]
    exact (h.streams stream).extend (hraw stream)
  · unfold TailSys.Conserved
    rw [htail, hdir]
    exact Conserved.extend (h.streams stream) (hraw stream) (hc stream)
  · simp only [TailSys.held, TailSys.passed, htail, hdir]

theorem accounts_write {s : TailSys} (h : s.Sane) (stream : LogStream) (data : Bytes) :
    Accounts s (.write stream data) := by
  refine .of_same h (fun other => ?_) rfl rfl trivial
  by_cases he : other = stream
  · subst he; exact .inr ⟨data, Function.update_self ..⟩
  · exact .inl (Function.update_of_ne he ..)

/-- A sum over the streams, with one of them set apart. -/
theorem sum_streams (stream : LogStream) :
    ∃ other, other ≠ stream ∧ ∀ f :
      LogStream → Nat, f .stdout + f .stderr = f stream + f other := by
  cases stream with
  | stdout => exact ⟨.stderr, by decide, fun _ => rfl⟩
  | stderr => exact ⟨.stdout, by decide, fun _ => Nat.add_comm _ _⟩

theorem accounts_tick {s : TailSys} (h : s.Sane) (env : PassEnv) (stop : Bool) :
    Accounts s (.tick env stop) := by
  have hraw := growRaw_extends s.raw s.tailer.pc env.grown
  cases hpc : s.tailer.pc.stream with
  | none =>
    obtain ⟨htail, hdir⟩ := tick_no_pass hpc env stop
    refine .of_same h hraw htail hdir fun stream hs => ?_
    rw [hpc] at hs
    cases hs
  | some stream =>
    obtain ⟨htail, hdir⟩ := tick_pass hpc env stop
    obtain ⟨hsound, hwhole, hpass⟩ := drainIntoEvents_faults env stream (h.streams stream) h.dir
    generalize (drainIntoEvents env (s.raw stream) stream (s.tailer.tail stream) s.dir).2.1 =
      state',
      (drainIntoEvents env (s.raw stream) stream (s.tailer.tail stream) s.dir).2.2 = dir'
      at htail hdir hsound hwhole hpass
    have hself : (s.step (.tick env stop)).tailer.tail stream = state' := by
      rw [htail, Function.update_self]
    have hother : ∀ other, other ≠ stream →
        (s.step (.tick env stop)).tailer.tail other = s.tailer.tail other := by
      intro other ho
      rw [htail, Function.update_of_ne ho]
    have hstreams : ∀ st, Sound (s.raw st) ((s.step (.tick env stop)).tailer.tail st) := by
      intro st
      by_cases he : st = stream
      · subst he; rw [hself]; exact hsound
      · rw [hother st he]; exact h.streams st
    have hkeeps : s.Keeps (.tick env stop) ↔
        PassKeeps env (s.raw stream) stream (s.tailer.tail stream) s.dir := by
      refine ⟨fun hk => hk stream hpc, fun hk st hst => ?_⟩
      rw [hpc] at hst
      cases hst
      exact hk
    obtain ⟨other, hne, hsum⟩ := sum_streams stream
    have hl := hsum fun st => (s.tailer.tail st).leftover.length
    have hl' := hsum fun st => ((s.step (.tick env stop)).tailer.tail st).leftover.length
    have hp := hsum fun st => (s.tailer.tail st).pos
    have hp' := hsum fun st => ((s.step (.tick env stop)).tailer.tail st).pos
    simp only [hself, hother other hne] at hl' hp'
    refine ⟨⟨fun st => (hstreams st).extend (hraw st), hdir ▸ hwhole⟩, ?_⟩
    rw [hkeeps]
    simp only [TailSys.held, TailSys.passed, hdir]
    rcases hpass with ⟨hk, recs, read, hrec, hstream, hleft, hread⟩ | ⟨hk, hdrop⟩
    · have hc : ((∀ stream, s.Conserved stream) →
          ∀ stream, (s.step (.tick env stop)).Conserved stream) := by
        intro hc st
        refine Conserved.extend (hstreams st) (hraw st) ?_
        rw [hdir, recordedOn_append hrec, List.flatten_append]
        by_cases he : st = stream
        · subst he
          rw [hself, dataOn_self hstream, List.append_assoc, ← hleft, ← List.append_assoc,
            hc st, hread]
        · rw [hother st he, dataOn_other hstream he, List.flatten_nil, List.append_nil, hc st]
      refine .inl ⟨hk, hc, ?_⟩
      have hlen := congrArg List.length hleft
      have hlen' := congrArg List.length hread
      have hle := (h.streams stream).ok.pos_le
      have hle' := hsound.ok.pos_le
      simp only [List.length_append, List.length_take] at hlen hlen'
      rw [hrec, bytesIn_append, bytesIn_entries]
      omega
    · refine .inr ⟨hk, ?_⟩
      unfold PassDrops at hdrop
      omega

theorem accounts {s : TailSys} (h : s.Sane) (a : TailAct) : Accounts s a := by
  cases a with
  | write stream data => exact accounts_write h stream data
  | tick env stop => exact accounts_tick h env stop

/-- Every action of a schedule drops nothing in the state it is taken in. -/
def KeepsAlong (s : TailSys) (acts : List TailAct) : Prop :=
  Along (fun s a => some (TailSys.step s a)) TailSys.Keeps s acts

theorem keepsAlong_cons {s : TailSys} {a : TailAct} {acts : List TailAct} :
    KeepsAlong s (a :: acts) ↔ s.Keeps a ∧ KeepsAlong (s.step a) acts := by
  simp [KeepsAlong, Along]

/-- What was dropped once stays missing: the gap between what is held and what is passed never
closes, and it opens with the first action that drops something. -/
theorem run_accounts {s : TailSys} (h : s.Sane) (acts : List TailAct) :
    (acts.foldl TailSys.step s).Sane ∧
      ((KeepsAlong s acts ∧
          ((∀ stream, s.Conserved stream) →
            ∀ stream, (acts.foldl TailSys.step s).Conserved stream) ∧
          (acts.foldl TailSys.step s).held + s.passed =
            s.held + (acts.foldl TailSys.step s).passed) ∨
        (¬ KeepsAlong s acts ∧
          (acts.foldl TailSys.step s).held + s.passed <
            s.held + (acts.foldl TailSys.step s).passed)) := by
  induction acts generalizing s with
  | nil => exact ⟨h, .inl ⟨trivial, fun hc => hc, rfl⟩⟩
  | cons a acts ih =>
    obtain ⟨hsane, hstep⟩ := accounts h a
    obtain ⟨hend, hrest⟩ := ih hsane
    refine ⟨hend, ?_⟩
    rw [keepsAlong_cons, List.foldl_cons]
    rcases hstep with ⟨hk, hc, he⟩ | ⟨hk, hlt⟩
    · rcases hrest with ⟨hk', hc', he'⟩ | ⟨hk', hlt'⟩
      · exact .inl ⟨⟨hk, hk'⟩, fun h0 => hc' (hc h0), by omega⟩
      · exact .inr ⟨fun hn => hk' hn.2, by omega⟩
    · refine .inr ⟨fun hn => hk hn.1, ?_⟩
      rcases hrest with ⟨-, -, he'⟩ | ⟨-, hlt'⟩
      · omega
      · omega

theorem sane_init : TailSys.Sane {} where
  streams _ := ⟨⟨Nat.zero_le _, by simp, Nat.two_pow_pos 20⟩, fun h => by cases h⟩
  dir n f hf := by cases hf

theorem conserved_init (stream : LogStream) : TailSys.Conserved {} stream := by
  cases stream <;> rfl

/-- **When failing file operations lose nothing**: from any state in which both streams are
conserved, after any schedule of writes and passes with any failures, the records in the events
files and the partial line of each stream are its raw file up to the position if and only if every
pass of the schedule drops nothing. -/
theorem drains_conserve_iff (s : TailSys) (h : s.Sane) (hs : ∀ stream, s.Conserved stream)
    (acts : List TailAct) :
    (∀ stream, (acts.foldl TailSys.step s).Conserved stream) ↔ KeepsAlong s acts := by
  obtain ⟨hsane, hrun⟩ := run_accounts h acts
  constructor
  · intro hc
    have heq := hsane.held_eq hc
    rcases hrun with ⟨hk, -⟩ | ⟨-, hlt⟩
    · exact hk
    · have h0 := h.held_eq hs
      omega
  · intro hk
    rcases hrun with ⟨-, hc, -⟩ | ⟨hn, -⟩
    · exact hc hs
    · exact absurd hk hn

/-- One failing operation. -/
def failing (step : IoStep) : IoFaults := fun other => decide (other = step)

/-- A task writes half a line, a pass buffers it, and the next pass over stdout meets a failure
before the line is complete. -/
def failingPass (step : IoStep) : List TailAct :=
  [.write .stdout [104, 105], .tick {} false, .tick {} false, .tick {} false,
    .write .stdout [33, 10], .tick { io := failing step } false, .tick {} false, .tick {} false,
    .write .stdout [111, 107, 10], .tick {} false, .tick {} false]

/-- The handle cannot be opened again, and a rotation could move no file. -/
def failingMoves : IoFaults := fun step =>
  match step with
  | .openRaw | .removeOldest | .renameEvents _ => true
  | _ => false

/-- A pass over a new line opens the file and fails to read it. The next one reads the line, while
nothing else works than what it needs, and the last one fails with a partial line at its stat. -/
def failingAround : List TailAct :=
  [.write .stdout [104, 105, 10, 33], .tick { io := failing .readRaw } false, .tick {} false,
    .tick {} false, .tick { io := failingMoves } false, .tick {} false, .tick {} false,
    .write .stdout [10], .tick { io := failing .statRaw } false]

/-- The line is recorded, and the partial line is kept. -/
theorem failed_passes_conserve : TailSys.Sane {} ∧ (∀ stream, TailSys.Conserved {} stream) ∧
    (∀ stream, (failingAround.foldl TailSys.step {}).Conserved stream) ∧
    (∃ es, containerLogs (fun _ => false) (failingAround.foldl TailSys.step {}).dir = .ok es ∧
      es.map LogEntry.data = [[104, 105, 10]]) ∧
    ((failingAround.foldl TailSys.step {}).tailer.tail .stdout).leftover = [33] := by
  have hread : TailSys.Keeps (TailSys.step {} (.write .stdout [104, 105, 10, 33]))
      (.tick { io := failing .readRaw } false) := by
    intro stream hpc
    cases hpc
    exact fun _ => ⟨fun _ => rfl, fun h => absurd h (by decide)⟩
  have hmoves : TailSys.Keeps ((failingAround.take 4).foldl TailSys.step {})
      (.tick { io := failingMoves } false) := by
    intro stream hpc
    cases hpc
    refine fun _ => ⟨fun h => absurd h (by decide), fun _ _ => ⟨rfl, rfl, rfl, fun _ => rfl, ?_⟩⟩
    exact fun h => absurd h (by decide +kernel)
  refine ⟨sane_init, conserved_init, (drains_conserve_iff {} sane_init conserved_init _).mpr ?_,
    ⟨_, containerLogs_recorded _, by decide +kernel⟩, by decide +kernel⟩
  refine keepsAlong_cons.mpr ⟨trivial, keepsAlong_cons.mpr ⟨hread, ?_⟩⟩
  refine keepsAlong_cons.mpr ⟨fun stream hpc hr => ?_, ?_⟩
  · cases hpc
    exact absurd hr.behind (by decide)
  refine keepsAlong_cons.mpr ⟨fun stream hpc => (nomatch hpc), ?_⟩
  refine keepsAlong_cons.mpr ⟨hmoves, ?_⟩
  refine keepsAlong_cons.mpr ⟨fun stream hpc hr => ?_, ?_⟩
  · cases hpc
    exact absurd hr.behind (by decide)
  refine keepsAlong_cons.mpr ⟨fun stream hpc => (nomatch hpc), ?_⟩
  refine keepsAlong_cons.mpr ⟨trivial, keepsAlong_cons.mpr ⟨fun stream _ hr => ?_, trivial⟩⟩
  exact absurd hr.stat (by decide)

/-- **A failing read drops the partial line, and a failing open or write of events.log drops the
lines of its pass**: the passes that follow do not bring them back. -/
theorem failed_drain_loses :
    ¬ ((failingPass .readRaw).foldl TailSys.step {}).Conserved .stdout ∧
    ¬ ((failingPass .openEvents).foldl TailSys.step {}).Conserved .stdout ∧
    ¬ ((failingPass .writeEvents).foldl TailSys.step {}).Conserved .stdout := by
  decide +kernel

end ContainerdManager.Tailer
