import ContainerdManager.Tailer.Drain

/-!
# The tailer loop

`tailer_loop` of `src/log_tailer.rs` as a machine: a pass over stdout, a pass
over stderr, a wait for the next interval or for the stop signal, and after
the signal one more pass over each stream. The task's writes may fall
anywhere between. What a pass of either kind preserves is `StreamInv`: the
records of a stream and its partial line are the file up to the position.
-/

namespace ContainerdManager.Tailer

open Lib Logs

/-- Consecutive drain errors of a stream before the tailer gives up. -/
def maxConsecutiveErrors : Nat := 50

inductive TailerPc where
  | drainOut
  | drainErr
  /-- Waiting for the interval or the stop signal. -/
  | select
  | finalOut
  | finalErr
  | done
  deriving DecidableEq, Repr

/-- The stream of the pass that comes next. -/
def TailerPc.stream : TailerPc → Option LogStream
  | .drainOut | .finalOut => some .stdout
  | .drainErr | .finalErr => some .stderr
  | .select | .done => none

structure TailerLoop where
  pc : TailerPc := .drainOut
  tail : LogStream → TailState := fun _ => {}
  errors : LogStream → Nat := fun _ => 0

def TailerLoop.next (t : TailerLoop) (stop : Bool) : TailerPc :=
  match t.pc with
  | .drainOut => .drainErr
  | .drainErr =>
    if t.errors .stdout ≥ maxConsecutiveErrors ∨ t.errors .stderr ≥ maxConsecutiveErrors then .done
    else .select
  | .select => if stop then .finalOut else .drainOut
  | .finalOut => .finalErr
  | .finalErr => .done
  | .done => .done

/-- The error counter after a pass; the final passes do not count. -/
def TailerLoop.count (t : TailerLoop) (stream : LogStream) (result : Except Error Unit) :
    LogStream → Nat :=
  match t.pc, result with
  | .finalOut, _ | .finalErr, _ => t.errors
  | _, .ok () => Function.update t.errors stream 0
  | _, .error _ => Function.update t.errors stream (t.errors stream + 1)

/-- One step of the loop. -/
def TailerLoop.tick (env : PassEnv) (stop : Bool) (raw : LogStream → Option Bytes)
    (t : TailerLoop) (dir : EventsDir) : TailerLoop × EventsDir :=
  match t.pc.stream with
  | none => ({ t with pc := t.next stop }, dir)
  | some stream =>
    match drainIntoEvents env (raw stream) stream (t.tail stream) dir with
    | (result, state, dir) =>
      let t := { t with
        tail := Function.update t.tail stream state
        errors := t.count stream result }
      ({ t with pc := t.next stop }, dir)

/-- The batch a step hands to `append_batch`, empty when it makes no call. -/
def TailerLoop.batch (env : PassEnv) (raw : LogStream → Option Bytes) (t : TailerLoop) : Bytes :=
  match t.pc.stream with
  | none => []
  | some stream => (drainRaw env (raw stream) stream (t.tail stream)).2.2

/-! ## A stream and its records -/

/-- The records of a stream have the data `data`: together with the partial line they are the raw
file up to the position. -/
structure StreamInv (data : List Bytes) (raw : Option Bytes) (state : TailState) : Prop where
  ok : state.Ok (raw.getD [])
  file : state.file = true → raw.isSome
  conserved : data.flatten ++ state.leftover = (raw.getD []).take state.pos
  shape : ∀ d ∈ data, LineData d ∧ d.length ≤ maxLeftoverBytes - 1 + maxReadChunk

theorem StreamInv.init (raw : Option Bytes) : StreamInv [] raw {} where
  ok := ⟨Nat.zero_le _, by simp, Nat.two_pow_pos 20⟩
  file h := by cases h
  conserved := rfl
  shape := by simp

/-- The task appends to the raw file, which it may create. -/
theorem StreamInv.write {data : List Bytes} {raw : Option Bytes} {state : TailState}
    (h : StreamInv data raw state) (more : Bytes) :
    StreamInv data (some (raw.getD [] ++ more)) state where
  ok := ⟨by have := h.ok.pos_le; simp; omega, h.ok.no_nl, h.ok.short⟩
  file _ := rfl
  conserved := by
    rw [Option.getD_some, List.take_append_of_le_length h.ok.pos_le]
    exact h.conserved
  shape := h.shape

theorem passRead_length_le (raw : Bytes) (pos : Nat) : (passRead raw pos).length ≤ maxReadChunk :=
  List.length_take_le _ _

theorem take_passRead (raw : Bytes) (pos : Nat) :
    raw.take pos ++ passRead raw pos = raw.take (pos + (passRead raw pos).length) := by
  rw [List.take_add]
  congr 1
  rw [passRead, List.length_take, ← List.take_take, List.take_length]

theorem maxLine_lt : maxLeftoverBytes - 1 + maxReadChunk < maxRecordBytes := by decide

/-- **A pass without I/O errors** batches whole records of its stream and keeps the invariant. -/
theorem StreamInv.pass {data : List Bytes} {raw : Option Bytes} {state : TailState}
    (h : StreamInv data raw state) {env : PassEnv} (hio : env.io = noFaults) (stream : LogStream) :
    ∃ (state' : TailState) (recs : List Record),
      drainRaw env raw stream state = (.ok (), state', encodeAll recs) ∧
      (∀ r ∈ recs, r.stream = stream) ∧ StreamInv (data ++ recs.map Record.data) raw state' := by
  rcases raw with _ | raw
  · have hfile : state.file = false := by
      cases hf : state.file with
      | false => rfl
      | true => exact absurd (h.file hf) (by simp)
    exact ⟨state, [], by rw [drainRaw_missing hio hfile]; rfl, by simp, by simpa using h⟩
  · have hok : state.Ok raw := h.ok
    let combined := state.leftover ++ passRead raw state.pos
    have hlen : combined.length ≤ maxLeftoverBytes - 1 + maxReadChunk := by
      have h1 := h.ok.short
      have h2 := passRead_length_le raw state.pos
      show (state.leftover ++ passRead raw state.pos).length ≤ _
      rw [List.length_append]
      omega
    have hshape : ∀ d ∈ (cut combined).1,
        LineData d ∧ d.length ≤ maxLeftoverBytes - 1 + maxReadChunk :=
      fun d hd => ⟨(cut_mem hd).1, Nat.le_trans (cut_mem hd).2 hlen⟩
    obtain ⟨recs, he, hd, hs⟩ := encodeData_records env.now stream (cut combined).1
      fun d hd => Nat.le_trans (hshape d hd).2 (Nat.le_of_lt maxLine_lt)
    refine ⟨_, recs, by rw [drainRaw_ok hio hok, ← he], hs, ?_⟩
    obtain ⟨hnl, hshort⟩ := cut_rest combined
    refine ⟨⟨?_, hnl, hshort⟩, fun _ => rfl, ?_, ?_⟩
    · have := hok.pos_le
      simp [passRead]
      omega
    · rw [hd, List.flatten_append, List.append_assoc, cut_flatten, ← List.append_assoc, h.conserved]
      exact take_passRead raw state.pos
    · intro d hd'
      rw [hd] at hd'
      rcases List.mem_append.mp hd' with hd' | hd'
      · exact h.shape d hd'
      · exact hshape d hd'

/-- Splitting a buffer that a pass can hold makes a batch of whole records. -/
theorem splitBatch_records (now : Int) (stream : LogStream) {combined : Bytes}
    (h : combined.length ≤ maxLeftoverBytes - 1 + maxReadChunk) :
    ∃ recs : List Record, (splitBatch now stream combined).1 = encodeAll recs ∧
      (splitBatch now stream combined).2.length < maxLeftoverBytes := by
  obtain ⟨recs, he, -⟩ := encodeData_records now stream (cut combined).1
    fun d hd => Nat.le_trans (Nat.le_trans (cut_mem hd).2 h) (Nat.le_of_lt maxLine_lt)
  rw [splitBatch_eq]
  exact ⟨recs, he, (cut_rest combined).2⟩

/-- **A pass without I/O errors over any file** batches whole records, if its partial line is a
short one; that the file was truncated since the last pass does not matter. -/
theorem drainRaw_records {env : PassEnv} (hio : env.io = noFaults) (raw : Option Bytes)
    (stream : LogStream) {state : TailState} (h : state.leftover.length < maxLeftoverBytes) :
    ∃ (state' : TailState) (recs : List Record),
      drainRaw env raw stream state = (.ok (), state', encodeAll recs) ∧
      state'.leftover.length < maxLeftoverBytes := by
  have hmax : 0 < maxLeftoverBytes := by decide
  have hopen : (ensureFileOpen env.io state raw = .ok (false, state)) ∨
      ensureFileOpen env.io state raw = .ok (true, { state with file := true }) := by
    obtain ⟨pos, leftover, file⟩ := state
    cases file <;> cases raw <;> simp [ensureFileOpen, hio, noFaults]
  unfold drainRaw
  rcases hopen with ho | ho
  · rw [ho]
    exact ⟨state, [], rfl, h⟩
  · rw [ho]
    simp only [hio, noFaults, Bool.false_eq_true, if_false]
    split
    · exact ⟨_, [], rfl, hmax⟩
    · split
      · exact ⟨_, [], rfl, h⟩
      · have hread : (state.leftover ++ ((raw.getD [] ++ env.grown).drop state.pos).take
            (min ((raw.getD []).length - state.pos) maxReadChunk)).length ≤
              maxLeftoverBytes - 1 + maxReadChunk := by
          rw [List.length_append, List.length_take]
          omega
        obtain ⟨recs, he, hl⟩ := splitBatch_records env.now stream hread
        exact ⟨_, recs, by rw [← he], hl⟩

theorem encodeAll_isEmpty (recs : List Record) : (encodeAll recs).isEmpty = recs.isEmpty := by
  cases recs with
  | nil => rfl
  | cons r recs => simp [encodeAll, recordFrames, Record.encode, encodeRecordInto]

/-- What a pass without I/O errors does to the events files. -/
theorem drainIntoEvents_eq {env : PassEnv} (hio : env.io = noFaults) {raw : Option Bytes}
    {stream : LogStream} {state state' : TailState} {recs : List Record}
    (h : drainRaw env raw stream state = (.ok (), state', encodeAll recs)) (dir : EventsDir) :
    drainIntoEvents env raw stream state dir =
      (.ok (), state',
        if recs.isEmpty then dir else (appendBatch noFaults env.ino dir (encodeAll recs)).2) := by
  unfold drainIntoEvents
  rw [h]
  simp only [encodeAll_isEmpty, hio, appendBatch_noFaults]
  split <;> rfl

/-! ## Lines and records -/

/-- Every line of the raw file is recorded once, in order and unmodified, and nothing else but the
start of its last, partial line: a line of at most `maxLeftoverBytes` in a record of its own, a
longer one possibly in consecutive pieces. -/
def LinesRecorded (data : List Bytes) (raw : Bytes) : Prop :=
  ∃ (groups : List (List Bytes)) (rest : List Bytes), data = groups.flatten ++ rest ∧
    groups.map List.flatten = (lines nl raw).1 ∧ rest.flatten <+: (lines nl raw).2 ∧
    ∀ g ∈ groups, g.flatten.length ≤ maxLeftoverBytes → g.length = 1

/-- A group of pieces that makes up a short line is a single record. -/
theorem group_single {g : List Bytes} (hshape : ∀ d ∈ g, LineData d)
    (hparts : ∀ d ∈ g.dropLast, nl ∉ d) (hne : g ≠ [])
    (hshort : g.flatten.length ≤ maxLeftoverBytes) :
    g.length = 1 := by
  rcases g with _ | ⟨d, _ | ⟨d', g⟩⟩
  · exact absurd rfl hne
  · rfl
  · -- the first piece of several was flushed, and the second is not empty
    have h1 : maxLeftoverBytes ≤ d.length := (hshape d (by simp)).flushed (hparts d (by simp))
    have h2 : 0 < d'.length := List.length_pos_iff.mpr (hshape d' (by simp)).piece.ne_nil
    simp only [List.flatten_cons, List.length_append] at hshort
    omega

/-- **No line is missing** when nothing but a part of a line is kept back or unread. -/
theorem linesRecorded_of {data : List Bytes} {kept raw : Bytes} (hshape : ∀ d ∈ data, LineData d)
    (hall : data.flatten ++ kept = raw) (hkept : nl ∉ kept) : LinesRecorded data raw := by
  have hno : nl ∉ (lines nl data.flatten).2 ++ kept := by simp [lines_rest, hkept]
  have hlines : lines nl raw = ((lines nl data.flatten).1, (lines nl data.flatten).2 ++ kept) := by
    rw [← hall, lines_append, lines_of_not_mem hno, List.append_nil]
  obtain ⟨groups, rest, hdata, hgroups, hrest, hparts⟩ :=
    pieces_group fun d hd => (hshape d hd).piece
  refine ⟨groups, rest, hdata, by rw [hlines, hgroups], ?_, fun g hg hshort => ?_⟩
  · rw [hlines, hrest]
    exact List.prefix_append _ _
  · have hmem : ∀ d ∈ g, d ∈ data := fun d hd => by
      rw [hdata]
      exact List.mem_append_left _ (List.mem_flatten_of_mem hg hd)
    refine group_single (fun d hd => hshape d (hmem d hd)) (hparts g hg) ?_ hshort
    rintro rfl
    have hline : [] ∈ (lines nl data.flatten).1 := by
      rw [← hgroups]
      exact List.mem_map_of_mem hg
    obtain ⟨m, -, he⟩ := lines_mem hline
    simp at he

/-- The records are the lines of the whole file once no complete line is unread. -/
theorem StreamInv.linesRecorded {data : List Bytes} {raw : Option Bytes} {state : TailState}
    (h : StreamInv data raw state) (hrest : nl ∉ (raw.getD []).drop state.pos) :
    LinesRecorded data (raw.getD []) := by
  have hall : data.flatten ++ (state.leftover ++ (raw.getD []).drop state.pos) = raw.getD [] := by
    rw [← List.append_assoc, h.conserved, List.take_append_drop]
  exact linesRecorded_of (fun d hd => (h.shape d hd).1) hall (by simp [h.ok.no_nl, hrest])

/-- The data of the records of a stream. -/
def dataOn (stream : LogStream) (recs : List Record) : List Bytes :=
  (recs.filter fun r => r.stream = stream).map Record.data

/-- The entries the records of a stream are read back to. -/
theorem data_entries (stream : LogStream) (recs : List Record) :
    ((recs.map Record.entry).filter fun e => e.stream = stream).map LogEntry.data =
      dataOn stream recs := by
  rw [List.filter_map, List.map_map, dataOn]
  rfl

@[simp] theorem dataOn_nil (stream : LogStream) : dataOn stream [] = [] := rfl

theorem dataOn_append (stream : LogStream) (recs more : List Record) :
    dataOn stream (recs ++ more) = dataOn stream recs ++ dataOn stream more := by
  simp [dataOn]

theorem dataOn_self {stream : LogStream} {recs : List Record} (h : ∀ r ∈ recs, r.stream = stream) :
    dataOn stream recs = recs.map Record.data := by
  rw [dataOn, List.filter_eq_self.mpr]
  simpa using h

theorem dataOn_other {stream other : LogStream} {recs : List Record}
    (h : ∀ r ∈ recs, r.stream = stream) (hne : other ≠ stream) : dataOn other recs = [] := by
  rw [dataOn, List.filter_eq_nil_iff.mpr, List.map_nil]
  intro r hr
  simp [h r hr, hne.symm]

/-- **A step of the loop without I/O errors** appends one batch of whole records, if any, and keeps
the invariant of both streams. -/
theorem tick_spec {t : TailerLoop} {raw : LogStream → Option Bytes} {data : LogStream → List Bytes}
    (h : ∀ stream, StreamInv (data stream) (raw stream) (t.tail stream)) (env : PassEnv)
    (hio : env.io = noFaults) (stop : Bool) (dir : EventsDir) :
    ∃ recs : List Record, t.batch env raw = encodeAll recs ∧
      (t.tick env stop raw dir).2 =
        (if recs.isEmpty then dir else (appendBatch noFaults env.ino dir (encodeAll recs)).2) ∧
      ∀ stream, StreamInv (data stream ++ dataOn stream recs) (raw stream)
        ((t.tick env stop raw dir).1.tail stream) := by
  unfold TailerLoop.batch TailerLoop.tick
  cases hpc : t.pc.stream with
  | none =>
    refine ⟨[], rfl, rfl, fun stream => ?_⟩
    rw [dataOn_nil, List.append_nil]
    exact h stream
  | some stream =>
    obtain ⟨state', recs, hd, hs, hinv⟩ := (h stream).pass hio stream
    refine ⟨recs, by simp only [hd], ?_, fun other => ?_⟩
    · simp only [drainIntoEvents_eq hio hd]
    · simp only [drainIntoEvents_eq hio hd]
      by_cases he : other = stream
      · subst he
        rw [Function.update_self, dataOn_self hs]
        exact hinv
      · rw [Function.update_of_ne he, dataOn_other hs he, List.append_nil]
        exact h other

/-- A step of the loop over any files appends one batch of whole records, if any. -/
theorem tick_records {t : TailerLoop}
    (h : ∀ stream, (t.tail stream).leftover.length < maxLeftoverBytes) (env : PassEnv)
    (hio : env.io = noFaults) (stop : Bool) (raw : LogStream → Option Bytes) (dir : EventsDir) :
    ∃ recs : List Record, t.batch env raw = encodeAll recs ∧
      (t.tick env stop raw dir).2 =
        (if recs.isEmpty then dir else (appendBatch noFaults env.ino dir (encodeAll recs)).2) ∧
      ∀ stream, ((t.tick env stop raw dir).1.tail stream).leftover.length < maxLeftoverBytes := by
  unfold TailerLoop.batch TailerLoop.tick
  cases hpc : t.pc.stream with
  | none => exact ⟨[], rfl, rfl, h⟩
  | some stream =>
    obtain ⟨state', recs, hd, hshort⟩ := drainRaw_records hio (raw stream) stream (h stream)
    refine ⟨recs, by simp only [hd], ?_, fun other => ?_⟩
    · simp only [drainIntoEvents_eq hio hd]
    · simp only [drainIntoEvents_eq hio hd]
      by_cases he : other = stream
      · subst he
        rwa [Function.update_self]
      · rw [Function.update_of_ne he]
        exact h other

end ContainerdManager.Tailer
