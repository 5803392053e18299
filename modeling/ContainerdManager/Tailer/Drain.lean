import ContainerdManager.Lib.Lines
import ContainerdManager.Logs.Rotation

/-!
# One pass of the tailer

`drainIntoEvents` is `drain_into_events` of `src/log_tailer.rs`: read what a
raw stdout or stderr file has grown by, cut it into lines behind the partial
line of the pass before, and append the lines to the events log as one
batch. `cut` says what the loop over the newlines computes, and
`drainRaw_ok` what a pass without I/O errors does.
-/

namespace ContainerdManager.Tailer

open Lib Logs

/-- Bytes of a partial line kept for the next pass; a longer one is flushed. -/
def maxLeftoverBytes : Nat := 1024 * 1024

/-- Bytes read from a raw file in one pass. -/
def maxReadChunk : Nat := 4 * 1024 * 1024

/-- The raw files are truncated in place, so an open handle and the path name one file. -/
structure TailState where
  pos : Nat := 0
  leftover : Bytes := []
  /-- The handle is open. -/
  file : Bool := false
  deriving DecidableEq, Repr

/-- What a pass meets outside of the tailer. -/
structure PassEnv where
  io : IoFaults := noFaults
  /-- The inode of an events file the pass creates. -/
  ino : Nat := 0
  now : Int := 0
  /-- Bytes the task appends to the raw file between the stat and the read. -/
  grown : Bytes := []

def ensureFileOpen (io : IoFaults) (state : TailState) (raw : Option Bytes) :
    Except Error (Bool × TailState) :=
  if state.file then .ok (true, state)
  else if io .openRaw then .error (.io "tailer: open raw")
  else
    match raw with
    | some _ => .ok (true, { state with file := true })
    | none => .ok (false, state)

/-- The loop over the newlines of a buffer: the end of the last line, and the batch. -/
def encodeLines (now : Int) (stream : LogStream) (combined : Bytes) : Nat × Bytes :=
  (positions nl 0 combined).foldl
    (fun (st : Nat × Bytes) i =>
      (i + 1, encodeRecordInto st.2 now stream ((combined.take (i + 1)).drop st.1)))
    (0, [])

/-- The batch of a pass and the new `leftover`. -/
def splitBatch (now : Int) (stream : LogStream) (combined : Bytes) : Bytes × Bytes :=
  let (start, batch) := encodeLines now stream combined
  if start < combined.length ∧ combined.length - start ≥ maxLeftoverBytes then
    (encodeRecordInto batch now stream (combined.drop start), [])
  else if start < combined.length then (batch, combined.drop start)
  else (batch, [])

/-- A pass up to its batch. -/
def drainRaw (env : PassEnv) (raw : Option Bytes) (stream : LogStream) (state : TailState) :
    Except Error Unit × TailState × Bytes :=
  match ensureFileOpen env.io state raw with
  | .error e => (.error e, state, [])
  | .ok (false, state) => (.ok (), state, [])
  | .ok (true, state) =>
    let bytes := raw.getD []
    if env.io .statRaw then (.error (.io "tailer: stat raw"), state, [])
    else
      let len := bytes.length
      if len < state.pos then (.ok (), { pos := 0, leftover := [], file := false }, [])
      else if len = state.pos then (.ok (), state, [])
      else if env.io .seekRaw then (.error (.io "tailer: seek raw"), state, [])
      else
        let want := min (len - state.pos) maxReadChunk
        -- the leftover has been taken out of the state when the read fails
        if env.io .readRaw then (.error (.io "tailer: read raw"), { state with leftover := [] }, [])
        else
          let read := ((bytes ++ env.grown).drop state.pos).take want
          let (batch, leftover) := splitBatch env.now stream (state.leftover ++ read)
          (.ok (), { state with pos := state.pos + read.length, leftover := leftover }, batch)

def drainIntoEvents (env : PassEnv) (raw : Option Bytes) (stream : LogStream) (state : TailState)
    (dir : EventsDir) : Except Error Unit × TailState × EventsDir :=
  match drainRaw env raw stream state with
  | (.error e, state, _) => (.error e, state, dir)
  | (.ok (), state, batch) =>
    if batch.isEmpty then (.ok (), state, dir)
    else
      match appendBatch env.io env.ino dir batch with
      | (result, dir) => (result, state, dir)

/-! ## The newline loop -/

/-- The data of the records of a pass, and the partial line it keeps. -/
def cut (combined : Bytes) : List Bytes × Bytes :=
  if maxLeftoverBytes ≤ (lines nl combined).2.length then
    ((lines nl combined).1 ++ [(lines nl combined).2], [])
  else lines nl combined

/-- The encodings of a list of data as one batch. -/
def encodeData (now : Int) (stream : LogStream) (batch : Bytes) (data : List Bytes) : Bytes :=
  data.foldl (fun batch d => encodeRecordInto batch now stream d) batch

theorem encodeLines_eq (now : Int) (stream : LogStream) (combined : Bytes) :
    encodeLines now stream combined =
      ((lines nl combined).1.flatten.length, encodeData now stream [] (lines nl combined).1) := by
  have h := positions_foldl nl (fun batch d => encodeRecordInto batch now stream d) combined [] []
  simp only [List.length_nil, List.nil_append, Nat.zero_add] at h
  exact h

theorem splitBatch_eq (now : Int) (stream : LogStream) (combined : Bytes) :
    splitBatch now stream combined =
      (encodeData now stream [] (cut combined).1, (cut combined).2) := by
  have hfl := lines_flatten nl combined
  have hlen : combined.length =
      (lines nl combined).1.flatten.length + (lines nl combined).2.length := by
    rw [← List.length_append, hfl]
  have hdrop : combined.drop (lines nl combined).1.flatten.length = (lines nl combined).2 := by
    conv => lhs; arg 2; rw [← hfl]
    rw [List.drop_left]
  have hmax : 0 < maxLeftoverBytes := by decide
  unfold splitBatch cut
  rw [encodeLines_eq]
  simp only [hdrop]
  by_cases hl : maxLeftoverBytes ≤ (lines nl combined).2.length
  · rw [if_pos (by omega), if_pos hl]
    simp [encodeData]
  · rw [if_neg (by omega), if_neg hl]
    split
    · rfl
    · have hnil : (lines nl combined).2 = [] := List.eq_nil_of_length_eq_zero (by omega)
      rw [hnil]

theorem cut_flatten (combined : Bytes) :
    (cut combined).1.flatten ++ (cut combined).2 = combined := by
  have h := lines_flatten nl combined
  unfold cut
  split
  · simpa using h
  · exact h

theorem cut_rest (combined : Bytes) :
    nl ∉ (cut combined).2 ∧ (cut combined).2.length < maxLeftoverBytes := by
  unfold cut
  split
  · exact ⟨by simp, Nat.two_pow_pos 20⟩
  · exact ⟨lines_rest nl combined, by omega⟩

/-- The shape of the data of a record: a newline at most at its end, and none only in a flushed
partial line. -/
structure LineData (d : Bytes) : Prop where
  piece : Piece nl d
  flushed : nl ∉ d → maxLeftoverBytes ≤ d.length

theorem cut_mem {combined d : Bytes} (h : d ∈ (cut combined).1) :
    LineData d ∧ d.length ≤ combined.length := by
  have hle : d.length ≤ combined.length := by
    have := (List.sublist_flatten_of_mem h).length_le
    rw [← cut_flatten combined, List.length_append]
    omega
  refine ⟨?_, hle⟩
  have hline : d ∈ (lines nl combined).1 → LineData d := by
    intro hd
    obtain ⟨m, hm, rfl⟩ := lines_mem hd
    exact ⟨.line hm, fun hn => absurd (by simp) hn⟩
  unfold cut at h
  split at h
  · rename_i hl
    rcases List.mem_append.mp h with h | h
    · exact hline h
    · cases List.mem_singleton.mp h
      have hne : (lines nl combined).2 ≠ [] := by
        intro e
        rw [e] at hl
        exact absurd hl (by decide)
      exact ⟨.part (lines_rest nl combined) hne, fun _ => hl⟩
  · exact hline h

theorem cut_short {m : Bytes} (hm : nl ∉ m) (hl : m.length < maxLeftoverBytes) :
    cut m = ([], m) := by
  unfold cut
  rw [lines_of_not_mem hm, if_neg (Nat.not_le.mpr hl)]

/-! ## The batch as records -/

/-- Data within the decoder's limit is a batch of whole records. -/
theorem encodeData_records (now : Int) (stream : LogStream) (data : List Bytes)
    (h : ∀ d ∈ data, d.length ≤ maxRecordBytes) :
    ∃ recs : List Record, encodeData now stream [] data = encodeAll recs ∧
      recs.map Record.data = data ∧ ∀ r ∈ recs, r.stream = stream := by
  suffices ∀ batch, ∃ recs : List Record, encodeData now stream batch data =
      batch ++ encodeAll recs ∧
      recs.map Record.data = data ∧ ∀ r ∈ recs, r.stream = stream from this []
  induction data with
  | nil => exact fun batch => ⟨[], by simp [encodeData], rfl, by simp⟩
  | cons d data ih =>
    intro batch
    let r : Record := ⟨now, stream, d, h d List.mem_cons_self⟩
    obtain ⟨recs, he, hd, hs⟩ :=
      ih (fun d hd => h d (List.mem_cons_of_mem _ hd)) (batch ++ r.encode)
    refine ⟨r :: recs, ?_, by rw [List.map_cons, hd], ?_⟩
    · rw [encodeData, List.foldl_cons, encodeRecordInto_eq batch r]
      rw [encodeData] at he
      rw [he, List.append_assoc]
      rfl
    · intro q hq
      rcases List.mem_cons.mp hq with rfl | hq
      · rfl
      · exact hs q hq

/-! ## A pass without I/O errors -/

/-- What one pass reads. -/
def passRead (raw : Bytes) (pos : Nat) : Bytes := (raw.drop pos).take maxReadChunk

/-- The tailer's position is in the file and its partial line is a short one. -/
structure TailState.Ok (state : TailState) (raw : Bytes) : Prop where
  pos_le : state.pos ≤ raw.length
  no_nl : nl ∉ state.leftover
  short : state.leftover.length < maxLeftoverBytes

theorem passRead_self {raw : Bytes} {pos : Nat} (h : raw.length = pos) : passRead raw pos = [] := by
  simp [passRead, h]

/-- What the task appends after the stat is not read. -/
theorem read_eq_passRead {raw grown : Bytes} {pos : Nat} (h : pos ≤ raw.length) :
    ((raw ++ grown).drop pos).take (min (raw.length - pos) maxReadChunk) = passRead raw pos := by
  rw [List.drop_append_of_le_length h, passRead, ← List.take_take, List.take_take, Nat.min_comm,
    ← List.take_take, List.take_left' (by simp)]

/-- **A pass without I/O errors** reads the next chunk, cuts it behind the partial line, and
batches the data of the records. -/
theorem drainRaw_ok {env : PassEnv} (hio : env.io = noFaults) {raw : Bytes} {state : TailState}
    (hok : state.Ok raw) (stream : LogStream) :
    drainRaw env (some raw) stream state =
      (.ok (),
        { pos := state.pos + (passRead raw state.pos).length
          leftover := (cut (state.leftover ++ passRead raw state.pos)).2
          file := true },
        encodeData env.now stream [] (cut (state.leftover ++ passRead raw state.pos)).1) := by
  have hopen : ensureFileOpen env.io state (some raw) =
      .ok (true, { state with file := true }) := by
    obtain ⟨pos, leftover, file⟩ := state
    cases file <;> simp [ensureFileOpen, hio, noFaults]
  have hle := hok.pos_le
  unfold drainRaw
  rw [hopen]
  simp only [Option.getD_some, hio, noFaults, Bool.false_eq_true, if_false]
  rw [if_neg (by omega)]
  by_cases he : raw.length = state.pos
  · rw [if_pos he, passRead_self he, List.append_nil, cut_short hok.no_nl hok.short]
    rfl
  · rw [if_neg he, read_eq_passRead hle, splitBatch_eq]

theorem drainRaw_missing {env : PassEnv} (hio : env.io = noFaults) {state : TailState}
    (hfile : state.file = false) (stream : LogStream) :
    drainRaw env none stream state = (.ok (), state, []) := by
  simp [drainRaw, ensureFileOpen, hfile, hio, noFaults]

/-- A pass from this state finds nothing to record: nothing behind its position, or a part of a
line that it keeps. -/
def NothingToRecord (raw : Bytes) (state : TailState) : Prop :=
  raw.length ≤ state.pos ∨
    nl ∉ state.leftover ++ passRead raw state.pos ∧
      (state.leftover ++ passRead raw state.pos).length < maxLeftoverBytes

instance (raw : Bytes) (state : TailState) : Decidable (NothingToRecord raw state) :=
  inferInstanceAs (Decidable (_ ∨ _))

/-- Such a pass hands over no batch. -/
theorem drainRaw_silent (env : PassEnv) (hio : env.io = noFaults) {raw : Option Bytes}
    {state : TailState} (h : NothingToRecord (raw.getD []) state) (stream : LogStream) :
    (drainRaw env raw stream state).2.2 = [] := by
  by_cases hle : (raw.getD []).length ≤ state.pos
  · unfold drainRaw ensureFileOpen
    simp only [hio, noFaults, Bool.false_eq_true, if_false]
    cases state.file <;> cases raw <;> simp only [Bool.false_eq_true, if_true, if_false]
    all_goals
      simp only [Option.getD_some, Option.getD_none, List.length_nil] at hle ⊢
      split
      · rfl
      · rw [if_pos (by omega)]
  · obtain ⟨hnl, hshort⟩ := h.resolve_left hle
    cases raw with
    | none => exact absurd (Nat.zero_le _) hle
    | some raw =>
      have hok : state.Ok raw := by
        refine ⟨Nat.le_of_not_le hle, fun hm => hnl (List.mem_append_left _ hm), ?_⟩
        rw [List.length_append] at hshort
        omega
      rw [drainRaw_ok hio hok]
      simp only [Option.getD_some] at hnl hshort
      rw [cut_short hnl hshort]
      rfl

end ContainerdManager.Tailer
