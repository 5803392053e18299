import ContainerdManager.Logs.Checked
import ContainerdManager.Logs.Rotation
import Mathlib.Data.List.DropRight

/-!
# Filtering what was written

`container_logs_filtered` of `src/logs.rs` against the observations that
went into the files. `LogsFilter.select` says what a filter asks for: the
last `tail` of what lies between `since` and `until`. The reader selects by
the stored times, in whole milliseconds, and does not see a payload above
the decoder's cap.
-/

namespace ContainerdManager.Logs

open Lib

/-! ## What a filter selects -/

/-- `since ≤ t ≤ until`, as far as they are set. -/
def LogsFilter.Within (filter : LogsFilter) (t : Int) : Prop :=
  (∀ since ∈ filter.since, since ≤ t) ∧ ∀ until_ ∈ filter.until_, t ≤ until_

instance (filter : LogsFilter) (t : Int) : Decidable (filter.Within t) :=
  inferInstanceAs (Decidable (_ ∧ _))

/-- The last `tail` of what was observed within the bounds. -/
def LogsFilter.select {α : Type} (filter : LogsFilter) (time : α → Int) (xs : List α) : List α :=
  let kept := xs.filter fun x => decide (filter.Within (time x))
  filter.tail.elim kept kept.rtake

theorem LogsFilter.apply_eq_select (filter : LogsFilter) (all : List LogEntry) :
    filter.apply all = filter.select LogEntry.timestamp all := by
  obtain ⟨tail, since, until_⟩ := filter
  cases tail with
  | none =>
    cases since <;> cases until_ <;>
      simp [LogsFilter.apply, LogsFilter.select, LogsFilter.Within, List.filter_filter,
        Bool.and_comm]
  | some n =>
    have htail : ∀ kept : List LogEntry,
        (if n < kept.length then kept.drop (kept.length - n) else kept) = kept.rtake n := by
      intro kept
      rw [List.rtake]
      split
      · rfl
      · rw [Nat.sub_eq_zero_of_le (by omega), List.drop_zero]
    cases since <;> cases until_ <;>
      simp [LogsFilter.apply, LogsFilter.select, LogsFilter.Within, List.filter_filter, htail,
        Bool.and_comm]

/-- Selecting by the time of an image is selecting before the map. -/
theorem LogsFilter.select_map {α β : Type} (filter : LogsFilter) (f : α → β) (time : β → Int)
    (xs : List α) :
    filter.select time (xs.map f) = (filter.select (fun x => time (f x)) xs).map f := by
  have hkept : (xs.map f).filter (fun y => decide (filter.Within (time y))) =
      (xs.filter fun x => decide (filter.Within (time (f x)))).map f := List.filter_map
  simp only [LogsFilter.select, hkept]
  cases filter.tail with
  | none => rfl
  | some n => simp only [Option.elim_some, List.rtake, List.length_map, List.map_drop]

/-! ## Observations and the files that hold them -/

/-- The arguments of a call of `encode_record_into`. -/
structure Observation where
  timestamp : SystemTime
  stream : LogStream
  data : Bytes

namespace Observation

/-- The entry a reader gets back for an observation it can decode. -/
def stored (o : Observation) : LogEntry where
  stream := o.stream
  timestamp := storedTime o.timestamp
  data := o.data

end Observation

/-- The file that calls of `encode_record_into` produce. -/
def encodeObservations (os : List Observation) : Bytes :=
  os.foldl (fun buf o => encodeRecordInto buf o.timestamp o.stream o.data) []

/-- A directory that holds observations: `events.log` at `0` and `events.log.n` at `n`, those that
exist. -/
def storing (files : Slots (List Observation)) (inode : Nat → Nat) : EventsDir := fun n =>
  (files n).map fun os => ⟨inode n, encodeObservations os⟩

/-- The observations in written order: the oldest rotated file first, `events.log` last. -/
def inWrittenOrder (files : Slots (List Observation)) : List Observation :=
  (files.listing maxRotatedFiles).flatten

theorem encodeObservations_records (os : List Observation)
    (h : ∀ o ∈ os, o.data.length ≤ maxRecordBytes) :
    ∃ rs : List Record, encodeObservations os = encodeRecords rs ∧
      rs.map Record.entry = os.map Observation.stored := by
  refine ⟨os.pmap (fun o ho => ⟨o.timestamp, o.stream, o.data, ho⟩) h, ?_, ?_⟩
  · have hfold : ∀ buf,
        os.foldl (fun buf o => encodeRecordInto buf o.timestamp o.stream o.data) buf =
        (os.pmap (fun o ho => (⟨o.timestamp, o.stream, o.data, ho⟩ : Record)) h).foldl
          (fun buf r => encodeRecordInto buf r.timestamp r.stream r.data) buf := by
      induction os with
      | nil => exact fun _ => rfl
      | cons o os ih =>
        intro buf
        rw [List.pmap_cons, List.foldl_cons, List.foldl_cons]
        exact ih (fun o ho => h o (List.mem_cons_of_mem _ ho)) _
    exact hfold []
  · rw [List.map_pmap, ← List.pmap_eq_map h]
    exact List.pmap_congr_left _ fun o _ h1 h2 => by
      simp [Record.entry, Observation.stored, fromMillis_unixMillis]

theorem parse_encodeObservations {os : List Observation}
    (h : ∀ o ∈ os, o.data.length ≤ maxRecordBytes) :
    parseEventsFile (encodeObservations os) = os.map Observation.stored := by
  obtain ⟨rs, he, hm⟩ := encodeObservations_records os h
  rw [he, encodeRecords_eq, parseEventsFile_encodeAll, hm]

/-- The entries of a directory are those of its observations, in written order. -/
theorem entries_storing (files : Slots (List Observation)) (inode : Nat → Nat)
    (h : ∀ n os, files n = some os → ∀ o ∈ os, o.data.length ≤ maxRecordBytes) (n : Nat) :
    ((storing files inode).listing n).flatMap EventsFile.entries =
      (files.listing n).flatten.map Observation.stored := by
  have hslot : ∀ n, (storing files inode n).toList.flatMap EventsFile.entries =
      (files n).toList.flatten.map Observation.stored := by
    intro n
    cases hn : files n with
    | none => simp [storing, hn]
    | some os => simp [storing, hn, EventsFile.entries, parse_encodeObservations (h n os hn)]
  induction n with
  | zero => exact hslot 0
  | succ n ih =>
    rw [Slots.listing, Slots.listing, List.flatMap_append, hslot, ih, List.flatten_append,
      List.map_append]

/-- **Filtering commutes with storage, by the stored times**: the reader returns the last `tail` of
the observations whose stored time lies between `since` and `until`, in written order, however
they lie in the files. -/
theorem containerLogsFiltered_select (files : Slots (List Observation)) (inode : Nat → Nat)
    (h : ∀ n os, files n = some os → ∀ o ∈ os, o.data.length ≤ maxRecordBytes)
    (filter : LogsFilter) :
    containerLogsFiltered (fun _ => false) (storing files inode) filter =
      .ok ((filter.select (fun o => storedTime o.timestamp) (inWrittenOrder files)).map
        Observation.stored) := by
  rw [containerLogsFiltered_eq, entries_storing files inode h, LogsFilter.apply_eq_select,
    LogsFilter.select_map]
  rfl

/-- One observation in `events.log`. -/
def onlyObservation (o : Observation) : Slots (List Observation) :=
  Slots.set (fun _ => none) 0 (some [o])

/-- Two observations in two files, of which the second is asked for. -/
def twoFiles : Slots (List Observation) :=
  Slots.set (onlyObservation ⟨5000000, .stderr, [98]⟩) 1 (some [⟨1000000, .stdout, [97]⟩])

theorem filtered_twoFiles :
    (∀ n os, twoFiles n = some os → ∀ o ∈ os, o.data.length ≤ maxRecordBytes) ∧
      containerLogsFiltered (fun _ => false) (storing twoFiles id)
        { tail := some 3, since := some 2000000 } = .ok [⟨.stderr, 5000000, [98]⟩] := by
  have h : ∀ n os, twoFiles n = some os → ∀ o ∈ os, o.data.length ≤ maxRecordBytes := by
    intro n os hn
    rcases n with _ | _ | n
    · cases hn; decide
    · cases hn; decide
    · cases hn
  refine ⟨h, ?_⟩
  rw [containerLogsFiltered_select twoFiles id h]
  decide +kernel

/-! ## What is not stored -/

/-- Nothing the decoder returns is longer than its cap. -/
theorem scan_data_le (bytes : Bytes) :
    ∀ e ∈ (eventDecoder.scan bytes).1, e.data.length ≤ maxRecordBytes := by
  induction bytes using Decoder.scan_induction (D := eventDecoder) with
  | item buf e n hf ih =>
    rw [Decoder.scan_item hf]
    refine List.forall_mem_cons.mpr ⟨?_, ih⟩
    cases hd : decodeEventWithLen buf with
    | record e' n' =>
      rw [front_record hd] at hf
      cases hf
      exact (decode_record_data hd).1
    | needMore => rw [front_needMore hd] at hf; cases hf
    | malformed =>
      cases hr : resyncOffset buf with
      | none => rw [front_stuck hd hr] at hf; cases hf
      | some k => rw [front_resync hd hr] at hf; cases hf
  | skip buf n hf ih => rw [Decoder.scan_skip hf]; exact ih
  | wait buf hf => rw [Decoder.scan_wait hf]; exact List.forall_mem_nil _

theorem filtered_oversize {o : Observation} (h : maxRecordBytes < o.data.length) :
    containerLogsFiltered (fun _ => false) (storing (onlyObservation o) id) {} ≠
      .ok ((LogsFilter.select {} Observation.timestamp
        (inWrittenOrder (onlyObservation o))).map Observation.stored) := by
  intro hc
  have hsel : LogsFilter.select {} Observation.timestamp (inWrittenOrder (onlyObservation o)) =
      [o] := rfl
  have hlist : ((storing (onlyObservation o) id).listing maxRotatedFiles).flatMap
      EventsFile.entries = parseEventsFile (encodeObservations [o]) := List.append_nil _
  rw [containerLogsFiltered_eq, hsel, hlist, parseEventsFile_eq] at hc
  have hmem : o.stored ∈ (eventDecoder.scan (encodeObservations [o])).1 := by
    have := Except.ok.inj hc
    rw [show LogsFilter.apply {} _ = (eventDecoder.scan (encodeObservations [o])).1 from rfl]
      at this
    rw [this]
    exact List.mem_singleton.mpr rfl
  exact Nat.not_le_of_lt h (scan_data_le _ _ hmem)

/-- An observation of the first nanosecond, one `2 ^ 64` milliseconds later, and one whose payload
is above the decoder's cap are asked for and not returned. -/
theorem filtered_loses :
    (containerLogsFiltered (fun _ => false) (storing (onlyObservation ⟨1, .stdout, [97]⟩) id)
        { since := some 1 } ≠
      .ok ((LogsFilter.select { since := some 1 } Observation.timestamp
        (inWrittenOrder (onlyObservation ⟨1, .stdout, [97]⟩))).map Observation.stored)) ∧
    (containerLogsFiltered (fun _ => false)
        (storing (onlyObservation ⟨u64Bound * 1000000, .stdout, [97]⟩) id)
        { since := some (u64Bound * 1000000) } ≠
      .ok ((LogsFilter.select { since := some (u64Bound * 1000000) } Observation.timestamp
        (inWrittenOrder (onlyObservation ⟨u64Bound * 1000000, .stdout, [97]⟩))).map
          Observation.stored)) ∧
    containerLogsFiltered (fun _ => false)
        (storing (onlyObservation ⟨0, .stdout, List.replicate (maxRecordBytes + 1) 97⟩) id) {} ≠
      .ok ((LogsFilter.select {} Observation.timestamp
        (inWrittenOrder (onlyObservation
          ⟨0, .stdout, List.replicate (maxRecordBytes + 1) 97⟩))).map Observation.stored) := by
  refine ⟨by decide +kernel, by decide +kernel, filtered_oversize ?_⟩
  rw [List.length_replicate]
  exact Nat.lt_succ_self _

end ContainerdManager.Logs
