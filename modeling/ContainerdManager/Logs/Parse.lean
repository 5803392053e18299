import ContainerdManager.Logs.Record

/-!
# Reading a whole events file

`parseEventsFile` is the loop of `parse_events_file` in `src/logs.rs`: a
cursor over the bytes, one decode per iteration, a resynchronisation on a
malformed record. `parseLoop_scan` identifies it with the scan of
`eventDecoder`; fuel equal to the number of bytes is enough because every
iteration advances the cursor.
-/

namespace ContainerdManager.Logs

open Lib

/-- The loop of `parse_events_file`: the entries and the cursor it stops at. -/
def parseLoop (bytes : Bytes) : Nat → Nat → List LogEntry → List LogEntry × Nat
  | 0, cursor, out => (out, cursor)
  | fuel + 1, cursor, out =>
    if cursor < bytes.length then
      match decodeEventWithLen (bytes.drop cursor) with
      | .record entry consumed => parseLoop bytes fuel (cursor + consumed) (out ++ [entry])
      | .needMore => (out, cursor)
      | .malformed =>
        match resyncOffset (bytes.drop cursor) with
        | some skip => parseLoop bytes fuel (cursor + skip) out
        | none => (out, cursor)
    else (out, cursor)

def parseEventsFile (bytes : Bytes) : List LogEntry := (parseLoop bytes bytes.length 0 []).1

/-- The suffix of the file on which `parse_events_file` stops. -/
def parseEventsFileRest (bytes : Bytes) : Bytes :=
  bytes.drop (parseLoop bytes bytes.length 0 []).2

/-- With enough fuel the loop scans the bytes from its cursor on. -/
theorem parseLoop_scan (bytes : Bytes) {fuel : Nat} (cursor : Nat) (out : List LogEntry)
    (hf : bytes.length ≤ fuel + cursor) :
    (parseLoop bytes fuel cursor out).1 = out ++ (eventDecoder.scan (bytes.drop cursor)).1 ∧
      bytes.drop (parseLoop bytes fuel cursor out).2 =
        (eventDecoder.scan (bytes.drop cursor)).2 := by
  induction fuel generalizing cursor out with
  | zero =>
    have hd : bytes.drop cursor = [] := List.drop_eq_nil_of_le (by omega)
    rw [hd, scan_nil]
    simp [parseLoop, hd]
  | succ fuel ih =>
    simp only [parseLoop]
    split
    case isFalse hge =>
      have hd : bytes.drop cursor = [] := List.drop_eq_nil_of_le (by omega)
      rw [hd, scan_nil]
      simp
    case isTrue hlt =>
      cases hdec : decodeEventWithLen (bytes.drop cursor) with
      | record e n =>
        have hw := decode_record_width hdec
        obtain ⟨h1, h2⟩ := ih (cursor + n) (out ++ [e]) (by omega)
        rw [Decoder.scan_item (front_record hdec), List.drop_drop]
        exact ⟨by rw [h1, List.append_assoc]; rfl, h2⟩
      | needMore =>
        rw [Decoder.scan_wait (front_needMore hdec)]
        simp
      | malformed =>
        cases hr : resyncOffset (bytes.drop cursor) with
        | none =>
          rw [Decoder.scan_wait (front_stuck hdec hr)]
          simp
        | some n =>
          have hw := resyncOffset_width hr
          obtain ⟨h1, h2⟩ := ih (cursor + n) out (by omega)
          rw [Decoder.scan_skip (front_resync hdec hr), List.drop_drop]
          exact ⟨h1, h2⟩

theorem parseEventsFile_eq (bytes : Bytes) :
    parseEventsFile bytes = (eventDecoder.scan bytes).1 := by
  have h := (parseLoop_scan bytes 0 [] (Nat.le_refl _)).1
  rwa [List.nil_append, List.drop_zero] at h

theorem parseEventsFileRest_eq (bytes : Bytes) :
    parseEventsFileRest bytes = (eventDecoder.scan bytes).2 :=
  (parseLoop_scan bytes 0 [] (Nat.le_refl _)).2

/-- A file of whole records parses to their entries. -/
theorem parseEventsFile_encodeAll (rs : List Record) :
    parseEventsFile (encodeAll rs) = rs.map Record.entry := by
  rw [parseEventsFile_eq, scan_encodeAll]

/-! ## The round trip -/

/-- The time a reader gets back: whole milliseconds, between the epoch and `u64::MAX` of them. -/
def storedTime (t : Int) : Int := min (max 0 (t / 1000000)) (u64Bound - 1) * 1000000

theorem fromMillis_unixMillis (t : Int) : fromMillis (unixMillis t) = storedTime t := by
  unfold fromMillis unixMillis storedTime u64Bound
  split
  · omega
  · split <;> omega

/-- The file a sequence of `encode_record_into` calls produces. -/
def encodeRecords (rs : List Record) : Bytes :=
  rs.foldl (fun buf r => encodeRecordInto buf r.timestamp r.stream r.data) []

theorem encodeRecords_eq (rs : List Record) : encodeRecords rs = encodeAll rs := by
  have h : ∀ buf, rs.foldl (fun buf r => encodeRecordInto buf r.timestamp r.stream r.data) buf =
      buf ++ encodeAll rs := by
    induction rs with
    | nil => simp
    | cons r rs ih =>
      intro buf
      rw [List.foldl_cons, ih, encodeRecordInto_eq, List.append_assoc]
      rfl
  exact (h []).trans (List.nil_append _)

/-- **Round trip with a torn tail**: the encoded records come back in order, with their stream and
bytes and the stored time, and a cut record behind them yields nothing. -/
theorem parse_encodeRecords_torn (rs : List Record) (r : Record) (p : Bytes) (hp : p <+: r.encode)
    (hne : p ≠ r.encode) :
    parseEventsFile (encodeRecords rs ++ p) =
      rs.map fun r => { stream := r.stream, timestamp := storedTime r.timestamp, data :=
        r.data } := by
  rw [encodeRecords_eq, parseEventsFile_eq, recordFrames.scan_encAll,
    recordFrames.scan_cut (c := r) hp hne, List.append_nil]
  refine List.map_congr_left fun r _ => ?_
  simp only [recordFrames, Record.entry, fromMillis_unixMillis]

/-- A short record of the container's stdout. -/
def helloRecord : Record := ⟨1000000, .stdout, [104, 105, 10], by decide⟩

theorem parse_hello_torn : helloRecord.encode.take 5 <+: helloRecord.encode ∧
    helloRecord.encode.take 5 ≠ helloRecord.encode ∧
    parseEventsFile (encodeRecords [helloRecord, helloRecord] ++ helloRecord.encode.take 5) =
      [⟨.stdout, 1000000, [104, 105, 10]⟩, ⟨.stdout, 1000000, [104, 105, 10]⟩] :=
  ⟨List.take_prefix _ _, by
    decide, parse_encodeRecords_torn [helloRecord, helloRecord] helloRecord _
    (List.take_prefix _ _) (by decide)⟩

/-- An empty record observed `2 ^ 64` milliseconds after the epoch. -/
def lateRecord : Record := ⟨u64Bound * 1000000, .stdout, [], by decide⟩

/-- The encoder saturates at `u64::MAX` milliseconds: a later time is not only truncated to whole
milliseconds. -/
theorem parse_lateRecord_clamped :
    parseEventsFile (encodeRecords [lateRecord]) ≠
      [⟨.stdout, max 0 (lateRecord.timestamp / 1000000 * 1000000), []⟩] := by
  decide +kernel

end ContainerdManager.Logs
