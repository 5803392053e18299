import ContainerdManager.Lib.Decimal
import ContainerdManager.Lib.Framing

/-!
# Records of the events log

`src/logs.rs`: a record is `<unix_ms> <stream_char> <len> <data_bytes>\n`.
`encodeRecordInto` appends one to a buffer, `decodeEventWithLen` reads one
from the front of a buffer, and `resyncOffset` finds the next line when the
front is not a record. `eventDecoder` packs decoding and resynchronising as
a stable decoder, and `recordFrames` is the encoding it inverts.
-/

namespace ContainerdManager.Logs

open Lib

abbrev Bytes := List UInt8

/-- Bytes an events.log may hold before the tailer rotates it. -/
def eventsRotateBytes : Nat := 10 * 1024 * 1024

def maxRotatedFiles : Nat := 5

/-- Cap on the payload of a decoded record. -/
def maxRecordBytes : Nat := 16 * 1024 * 1024

/-- Cap on the bytes read in one drain of a rotated file. -/
def rotatedDrainMaxBytes : Nat := 16 * 1024 * 1024

/-- Nanoseconds since the Unix epoch; earlier times are negative. -/
abbrev SystemTime := Int

inductive LogStream where
  | stdout
  | stderr
  deriving DecidableEq, Repr

instance LogStream.decidableForall {p : LogStream → Prop} [DecidablePred p] :
    Decidable (∀ stream, p stream) :=
  decidable_of_iff (p .stdout ∧ p .stderr)
    ⟨fun h stream => by cases stream <;> simp [h], fun h => ⟨h _, h _⟩⟩

structure LogEntry where
  stream : LogStream
  timestamp : SystemTime
  data : Bytes
  deriving DecidableEq, Repr

/-- ASCII space. -/
def sp : UInt8 := 32

/-- ASCII newline. -/
def nl : UInt8 := 10

/-- Values of `u64`, and of `usize` on the supported targets. -/
def u64Bound : Nat := 0x10000000000000000

/-- The `unix_ms` field: whole milliseconds since the epoch, `0` before it, `u64::MAX` when
they do not fit. -/
def unixMillis (t : Int) : Nat :=
  if t < 0 then 0
  else if (t / 1000000).toNat < u64Bound then (t / 1000000).toNat else u64Bound - 1

/-- `UNIX_EPOCH + Duration::from_millis(ms)`. -/
def fromMillis (ms : Nat) : Int := ms * 1000000

def LogStream.char : LogStream → UInt8
  | .stdout => 111
  | .stderr => 101

def LogStream.ofChar (c : UInt8) : Option LogStream :=
  if c = 111 then some .stdout else if c = 101 then some .stderr else none

def encodeRecordInto (buf : Bytes) (timestamp : SystemTime) (stream : LogStream) (data : Bytes) :
    Bytes :=
  buf ++ decimal (unixMillis timestamp) ++ [sp] ++ [stream.char] ++ [sp] ++
    decimal data.length ++ [sp] ++ data ++ [nl]

/-- Outcome of decoding one record from a buffer. -/
inductive Decoded where
  | record (entry : LogEntry) (consumed : Nat)
  | needMore
  | malformed
  deriving DecidableEq, Repr

/-- `from_utf8` and `parse::<u64>` of a header field: bytes that are not UTF-8 and text that is
not a number both make the record malformed, and the bytes of a number are ASCII. -/
def parseField (s : Bytes) : Option Nat := parseUint u64Bound s

/-- Decodes one record starting at byte 0 of `s`. -/
def decodeEventWithLen (s : Bytes) : Decoded :=
  match s.findIdx? (· == sp) with
  | none => .needMore
  | some space1 =>
    match parseField (s.take space1) with
    | none => .malformed
    | some ms =>
      match s.drop (space1 + 1) with
      | [] => .needMore
      | [_] => .needMore
      | streamChar :: sep :: afterStream =>
        if sep ≠ sp then .malformed
        else
          match LogStream.ofChar streamChar with
          | none => .malformed
          | some stream =>
            match afterStream.findIdx? (· == sp) with
            | none => .needMore
            | some space2 =>
              match parseField (afterStream.take space2) with
              | none => .malformed
              | some len =>
                if len > maxRecordBytes then .malformed
                else
                  let dataAbsStart := space1 + 1 + 2 + space2 + 1
                  let dataAbsEnd := dataAbsStart + len
                  if s.length < dataAbsEnd + 1 then .needMore
                  else if s[dataAbsEnd]? ≠ some nl then .malformed
                  else
                    .record
                      { stream := stream
                        timestamp := fromMillis ms
                        data := (s.take dataAbsEnd).drop dataAbsStart }
                      (dataAbsEnd + 1)

/-- Bytes to skip from a malformed record to the next line, if it ends in the buffer. -/
def resyncOffset (buf : Bytes) : Option Nat := (buf.findIdx? (· == nl)).map (· + 1)

/-! ## Stability -/

theorem findIdx?_append_some {α : Type} {p : α → Bool} {xs : List α} {i : Nat}
    (h : xs.findIdx? p = some i) (ys : List α) : (xs ++ ys).findIdx? p = some i := by
  rw [List.findIdx?_append, h]; rfl

theorem findIdx?_lt {α : Type} {p : α → Bool} {xs : List α} {i : Nat}
    (h : xs.findIdx? p = some i) : i < xs.length := by
  obtain ⟨hi, -⟩ := List.findIdx?_eq_some_iff_getElem.mp h
  exact hi

theorem count_sp_of_none {s : Bytes} (h : s.findIdx? (· == sp) = none) : s.count sp = 0 := by
  refine List.count_eq_zero.mpr fun hm => ?_
  have := List.findIdx?_eq_none_iff.mp h sp hm
  simp at this

/-- The first space of a buffer stands before all the others. -/
theorem count_sp_of_some {s : Bytes} {i : Nat} (h : s.findIdx? (· == sp) = some i) :
    s.count sp = 1 + (s.drop (i + 1)).count sp := by
  obtain ⟨hlt, hsp, hbefore⟩ := List.findIdx?_eq_some_iff_getElem.mp h
  have ht : (s.take i).count sp = 0 := by
    refine List.count_eq_zero.mpr fun hm => ?_
    obtain ⟨j, hj, he⟩ := List.mem_take_iff_getElem.mp hm
    exact hbefore j (by omega) (by simp [he])
  conv => lhs; rw [← List.take_append_drop i s, List.drop_eq_getElem_cons hlt, beq_iff_eq.mp hsp]
  rw [List.count_append, ht, List.count_cons_self]
  omega

/-- The part of a header before its data, once it is complete and well formed. -/
structure Header where
  ms : Nat
  stream : LogStream
  len : Nat
  dataStart : Nat

/-- `h` is the complete header at the front of `s`. -/
structure HeaderAt (s : Bytes) (h : Header) : Prop where
  fits : h.dataStart ≤ s.length
  len_le : h.len ≤ maxRecordBytes
  start_pos : 0 < h.dataStart
  decode : ∀ more, decodeEventWithLen (s ++ more) =
    if (s ++ more).length < h.dataStart + h.len + 1 then .needMore
    else if (s ++ more)[h.dataStart + h.len]? ≠ some nl then .malformed
    else
      .record
        { stream := h.stream
          timestamp := fromMillis h.ms
          data := ((s ++ more).take (h.dataStart + h.len)).drop h.dataStart }
        (h.dataStart + h.len + 1)

/-- A buffer either has an incomplete header, with fewer than its three spaces, or one that is
malformed whatever follows, or a complete one. -/
theorem header_cases (s : Bytes) :
    (decodeEventWithLen s = .needMore ∧ s.count sp < 3) ∨
      (∀ more, decodeEventWithLen (s ++ more) = .malformed) ∨ ∃ h, HeaderAt s h := by
  unfold decodeEventWithLen
  cases h1 : s.findIdx? (· == sp) with
  | none => exact .inl ⟨rfl, by rw [count_sp_of_none h1]; omega⟩
  | some space1 =>
    have l1 := findIdx?_lt h1
    have c1 := count_sp_of_some h1
    have t1 : ∀ more, (s ++ more).take space1 = s.take space1 := fun more =>
      List.take_append_of_le_length (by omega)
    have d1 : ∀ more, (s ++ more).drop (space1 + 1) = s.drop (space1 + 1) ++ more := fun more =>
      List.drop_append_of_le_length (by omega)
    simp only [findIdx?_append_some h1, t1, d1]
    cases h2 : parseField (s.take space1) with
    | none => exact .inr (.inl fun _ => rfl)
    | some ms =>
      match h3 : s.drop (space1 + 1) with
      | [] => exact .inl ⟨rfl, by rw [c1, h3, List.count_nil]; omega⟩
      | [c] =>
        have := List.count_le_length (a := sp) (l := [c])
        refine .inl ⟨rfl, ?_⟩
        rw [c1, h3]
        simp only [List.length_cons, List.length_nil] at this
        omega
      | streamChar :: sep :: afterStream =>
        simp only [List.cons_append]
        by_cases h4 : sep ≠ sp
        · exact .inr (.inl fun _ => if_pos h4)
        rw [if_neg h4]
        simp only [if_neg h4]
        cases h5 : LogStream.ofChar streamChar with
        | none => exact .inr (.inl fun _ => rfl)
        | some stream =>
          cases h6 : afterStream.findIdx? (· == sp) with
          | none =>
            have hc : streamChar ≠ sp := by rintro rfl; cases h5
            refine .inl ⟨rfl, ?_⟩
            rw [c1, h3, not_not.mp h4, List.count_cons_of_ne hc, List.count_cons_self,
              count_sp_of_none h6]
            omega
          | some space2 =>
            have l6 := findIdx?_lt h6
            have t6 : ∀ more, (afterStream ++ more).take space2 = afterStream.take space2 :=
              fun more => List.take_append_of_le_length (by omega)
            simp only [findIdx?_append_some h6, t6]
            cases h7 : parseField (afterStream.take space2) with
            | none => exact .inr (.inl fun _ => rfl)
            | some len =>
              by_cases h8 : len > maxRecordBytes
              · exact .inr (.inl fun _ => if_pos h8)
              refine .inr (.inr ⟨⟨ms, stream, len, space1 + 1 + 2 + space2 + 1⟩, ?_, ?_, ?_, ?_⟩)
              · have e : (s.drop (space1 + 1)).length = afterStream.length + 2 := by rw [h3]; rfl
                rw [List.length_drop] at e
                show space1 + 1 + 2 + space2 + 1 ≤ s.length
                omega
              · show len ≤ maxRecordBytes; omega
              · show 0 < space1 + 1 + 2 + space2 + 1; omega
              · intro more
                unfold decodeEventWithLen
                simp only [findIdx?_append_some h1, t1, d1, h2, h3, List.cons_append, if_neg h4, h5,
                  findIdx?_append_some h6, t6, h7, if_neg h8]

theorem HeaderAt.decode_self {s : Bytes} {h : Header} (hh : HeaderAt s h) :
    decodeEventWithLen s =
      if s.length < h.dataStart + h.len + 1 then .needMore
      else if s[h.dataStart + h.len]? ≠ some nl then .malformed
      else
        .record
          { stream := h.stream
            timestamp := fromMillis h.ms
            data := (s.take (h.dataStart + h.len)).drop h.dataStart }
          (h.dataStart + h.len + 1) := by
  simpa using hh.decode []

/-- An answer other than `needMore` does not change when more bytes arrive. -/
theorem decode_append {s : Bytes} (h : decodeEventWithLen s ≠ .needMore) (more : Bytes) :
    decodeEventWithLen (s ++ more) = decodeEventWithLen s := by
  rcases header_cases s with ⟨hn, -⟩ | hm | ⟨hd, hh⟩
  · exact absurd hn h
  · have := hm []
    rw [List.append_nil] at this
    rw [hm more, this]
  · have hlen : ¬ s.length < hd.dataStart + hd.len + 1 := fun hlt =>
      h (hh.decode_self.trans (if_pos hlt))
    rw [hh.decode more, hh.decode_self, if_neg hlen, if_neg (by rw [List.length_append]; omega),
      List.getElem?_append_left (by omega), List.take_append_of_le_length (by omega)]

/-- A record is at least one byte long, lies in the buffer and ends with a newline. -/
theorem decode_record_ends {s : Bytes} {e : LogEntry} {n : Nat}
    (h : decodeEventWithLen s = .record e n) : 0 < n ∧ n ≤ s.length ∧ s[n - 1]? = some nl := by
  rcases header_cases s with ⟨hn, -⟩ | hm | ⟨hd, hh⟩
  · rw [hn] at h; cases h
  · have := hm []
    rw [List.append_nil, h] at this
    cases this
  · rw [hh.decode_self] at h
    split at h
    · cases h
    · split at h
      · cases h
      · rename_i hnl
        cases h
        exact ⟨Nat.succ_pos _, by omega, not_not.mp hnl⟩

theorem decode_record_width {s : Bytes} {e : LogEntry} {n : Nat}
    (h : decodeEventWithLen s = .record e n) : 0 < n ∧ n ≤ s.length :=
  ⟨(decode_record_ends h).1, (decode_record_ends h).2.1⟩

theorem resyncOffset_append {buf : Bytes} {n : Nat} (h : resyncOffset buf = some n) (more : Bytes) :
    resyncOffset (buf ++ more) = some n := by
  obtain ⟨i, hi, rfl⟩ := Option.map_eq_some_iff.mp h
  rw [resyncOffset, findIdx?_append_some hi]
  rfl

theorem resyncOffset_width {buf : Bytes} {n : Nat} (h : resyncOffset buf = some n) :
    0 < n ∧ n ≤ buf.length := by
  obtain ⟨i, hi, rfl⟩ := Option.map_eq_some_iff.mp h
  have := findIdx?_lt hi
  omega

/-- What one iteration of a decode loop does at the front of the buffer. -/
def eventFront (buf : Bytes) : Front LogEntry :=
  match decodeEventWithLen buf with
  | .record entry consumed => .item entry consumed
  | .needMore => .wait
  | .malformed =>
    match resyncOffset buf with
    | some skip => .skip skip
    | none => .wait

theorem eventFront_width {buf : Bytes} (h : eventFront buf ≠ .wait) :
    0 < (eventFront buf).width ∧ (eventFront buf).width ≤ buf.length := by
  unfold eventFront at h ⊢
  cases hd : decodeEventWithLen buf with
  | record e n => exact decode_record_width hd
  | needMore => rw [hd] at h; exact absurd rfl h
  | malformed =>
    rw [hd] at h
    cases hr : resyncOffset buf with
    | none => rw [hr] at h; exact absurd rfl h
    | some n => exact resyncOffset_width hr

theorem eventFront_stable {buf : Bytes} (more : Bytes) (h : eventFront buf ≠ .wait) :
    eventFront (buf ++ more) = eventFront buf := by
  have hn : decodeEventWithLen buf ≠ .needMore := fun e => h (by simp only [eventFront, e])
  unfold eventFront at h ⊢
  rw [decode_append hn more]
  cases hd : decodeEventWithLen buf with
  | record e n => rfl
  | needMore => rfl
  | malformed =>
    rw [hd] at h
    cases hr : resyncOffset buf with
    | none => rw [hr] at h; exact absurd rfl h
    | some n => simp only [resyncOffset_append hr]

/-- The decoder both decode loops run: records, and resynchronisation past malformed ones. -/
def eventDecoder : Decoder UInt8 LogEntry where
  front := eventFront
  width_pos _ h := eventFront_width h
  stable _ more h := eventFront_stable more h

theorem eventFront_nil : eventDecoder.front [] = .wait := rfl

theorem scan_nil : eventDecoder.scan [] = ([], []) := Decoder.scan_wait eventFront_nil

theorem front_record {buf : Bytes} {e : LogEntry} {n : Nat}
    (h : decodeEventWithLen buf = .record e n) : eventDecoder.front buf = .item e n := by
  show eventFront buf = _
  simp only [eventFront, h]

theorem front_needMore {buf : Bytes} (h : decodeEventWithLen buf = .needMore) :
    eventDecoder.front buf = .wait := by
  show eventFront buf = _
  simp only [eventFront, h]

theorem front_resync {buf : Bytes} {n : Nat} (h : decodeEventWithLen buf = .malformed)
    (hr : resyncOffset buf = some n) : eventDecoder.front buf = .skip n := by
  show eventFront buf = _
  simp only [eventFront, h, hr]

theorem front_stuck {buf : Bytes} (h : decodeEventWithLen buf = .malformed)
    (hr : resyncOffset buf = none) : eventDecoder.front buf = .wait := by
  show eventFront buf = _
  simp only [eventFront, h, hr]

/-! ## Records and their encoding -/

/-- A record as it is handed to `encodeRecordInto`, with a payload the decoder accepts. -/
structure Record where
  timestamp : SystemTime
  stream : LogStream
  data : Bytes
  data_le : data.length ≤ maxRecordBytes
  deriving DecidableEq

namespace Record

def encode (r : Record) : Bytes := encodeRecordInto [] r.timestamp r.stream r.data

/-- What a reader gets back: the timestamp in whole milliseconds. -/
def entry (r : Record) : LogEntry where
  stream := r.stream
  timestamp := fromMillis (unixMillis r.timestamp)
  data := r.data

end Record

theorem encodeRecordInto_eq (buf : Bytes) (r : Record) :
    encodeRecordInto buf r.timestamp r.stream r.data = buf ++ r.encode := by
  simp [Record.encode, encodeRecordInto]

theorem unixMillis_lt (t : Int) : unixMillis t < u64Bound := by
  unfold unixMillis u64Bound
  split
  · omega
  · split <;> omega

theorem ofChar_char (s : LogStream) : LogStream.ofChar s.char = some s := by
  cases s <;> rfl

theorem findIdx?_sp {m rest : Bytes} (hm : sp ∉ m) :
    (m ++ sp :: rest).findIdx? (· == sp) = some m.length := by
  rw [List.findIdx?_append, List.findIdx?_eq_none_iff.mpr]
  · simp [List.findIdx?_cons]
  · intro x hx
    simp only [beq_eq_false_iff_ne, ne_eq]
    exact fun e => hm (e ▸ hx)

theorem sp_not_mem_decimal (n : Nat) : sp ∉ decimal n := not_mem_decimal (.inl (by decide))

theorem parseField_decimal {n : Nat} (h : n < u64Bound) : parseField (decimal n) = some n :=
  parseUint_decimal h

/-- **A whole record at the front of a buffer is decoded, whatever follows it.** -/
theorem decode_encode (r : Record) (rest : Bytes) :
    decodeEventWithLen (r.encode ++ rest) = .record r.entry r.encode.length := by
  obtain ⟨t, st, data, hle⟩ := r
  have hlen : data.length < u64Bound := by
    have : maxRecordBytes < u64Bound := by decide
    omega
  simp only [Record.encode, encodeRecordInto, Record.entry, List.nil_append]
  generalize hm : decimal (unixMillis t) = m
  generalize hl : decimal data.length = l
  have hms : sp ∉ m := hm ▸ sp_not_mem_decimal _
  have hls : sp ∉ l := hl ▸ sp_not_mem_decimal _
  have pm : parseField m = some (unixMillis t) := hm ▸ parseField_decimal (unixMillis_lt t)
  have pl : parseField l = some data.length := hl ▸ parseField_decimal hlen
  have e : m ++ [sp] ++ [st.char] ++ [sp] ++ l ++ [sp] ++ data ++ [nl] ++ rest =
      m ++ sp :: st.char :: sp :: (l ++ sp :: (data ++ nl :: rest)) := by simp
  have es : m ++ sp :: st.char :: sp :: (l ++ sp :: (data ++ nl :: rest)) =
      (m ++ [sp, st.char, sp] ++ l ++ [sp]) ++ (data ++ nl :: rest) := by simp
  have el : (m ++ [sp, st.char, sp] ++ l ++ [sp]).length = m.length + 1 + 2 + l.length + 1 := by
    simp only [List.length_append, List.length_cons, List.length_nil]
  have ed : (m ++ sp :: st.char :: sp :: (l ++ sp :: (data ++ nl :: rest))).drop (m.length + 1) =
      st.char :: sp :: (l ++ sp :: (data ++ nl :: rest)) := by
    rw [← List.drop_drop, List.drop_left]; rfl
  rw [e]
  unfold decodeEventWithLen
  simp only [findIdx?_sp hms, List.take_left, pm, ed, ne_eq, not_true_eq_false, if_false,
    ofChar_char, findIdx?_sp hls, pl]
  rw [if_neg (by omega), es, ← el, if_neg (by simp; omega)]
  rw [List.getElem?_append_right (by omega), Nat.add_sub_cancel_left,
    List.getElem?_append_right (by omega), Nat.sub_self, if_neg (by simp)]
  rw [List.take_append, List.take_of_length_le (by omega), Nat.add_sub_cancel_left,
    List.take_left, List.drop_left]
  congr 1
  simp only [List.length_append, List.length_cons, List.length_nil]

/-- The record encoding as frames of the event decoder. -/
def recordFrames : Frames eventDecoder Record where
  enc := Record.encode
  val := Record.entry
  front_enc r rest := front_record (decode_encode r rest)

/-- The bytes of a list of records, as a batch holds them. -/
abbrev encodeAll (rs : List Record) : Bytes := recordFrames.encAll rs

theorem encodeAll_append (rs more : List Record) :
    encodeAll (rs ++ more) = encodeAll rs ++ encodeAll more := recordFrames.encAll_append rs more

theorem scan_encodeAll (rs : List Record) :
    eventDecoder.scan (encodeAll rs) = (rs.map Record.entry, []) := by
  have h := recordFrames.scan_encAll rs []
  rwa [scan_nil, List.append_nil, List.append_nil] at h

end ContainerdManager.Logs
