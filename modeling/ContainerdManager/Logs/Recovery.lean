import ContainerdManager.Logs.Parse

/-!
# Recovery of the events reader

What `parse_events_file` makes of a file with a foreign line or a torn record
in the middle. After a line that is no record, the decoder answers malformed
(it may have to look into the next record first) and resumes on the next
line. After a torn record it resumes behind some newline of the records that
follow; in the records the tailer writes a newline is the terminator or the
byte before it, so the reader is back at a record boundary at once.
-/

namespace ContainerdManager.Logs

open Lib

/-! ## Headers and newlines -/

theorem nl_not_mem_decimal (n : Nat) : nl ∉ decimal n := not_mem_decimal (.inl (by decide))

theorem parseField_no_nl {s : Bytes} {n : Nat} (h : parseField s = some n) : nl ∉ s := fun hm => by
  have := parseUint_bytes h nl hm
  simp [nl] at this

/-- Everything of a record before its data. -/
def Record.header (r : Record) : Bytes :=
  decimal (unixMillis r.timestamp) ++ sp :: r.stream.char :: sp :: (decimal r.data.length ++ [sp])

theorem Record.encode_eq (r : Record) : r.encode = r.header ++ (r.data ++ [nl]) := by
  simp [Record.encode, encodeRecordInto, Record.header]

theorem Record.nl_not_mem_header (r : Record) : nl ∉ r.header := by
  have hc : r.stream.char ≠ nl := by cases r.stream <;> decide
  have hs : nl ≠ sp := by decide
  simp [Record.header, nl_not_mem_decimal, hc.symm, hs]

theorem Record.sp_mem_encode (r : Record) : sp ∈ r.encode := by
  simp [Record.encode_eq, Record.header]

/-- A record starts with a digit. -/
theorem Record.encode_head (r : Record) : ∃ d rest, r.encode = d :: rest ∧ d ≠ sp ∧ d ≠ nl := by
  cases hd : decimal (unixMillis r.timestamp) with
  | nil => exact absurd hd (decimal_ne_nil _)
  | cons d ds =>
    have hm : d ∈ decimal (unixMillis r.timestamp) := by rw [hd]; exact List.mem_cons_self
    refine ⟨d, _, by rw [Record.encode_eq, Record.header, hd]; rfl, ?_, ?_⟩
    · rintro rfl; exact sp_not_mem_decimal _ hm
    · rintro rfl; exact nl_not_mem_decimal _ hm

/-! ## A garbage line -/

/-- `s` begins with a complete header the decoder accepts: a `u64`, the stream, a length within
the cap, each with its space. -/
def BeginsWithHeader (s : Bytes) : Prop :=
  ∃ (m l rest : Bytes) (ms len : Nat) (stream : LogStream),
    s = m ++ sp :: stream.char :: sp :: (l ++ sp :: rest) ∧
      parseField m = some ms ∧ parseField l = some len ∧ len ≤ maxRecordBytes

/-- A field that parses has no newline in it, so it ends within the line. -/
theorem field_in_line {x rest : Bytes} {i n : Nat}
    (hi : (x ++ nl :: rest).findIdx? (· == sp) = some i)
    (hp : parseField ((x ++ nl :: rest).take i) = some n) :
    ∃ m y, x = m ++ sp :: y ∧ parseField m = some n ∧ i = m.length := by
  obtain ⟨hlt, hsp, -⟩ := List.findIdx?_eq_some_iff_getElem.mp hi
  have hb := beq_iff_eq.mp hsp
  have hle : i < x.length := by
    by_contra hge
    rcases Nat.lt_or_ge x.length i with hgt | hle
    · refine parseField_no_nl hp (List.mem_take_iff_getElem.mpr ⟨x.length, ?_, ?_⟩)
      · simp only [List.length_append, List.length_cons]; omega
      · simp
    · obtain rfl : i = x.length := by omega
      simp [sp, nl] at hb
  rw [List.getElem_append_left hle] at hb
  rw [List.take_append_of_le_length (by omega)] at hp
  refine ⟨x.take i, x.drop (i + 1), ?_, hp, ?_⟩
  · conv => lhs; rw [← List.take_append_drop i x, List.drop_eq_getElem_cons hle, hb]
  · rw [List.length_take]; omega

theorem ofChar_eq_some {c : UInt8} {stream : LogStream} (h : LogStream.ofChar c = some stream) :
    c = stream.char := by
  unfold LogStream.ofChar at h
  split at h
  · cases h; assumption
  · split at h
    · cases h; assumption
    · cases h

theorem findIdx?_of_mem {x : Bytes} (h : sp ∈ x) : ∃ i, x.findIdx? (· == sp) = some i := by
  cases hf : x.findIdx? (· == sp) with
  | none =>
    have := List.findIdx?_eq_none_iff.mp hf sp h
    simp at this
  | some i => exact ⟨i, rfl⟩

/-- **A line without a header is malformed**, also when the decoder reads on into the next line to
find its fields. -/
theorem decode_garbage {g rest : Bytes} (hh : ¬ BeginsWithHeader g) {d : UInt8} (hd : d ≠ sp)
    (hsp : sp ∈ rest) : decodeEventWithLen (g ++ nl :: d :: rest) = .malformed := by
  have hmem : ∀ x : Bytes, sp ∈ x ++ nl :: d :: rest := fun x => by simp [hsp]
  obtain ⟨space1, h1⟩ := findIdx?_of_mem (hmem g)
  unfold decodeEventWithLen
  simp only [h1]
  cases h2 : parseField ((g ++ nl :: d :: rest).take space1) with
  | none => rfl
  | some ms =>
    obtain ⟨m, y, rfl, hm, rfl⟩ := field_in_line h1 h2
    have hdrop : (m ++ sp :: y ++ nl :: d :: rest).drop (m.length + 1) = y ++ nl :: d :: rest := by
      rw [List.append_assoc, ← List.drop_drop, List.drop_left]; rfl
    simp only [hdrop]
    -- the line may end before the stream, right after it, or later
    match y with
    | [] => exact if_pos hd
    | [_] => exact if_pos (by decide)
    | c :: sep :: z =>
      simp only [List.cons_append]
      by_cases hsep : sep ≠ sp
      · exact if_pos hsep
      rw [if_neg hsep]
      cases h5 : LogStream.ofChar c with
      | none => rfl
      | some stream =>
        obtain ⟨space2, h6⟩ := findIdx?_of_mem (hmem z)
        simp only [h6]
        cases h7 : parseField ((z ++ nl :: d :: rest).take space2) with
        | none => rfl
        | some len =>
          obtain ⟨l, w, rfl, hl, -⟩ := field_in_line h6 h7
          refine if_pos (Nat.lt_of_not_le fun hle => hh ⟨m, l, w, ms, len, stream, ?_, hm, hl, hle⟩)
          rw [ofChar_eq_some h5, not_not.mp hsep]

theorem resyncOffset_line {g : Bytes} (hg : nl ∉ g) (rest : Bytes) :
    resyncOffset (g ++ nl :: rest) = some (g.length + 1) := by
  rw [resyncOffset, List.findIdx?_append, List.findIdx?_eq_none_iff.mpr]
  · simp [List.findIdx?_cons]
  · intro x hx
    simp only [beq_eq_false_iff_ne, ne_eq]
    exact fun e => hg (e ▸ hx)

/-- Records behind a line that is no record are all read. -/
theorem scan_garbage {g : Bytes} (hg : nl ∉ g) (hh : ¬ BeginsWithHeader g) (rs : List Record) :
    (eventDecoder.scan (g ++ nl :: encodeAll rs)).1 = rs.map Record.entry := by
  have hbad : ∀ r : Record, ∀ more, decodeEventWithLen (g ++ nl :: (r.encode ++ more)) =
      .malformed := by
    intro r more
    obtain ⟨d, rest, he, hd, -⟩ := r.encode_head
    have hsp := r.sp_mem_encode
    rw [he] at hsp
    rw [he]
    exact decode_garbage hh hd
      (List.mem_append_left more ((List.mem_cons.mp hsp).resolve_left hd.symm))
  have hskip : decodeEventWithLen (g ++ nl :: encodeAll rs) = .malformed →
      (eventDecoder.scan (g ++ nl :: encodeAll rs)).1 = rs.map Record.entry := fun hm => by
    rw [Decoder.scan_skip (front_resync hm (resyncOffset_line hg _)), ← List.drop_drop,
      List.drop_left, List.drop_succ_cons, List.drop_zero, scan_encodeAll]
  cases rs with
  | cons r rs => exact hskip (hbad r _)
  | nil =>
    cases hd : decodeEventWithLen (g ++ nl :: encodeAll []) with
    | needMore => rw [Decoder.scan_wait (front_needMore hd)]; rfl
    | malformed => exact hskip hd
    | record e n =>
      -- the answer would still stand with a record behind it
      have hs := decode_append (by rw [hd]; simp) lateRecord.encode
      have hm := hbad lateRecord []
      rw [List.append_nil] at hm
      rw [hd, List.append_assoc] at hs
      cases hm.symm.trans hs

/-- **A garbage line costs no record**: the records before and behind it come back in order. -/
theorem parse_garbage_line (rs1 rs2 : List Record) (g : Bytes) (hg : nl ∉ g)
    (hh : ¬ BeginsWithHeader g) :
    parseEventsFile (encodeRecords rs1 ++ g ++ [nl] ++ encodeRecords rs2) =
      (rs1 ++ rs2).map Record.entry := by
  rw [encodeRecords_eq, encodeRecords_eq, parseEventsFile_eq, List.append_assoc, List.append_assoc,
    recordFrames.scan_encAll, List.map_append]
  exact congrArg _ (scan_garbage hg hh rs2)

theorem BeginsWithHeader.three_spaces {s : Bytes} (h : BeginsWithHeader s) : 3 ≤ s.count sp := by
  obtain ⟨m, l, rest, -, -, stream, rfl, -⟩ := h
  simp only [List.count_append, List.count_cons_self, List.count_cons]
  omega

/-- A line that stops in the middle of a header, so that the decoder looks for the length in the
next record. -/
def cutHeaderLine : Bytes := [49, 50, 32, 111, 32, 51]

theorem parse_cutHeaderLine : nl ∉ cutHeaderLine ∧ ¬ BeginsWithHeader cutHeaderLine ∧
    parseEventsFile (encodeRecords [helloRecord] ++ cutHeaderLine ++ [nl] ++
      encodeRecords [helloRecord]) =
      [helloRecord.entry, helloRecord.entry] := by
  have hg : nl ∉ cutHeaderLine := by decide
  have hh : ¬ BeginsWithHeader cutHeaderLine := fun h => absurd h.three_spaces (by decide)
  exact ⟨hg, hh, parse_garbage_line [helloRecord] [helloRecord] cutHeaderLine hg hh⟩

/-! ## A torn record -/

/-- The data holds a newline at most as its last byte, as the lines the tailer writes do. -/
def Record.TailerShaped (r : Record) : Prop := nl ∉ r.data.dropLast

/-- A newline of a tailer record is its terminator or the byte before it. -/
theorem Record.TailerShaped.newline {r : Record} (h : r.TailerShaped) {i : Nat}
    (hi : r.encode[i]? = some nl) : i + 1 = r.encode.length ∨ i + 2 = r.encode.length := by
  have hlt : i < r.encode.length := by
    by_contra hge
    rw [List.getElem?_eq_none (by omega)] at hi
    cases hi
  have hfree : nl ∉ r.header ++ r.data.dropLast := by
    rw [List.mem_append, not_or]
    exact ⟨r.nl_not_mem_header, h⟩
  have hge : (r.header ++ r.data.dropLast).length ≤ i := by
    by_contra hlt'
    have hp : r.header ++ r.data.dropLast <+: r.encode := by
      rw [r.encode_eq, List.prefix_append_right_inj]
      exact (List.dropLast_prefix _).trans (List.prefix_append _ _)
    obtain ⟨t, ht⟩ := hp
    rw [← ht, List.getElem?_append_left (by omega)] at hi
    exact hfree (List.mem_of_getElem? hi)
  have hlen := congrArg List.length r.encode_eq
  simp only [List.length_append, List.length_cons, List.length_nil,
    List.length_dropLast] at hlen hge
  omega

theorem not_beginsWithHeader_nil : ¬ BeginsWithHeader [] :=
  fun h => absurd h.three_spaces (by decide)

/-- **Behind any newline of tailer records the reader is aligned again**: it reads exactly the
records that start there or later. -/
theorem scan_behind_newline {rs : List Record} (hs : ∀ r ∈ rs, r.TailerShaped) {i : Nat}
    (hi : (encodeAll rs)[i]? = some nl) :
    (eventDecoder.scan ((encodeAll rs).drop (i + 1))).1 =
      (recordFrames.startingAt rs (i + 1)).map Record.entry := by
  induction rs generalizing i with
  | nil => simp at hi
  | cons r rs ih =>
    obtain ⟨hr, hrs⟩ := List.forall_mem_cons.mp hs
    change (r.encode ++ encodeAll rs)[i]? = some nl at hi
    change (eventDecoder.scan ((r.encode ++ encodeAll rs).drop (i + 1))).1 = _
    rcases Nat.lt_or_ge i r.encode.length with hlt | hge
    · rw [List.getElem?_append_left hlt] at hi
      rw [recordFrames.startingAt_first (Nat.succ_ne_zero i) hlt]
      rcases hr.newline hi with hend | hend
      · rw [hend, List.drop_left, scan_encodeAll]
      · -- the newline ends the data: the terminator is left, an empty line
        have hlast : r.encode.drop (i + 1) = [nl] := by
          have hl : r.encode.length - 1 = (r.header ++ r.data).length := by
            rw [r.encode_eq]
            simp only [List.length_append, List.length_cons, List.length_nil]
            omega
          rw [show i + 1 = r.encode.length - 1 by omega, hl, r.encode_eq, ← List.append_assoc,
            List.drop_left]
        rw [List.drop_append_of_le_length (by omega), hlast]
        exact scan_garbage (List.not_mem_nil) not_beginsWithHeader_nil rs
    · rw [List.getElem?_append_right hge] at hi
      have hd : (r.encode ++ encodeAll rs).drop (i + 1) =
          (encodeAll rs).drop (i - r.encode.length + 1) := by
        rw [List.drop_append, List.drop_eq_nil_of_le (by omega), List.nil_append]
        congr 1; omega
      have hst : recordFrames.startingAt (r :: rs) (i + 1) =
          recordFrames.startingAt rs (i - r.encode.length + 1) := by
        rw [Frames.startingAt, if_neg (Nat.succ_ne_zero i)]
        congr 1; show i + 1 - r.encode.length = _; omega
      rw [hd, hst]
      exact ih hrs hi

/-- A torn record holds a newline only when its terminator alone is missing. -/
theorem torn_newline {r : Record} (hr : r.TailerShaped) {p : Bytes} (hp : p <+: r.encode)
    (hne : p ≠ r.encode) {i : Nat} (hi : p[i]? = some nl) : i + 1 = p.length := by
  obtain ⟨q, hq⟩ := hp
  have hlt : i < p.length := by
    by_contra hge
    rw [List.getElem?_eq_none (by omega)] at hi
    cases hi
  have hq0 : 0 < q.length := by
    rcases q with _ | ⟨b, q⟩
    · exact absurd (by simpa using hq) hne
    · exact Nat.succ_pos _
  have hlen : p.length + q.length = r.encode.length := by rw [← hq, List.length_append]
  have := hr.newline (i := i) (by rw [← hq, List.getElem?_append_left hlt]; exact hi)
  omega

/-- The same behind a torn record, with positions counted from its start. -/
theorem scan_behind_torn {r : Record} {rs : List Record} (hr : r.TailerShaped)
    (hs : ∀ r ∈ rs, r.TailerShaped) {p : Bytes} (hp : p <+: r.encode) (hne : p ≠ r.encode) {i : Nat}
    (hi : (p ++ encodeAll rs)[i]? = some nl) :
    (eventDecoder.scan ((p ++ encodeAll rs).drop (i + 1))).1 =
      (recordFrames.startingAt rs (i + 1 - p.length)).map Record.entry := by
  rcases Nat.lt_or_ge i p.length with hlt | hge
  · rw [List.getElem?_append_left hlt] at hi
    have hend := torn_newline hr hp hne hi
    rw [hend, List.drop_left, scan_encodeAll, Nat.sub_self, Frames.startingAt_zero]
  · rw [List.getElem?_append_right hge] at hi
    have hd : (p ++ encodeAll rs).drop (i + 1) = (encodeAll rs).drop (i - p.length + 1) := by
      rw [List.drop_append, List.drop_eq_nil_of_le (by omega), List.nil_append]
      congr 1; omega
    rw [hd, show i + 1 - p.length = i - p.length + 1 by omega]
    exact scan_behind_newline hs hi

theorem Record.header_spaces (r : Record) : 3 ≤ r.header.count sp := by
  simp only [Record.header, List.count_append, List.count_cons]
  simp
  omega

/-- A header that was torn off is complete, or malformed, by the end of the header behind it. -/
theorem decode_torn_header (p : Bytes) (r : Record) (more : Bytes) :
    decodeEventWithLen (p ++ r.header ++ more) = .malformed ∨ ∃ h, HeaderAt (p ++ r.header) h := by
  rcases header_cases (p ++ r.header) with ⟨-, hc⟩ | hm | hh
  · have := r.header_spaces
    rw [List.count_append] at hc
    omega
  · exact .inl (hm more)
  · exact .inr hh

/-- The header of a record found at a torn position ends before the data of the next record: text
of a log line is not read as a header. -/
theorem torn_record_header {p : Bytes} {r : Record} {more : Bytes} {e : LogEntry} {n : Nat}
    (h : decodeEventWithLen (p ++ (r.encode ++ more)) = .record e n) :
    n ≤ p.length + r.header.length + (e.data.length + 1) := by
  rw [r.encode_eq, List.append_assoc, ← List.append_assoc] at h
  rcases decode_torn_header p r (r.data ++ [nl] ++ more) with hm | ⟨hd, hh⟩
  · rw [hm] at h; cases h
  · have hfit := hh.fits
    rw [List.length_append] at hfit
    rw [hh.decode] at h
    split at h
    · cases h
    · rename_i hlen
      split at h
      · cases h
      · cases h
        simp only [List.length_drop, List.length_take]
        omega

/-- The byte before the next read position is a newline after a resynchronisation as well. -/
theorem resync_ends_line {s : Bytes} {n : Nat} (h : resyncOffset s = some n) :
    ∃ i, n = i + 1 ∧ s[i]? = some nl ∧ ∀ j < i, s[j]? ≠ some nl := by
  obtain ⟨i, hi, rfl⟩ := Option.map_eq_some_iff.mp h
  obtain ⟨hlt, hnl, hbefore⟩ := List.findIdx?_eq_some_iff_getElem.mp hi
  refine ⟨i, rfl, by rw [List.getElem?_eq_getElem hlt, beq_iff_eq.mp hnl], fun j hj hc => ?_⟩
  rw [List.getElem?_eq_getElem (by omega)] at hc
  exact hbefore j hj (by simpa using hc)

/-- The first newline of a record stream lies in its first record. -/
theorem first_newline_lt {r : Record} (rs : List Record) {i : Nat}
    (hfirst : ∀ j < i, (encodeAll (r :: rs))[j]? ≠ some nl) : i < r.encode.length := by
  by_contra hge
  have hlen := congrArg List.length r.encode_eq
  simp only [List.length_append, List.length_cons, List.length_nil] at hlen
  refine hfirst (r.header ++ r.data).length (by rw [List.length_append]; omega) ?_
  change (r.encode ++ encodeAll rs)[_]? = _
  rw [r.encode_eq, ← List.append_assoc, List.append_assoc (r.header ++ r.data),
    List.getElem?_append_right (Nat.le_refl _), Nat.sub_self]
  rfl

/-- After a malformed torn record the first record behind it is lost, or none is. -/
theorem scan_torn_malformed {r : Record} {rs : List Record} (hr : r.TailerShaped)
    (hs : ∀ r ∈ rs, r.TailerShaped) {p : Bytes} (hp : p <+: r.encode) (hne : p ≠ r.encode)
    (hm : decodeEventWithLen (p ++ encodeAll rs) = .malformed) :
    (eventDecoder.scan (p ++ encodeAll rs)).1 = rs.map Record.entry ∨
      (eventDecoder.scan (p ++ encodeAll rs)).1 = rs.tail.map Record.entry := by
  cases hres : resyncOffset (p ++ encodeAll rs) with
  | none =>
    rw [Decoder.scan_wait (front_stuck hm hres)]
    cases rs with
    | nil => exact .inl rfl
    | cons next rs =>
      have hnone := List.findIdx?_eq_none_iff.mp (Option.map_eq_none_iff.mp hres) nl
      simp [recordFrames, next.encode_eq] at hnone
  | some n =>
    obtain ⟨i, rfl, hi, hfirst⟩ := resync_ends_line hres
    rw [Decoder.scan_skip (front_resync hm hres), scan_behind_torn hr hs hp hne hi]
    rcases Nat.lt_or_ge i p.length with hlt | hge
    · rw [Nat.sub_eq_zero_of_le hlt, Frames.startingAt_zero]
      exact .inl rfl
    · cases rs with
      | nil => exact .inl rfl
      | cons next rs =>
        have hin : i - p.length < next.encode.length := by
          refine first_newline_lt rs fun j hj hc => hfirst (p.length + j) (by omega) ?_
          rw [List.getElem?_append_right (by omega), Nat.add_sub_cancel_left]
          exact hc
        rw [recordFrames.startingAt_first (by omega)
          (by show i + 1 - p.length ≤ next.encode.length; omega)]
        exact .inr rfl

/-- **Recovery after a torn write**: behind a torn record the reader yields at most one entry of its
own, the one decoded at the torn position from a header that ends before the next log line, and
then records as they were written. -/
theorem parse_torn_record (rs1 rs2 : List Record) (r : Record) (p : Bytes) (hr : r.TailerShaped)
    (hs : ∀ s ∈ rs2, s.TailerShaped) (hp : p <+: r.encode) (hne : p ≠ r.encode) :
    ∃ (X : List LogEntry) (rs2' : List Record),
      parseEventsFile (encodeRecords rs1 ++ p ++ encodeRecords rs2) =
        rs1.map Record.entry ++ X ++ rs2'.map Record.entry ∧
      X.length ≤ 1 ∧ rs2' <:+ rs2 ∧
      (decodeEventWithLen (p ++ encodeRecords rs2) = .malformed →
        X = [] ∧ (rs2' = rs2 ∨ rs2' = rs2.tail)) ∧
      (∀ e n, decodeEventWithLen (p ++ encodeRecords rs2) = .record e n →
        X = [e] ∧ rs2' = recordFrames.startingAt rs2 (n - p.length) ∧
          ∃ next ∈ rs2.head?, n ≤ p.length + next.header.length + (e.data.length + 1)) ∧
      (decodeEventWithLen (p ++ encodeRecords rs2) = .needMore → X = [] ∧ rs2' = []) := by
  have hsplit : ∀ (X : List LogEntry) (rs2' : List Record),
      (eventDecoder.scan (p ++ encodeAll rs2)).1 = X ++ rs2'.map Record.entry →
      parseEventsFile (encodeRecords rs1 ++ p ++ encodeRecords rs2) =
        rs1.map Record.entry ++ X ++ rs2'.map Record.entry := by
    intro X rs2' h
    rw [encodeRecords_eq, encodeRecords_eq, parseEventsFile_eq, List.append_assoc,
      recordFrames.scan_encAll, h, List.append_assoc]
    rfl
  rw [encodeRecords_eq rs2] at hsplit ⊢
  cases hd : decodeEventWithLen (p ++ encodeAll rs2) with
  | needMore =>
    refine ⟨[], [], hsplit _ _ ?_, by simp, List.nil_suffix, by simp, by simp, fun _ => ⟨rfl, rfl⟩⟩
    rw [Decoder.scan_wait (front_needMore hd)]
    rfl
  | malformed =>
    rcases scan_torn_malformed hr hs hp hne hd with h | h
    · exact ⟨[], rs2, hsplit _ _ h, by simp, List.suffix_refl _, fun _ => ⟨rfl, .inl rfl⟩, by
        simp, by simp⟩
    · exact ⟨[], rs2.tail, hsplit _ _ h, by simp, List.tail_suffix _, fun _ => ⟨rfl, .inr rfl⟩,
        by simp,
        by simp⟩
  | record e n =>
    obtain ⟨hn, -, hnl⟩ := decode_record_ends hd
    refine ⟨[e], recordFrames.startingAt rs2 (n - p.length), hsplit _ _ ?_, by simp,
      recordFrames.startingAt_suffix _ _, by simp, ?_, by simp⟩
    · have hrest := scan_behind_torn hr hs hp hne hnl
      rw [show n - 1 + 1 = n by omega] at hrest
      rw [Decoder.scan_item (front_record hd), hrest]
      rfl
    · rintro e' n' heq
      cases heq
      refine ⟨rfl, rfl, ?_⟩
      cases rs2 with
      | nil =>
        -- the torn record alone is not a record
        have hw := recordFrames.front_cut (c := r) hp hne
        rw [show encodeAll [] = [] from rfl, List.append_nil] at hd
        rw [front_record hd] at hw
        cases hw
      | cons next rs2 => exact ⟨next, rfl, torn_record_header hd⟩

theorem helloRecord_tailerShaped : helloRecord.TailerShaped := by
  unfold Record.TailerShaped; decide

/-- A record torn inside its data fuses with the next one and is dropped. -/
theorem parse_hello_torn_mid :
    helloRecord.TailerShaped ∧ helloRecord.encode.take 7 <+: helloRecord.encode ∧
    helloRecord.encode.take 7 ≠ helloRecord.encode ∧
    ∃ (X : List LogEntry) (rs2' : List Record),
      parseEventsFile (encodeRecords [helloRecord] ++ helloRecord.encode.take 7 ++
          encodeRecords [helloRecord, helloRecord]) =
        [helloRecord].map Record.entry ++ X ++ rs2'.map Record.entry ∧
      X = [] ∧ (rs2' = [helloRecord, helloRecord] ∨ rs2' = [helloRecord]) := by
  have hs : ∀ s ∈ [helloRecord, helloRecord], s.TailerShaped := by
    simp [helloRecord_tailerShaped]
  obtain ⟨X, rs2', hparse, -, -, hmal, -⟩ :=
    parse_torn_record [helloRecord] [helloRecord, helloRecord]
    helloRecord (helloRecord.encode.take 7) helloRecord_tailerShaped hs (List.take_prefix _ _)
      (by decide)
  exact ⟨helloRecord_tailerShaped, List.take_prefix _ _, by decide, X, rs2', hparse,
    hmal (by decide)⟩

end ContainerdManager.Logs
