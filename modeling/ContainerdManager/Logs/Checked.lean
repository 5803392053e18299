import ContainerdManager.Lib.Slices
import ContainerdManager.Logs.Follower

/-!
# Bounds of the record decoder

`decodeEventChecked` is `decode_event_with_len` of `src/logs.rs` with every
slice and index checked: `none` stands for the panic of one that is out of
bounds. `decodeEventChecked_eq` says that it never happens and that the
unchecked model of `Logs.Record` computes the same answer. The loops over
the decoder then move on by at least one byte or stop.
-/

namespace ContainerdManager.Logs

open Lib

def decodeEventChecked (s : Bytes) : Option Decoded :=
  match s.findIdx? (· == sp) with
  | none => some .needMore
  | some space1 =>
    (slice? s 0 space1).bind fun msStr =>
      match parseField msStr with
      | none => some .malformed
      | some ms =>
        (slice? s (space1 + 1) s.length).bind fun afterMs =>
          match afterMs[0]? with
          | none => some .needMore
          | some streamChar =>
            if afterMs.length < 2 then some .needMore
            else
              (afterMs[1]?).bind fun sep =>
                if sep ≠ sp then some .malformed
                else
                  match LogStream.ofChar streamChar with
                  | none => some .malformed
                  | some stream =>
                    (slice? afterMs 2 afterMs.length).bind fun afterStream =>
                      match afterStream.findIdx? (· == sp) with
                      | none => some .needMore
                      | some space2 =>
                        (slice? afterStream 0 space2).bind fun lenStr =>
                          match parseField lenStr with
                          | none => some .malformed
                          | some len =>
                            if len > maxRecordBytes then some .malformed
                            else
                              let dataAbsStart := space1 + 1 + 2 + space2 + 1
                              let dataAbsEnd := dataAbsStart + len
                              if s.length < dataAbsEnd + 1 then some .needMore
                              else
                                (s[dataAbsEnd]?).bind fun terminator =>
                                  if terminator ≠ nl then some .malformed
                                  else
                                    (slice? s dataAbsStart dataAbsEnd).map fun data =>
                                      .record
                                        { stream := stream
                                          timestamp := fromMillis ms
                                          data := data }
                                        (dataAbsEnd + 1)

/-- **Every slice and index of the decoder is in bounds.** -/
theorem decodeEventChecked_eq (s : Bytes) :
    decodeEventChecked s = some (decodeEventWithLen s) := by
  unfold decodeEventChecked decodeEventWithLen
  cases h1 : s.findIdx? (· == sp) with
  | none => rfl
  | some space1 =>
    have l1 := findIdx?_lt h1
    simp only [slice?_take (Nat.le_of_lt l1), slice?_drop (Nat.succ_le_of_lt l1),
      Option.bind_some]
    cases parseField (s.take space1) with
    | none => rfl
    | some ms =>
      cases h3 : s.drop (space1 + 1) with
      | nil => rfl
      | cons streamChar rest =>
        cases rest with
        | nil => rfl
        | cons sep afterStream =>
          have hd : slice? (streamChar :: sep :: afterStream) 2
              (streamChar :: sep :: afterStream).length = some afterStream :=
            slice?_drop (by simp)
          simp only [List.getElem?_cons_zero, List.getElem?_cons_succ, Option.bind_some, hd,
            if_neg (show ¬ (streamChar :: sep :: afterStream).length < 2 by simp)]
          by_cases h4 : sep ≠ sp
          · rw [if_pos h4, if_pos h4]
          rw [if_neg h4, if_neg h4]
          cases LogStream.ofChar streamChar with
          | none => rfl
          | some stream =>
            cases h6 : afterStream.findIdx? (· == sp) with
            | none => rfl
            | some space2 =>
              simp only [slice?_take (Nat.le_of_lt (findIdx?_lt h6)), Option.bind_some]
              cases parseField (afterStream.take space2) with
              | none => rfl
              | some len =>
                simp only
                by_cases h8 : len > maxRecordBytes
                · rw [if_pos h8, if_pos h8]
                rw [if_neg h8, if_neg h8]
                by_cases h9 : s.length < space1 + 1 + 2 + space2 + 1 + len + 1
                · rw [if_pos h9, if_pos h9]
                rw [if_neg h9, if_neg h9]
                -- the payload and its terminator are in the buffer
                have hend : space1 + 1 + 2 + space2 + 1 + len < s.length := by omega
                rw [slice?_of_le (by omega) (by omega), List.getElem?_eq_getElem hend]
                simp only [Option.bind_some, Option.map_some, ne_eq, Option.some.injEq]
                split <;> rfl

/-- The payload of a decoded record is bounded and lies inside the bytes it takes. -/
theorem decode_record_data {s : Bytes} {e : LogEntry} {n : Nat}
    (h : decodeEventWithLen s = .record e n) :
    e.data.length ≤ maxRecordBytes ∧ e.data <:+: s.take n := by
  rcases header_cases s with ⟨hn, -⟩ | hm | ⟨hd, hh⟩
  · rw [hn] at h; cases h
  · have := hm []
    rw [List.append_nil, h] at this
    cases this
  · rw [hh.decode_self] at h
    split at h
    · cases h
    · split at h
      · cases h
      · cases h
        refine ⟨?_, slice_infix_take s (Nat.le_succ _)⟩
        have := hh.len_le
        rw [List.length_drop, List.length_take]
        omega

/-! ## The loops over the decoder -/

/-- An iteration of `parse_events_file` stops, or goes on behind at least one more byte. -/
theorem parseLoop_step (bytes : Bytes) (cursor : Nat) (out : List LogEntry) :
    (∀ fuel, parseLoop bytes (fuel + 1) cursor out = (out, cursor)) ∨
      ∃ n out', 0 < n ∧ cursor + n ≤ bytes.length ∧ ∀ fuel,
        parseLoop bytes (fuel + 1) cursor out = parseLoop bytes fuel (cursor + n) out' := by
  by_cases hlt : cursor < bytes.length
  · cases hdec : decodeEventWithLen (bytes.drop cursor) with
    | record e n =>
      have hw := decode_record_width hdec
      rw [List.length_drop] at hw
      refine .inr ⟨n, out ++ [e], hw.1, by omega, fun fuel => ?_⟩
      simp only [parseLoop, if_pos hlt, hdec]
    | needMore => exact .inl fun fuel => by simp only [parseLoop, if_pos hlt, hdec]
    | malformed =>
      cases hr : resyncOffset (bytes.drop cursor) with
      | none => exact .inl fun fuel => by simp only [parseLoop, if_pos hlt, hdec, hr]
      | some n =>
        have hw := resyncOffset_width hr
        rw [List.length_drop] at hw
        refine .inr ⟨n, out, hw.1, by omega, fun fuel => ?_⟩
        simp only [parseLoop, if_pos hlt, hdec, hr]
  · exact .inl fun fuel => by simp only [parseLoop, if_neg hlt]

/-- An iteration of the decode loop of a poll stops, or goes on behind at least one more byte. -/
theorem pollLoop_step (bytes : Bytes) (cursor : Nat) (tx : Sender) :
    (∃ outcome, ∀ fuel, pollLoop bytes (fuel + 1) cursor tx = (outcome, cursor, tx)) ∨
      ∃ n tx', 0 < n ∧ cursor + n ≤ bytes.length ∧ ∀ fuel,
        pollLoop bytes (fuel + 1) cursor tx = pollLoop bytes fuel (cursor + n) tx' := by
  by_cases hlt : cursor < bytes.length
  · cases hdec : decodeEventWithLen (bytes.drop cursor) with
    | record e n =>
      have hw := decode_record_width hdec
      rw [List.length_drop] at hw
      cases hs : tx.send e with
      | none => exact .inl ⟨.receiverDropped, fun fuel => by
          simp only [pollLoop, if_pos hlt, hdec, hs]⟩
      | some tx' =>
        refine .inr ⟨n, tx', hw.1, by omega, fun fuel => ?_⟩
        simp only [pollLoop, if_pos hlt, hdec, hs]
    | needMore => exact .inl ⟨.continue, fun fuel => by simp only [pollLoop, if_pos hlt, hdec]⟩
    | malformed =>
      cases hr : resyncOffset (bytes.drop cursor) with
      | none =>
        exact .inl ⟨.continue, fun fuel => by simp only [pollLoop, if_pos hlt, hdec, hr]⟩
      | some n =>
        have hw := resyncOffset_width hr
        rw [List.length_drop] at hw
        refine .inr ⟨n, tx, hw.1, by omega, fun fuel => ?_⟩
        simp only [pollLoop, if_pos hlt, hdec, hr]
  · exact .inl ⟨.continue, fun fuel => by simp only [pollLoop, if_neg hlt]⟩

/-- **The decoder is total and prefix-stable**, and the loops over it advance or stop. -/
theorem decodeEventWithLen_total_stable (b : Bytes) :
    decodeEventChecked b = some (decodeEventWithLen b) ∧
      (∀ entry consumed, decodeEventWithLen b = .record entry consumed →
        1 ≤ consumed ∧ consumed ≤ b.length ∧ b[consumed - 1]? = some nl ∧
          entry.data.length ≤ maxRecordBytes ∧ entry.data <:+: b.take consumed ∧
          ∀ c, decodeEventWithLen (b ++ c) = .record entry consumed) ∧
      (decodeEventWithLen b = .malformed → ∀ c, decodeEventWithLen (b ++ c) = .malformed) ∧
      (∀ cursor out,
        (∀ fuel, parseLoop b (fuel + 1) cursor out = (out, cursor)) ∨
          ∃ n out', 1 ≤ n ∧ cursor + n ≤ b.length ∧ ∀ fuel,
            parseLoop b (fuel + 1) cursor out = parseLoop b fuel (cursor + n) out') ∧
      ∀ cursor tx,
        (∃ outcome, ∀ fuel, pollLoop b (fuel + 1) cursor tx = (outcome, cursor, tx)) ∨
          ∃ n tx', 1 ≤ n ∧ cursor + n ≤ b.length ∧ ∀ fuel,
            pollLoop b (fuel + 1) cursor tx = pollLoop b fuel (cursor + n) tx' := by
  refine ⟨decodeEventChecked_eq b, ?_, ?_, parseLoop_step b, pollLoop_step b⟩
  · intro entry consumed h
    obtain ⟨hpos, hle, hnl⟩ := decode_record_ends h
    obtain ⟨hdata, hin⟩ := decode_record_data h
    refine ⟨hpos, hle, hnl, hdata, hin, fun c => ?_⟩
    rw [decode_append (by rw [h]; simp) c, h]
  · intro h c
    rw [decode_append (by rw [h]; simp) c, h]

end ContainerdManager.Logs
