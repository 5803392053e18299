import Mathlib.Data.List.Basic
import Mathlib.Data.List.TakeDrop

/-!
# Incremental decoding of framed streams

A `Decoder` looks at the front of a buffer and answers: an item of `n`
symbols, `n` symbols to skip, or nothing yet (`wait`). Items and skips are
stable: more symbols behind them do not change the answer. `scan` decodes
until the decoder waits; `scan_append` says that decoding does not depend on
where the stream was cut. `Frames` is an encoding the decoder inverts frame
by frame; on a cut encoding `scan` yields exactly the complete frames.
-/

namespace Lib

/-- What a decoder says of the front of a buffer. -/
inductive Front (β : Type) where
  | item (b : β) (n : Nat)
  | skip (n : Nat)
  | wait
  deriving DecidableEq, Repr

/-- How many symbols an answer takes off the front. -/
def Front.width {β : Type} : Front β → Nat
  | .item _ n | .skip n => n
  | .wait => 0

structure Decoder (α β : Type) where
  front : List α → Front β
  /-- An answer other than `wait` takes at least one symbol, all of them in the buffer. -/
  width_pos : ∀ buf, front buf ≠ .wait → 0 < (front buf).width ∧ (front buf).width ≤ buf.length
  /-- An answer other than `wait` is final. -/
  stable : ∀ buf more, front buf ≠ .wait → front (buf ++ more) = front buf

namespace Decoder

variable {α β : Type} (D : Decoder α β)

theorem drop_width_lt {buf : List α} (h : D.front buf ≠ .wait) :
    (buf.drop (D.front buf).width).length < buf.length := by
  have := D.width_pos buf h
  rw [List.length_drop]; omega

/-- Decode until the decoder waits: the items, and the symbols it waits on. -/
def scan (buf : List α) : List β × List α :=
  match _hf : D.front buf with
  | .item b n => (b :: (scan (buf.drop n)).1, (scan (buf.drop n)).2)
  | .skip n => scan (buf.drop n)
  | .wait => ([], buf)
termination_by buf.length
decreasing_by
  all_goals
    have hne : D.front buf ≠ .wait := by rw [_hf]; simp
    simpa only [_hf, Front.width] using D.drop_width_lt hne

variable {D}

theorem scan_item {buf : List α} {b : β} {n : Nat} (h : D.front buf = .item b n) :
    D.scan buf = (b :: (D.scan (buf.drop n)).1, (D.scan (buf.drop n)).2) := by
  rw [scan]
  split <;> simp_all

theorem scan_skip {buf : List α} {n : Nat} (h : D.front buf = .skip n) :
    D.scan buf = D.scan (buf.drop n) := by
  rw [scan]
  split <;> simp_all

theorem scan_wait {buf : List α} (h : D.front buf = .wait) : D.scan buf = ([], buf) := by
  rw [scan]
  split <;> simp_all

/-- Induction along the buffers `scan` visits. -/
theorem scan_induction {P : List α → Prop}
    (item : ∀ buf b n, D.front buf = .item b n → P (buf.drop n) → P buf)
    (skip : ∀ buf n, D.front buf = .skip n → P (buf.drop n) → P buf)
    (wait : ∀ buf, D.front buf = .wait → P buf) (buf : List α) : P buf := by
  induction hn : buf.length using Nat.strongRecOn generalizing buf with
  | _ n ih =>
    have hlt : D.front buf ≠ .wait → (buf.drop (D.front buf).width).length < n := fun h =>
      hn ▸ D.drop_width_lt h
    cases hf : D.front buf with
    | item b k =>
      rw [hf] at hlt
      exact item buf b k hf (ih _ (hlt (by simp)) _ rfl)
    | skip k =>
      rw [hf] at hlt
      exact skip buf k hf (ih _ (hlt (by simp)) _ rfl)
    | wait => exact wait buf hf

theorem drop_front_append {buf : List α} (h : D.front buf ≠ .wait) (more : List α) :
    (buf ++ more).drop (D.front buf).width = buf.drop (D.front buf).width ++ more :=
  List.drop_append_of_le_length (D.width_pos buf h).2

/-- **Decoding does not depend on where the stream was cut.** -/
theorem scan_append (x y : List α) :
    D.scan (x ++ y) =
      ((D.scan x).1 ++ (D.scan ((D.scan x).2 ++ y)).1, (D.scan ((D.scan x).2 ++ y)).2) := by
  induction x using scan_induction (D := D) with
  | item x b n hf ih =>
    have hne : D.front x ≠ .wait := by rw [hf]; simp
    have hd := drop_front_append hne y
    simp only [hf, Front.width] at hd
    rw [scan_item hf, scan_item ((D.stable x y hne).trans hf), hd, ih]
    rfl
  | skip x n hf ih =>
    have hne : D.front x ≠ .wait := by rw [hf]; simp
    have hd := drop_front_append hne y
    simp only [hf, Front.width] at hd
    rw [scan_skip hf, scan_skip ((D.stable x y hne).trans hf), hd, ih]
  | wait x hf => rw [scan_wait hf]; simp

/-- `scan` stops where the decoder waits. -/
theorem front_scan_snd (x : List α) : D.front (D.scan x).2 = .wait := by
  induction x using scan_induction (D := D) with
  | item x b n hf ih => rw [scan_item hf]; exact ih
  | skip x n hf ih => rw [scan_skip hf]; exact ih
  | wait x hf => rw [scan_wait hf]; exact hf

theorem scan_snd_suffix (x : List α) : (D.scan x).2 <:+ x := by
  induction x using scan_induction (D := D) with
  | item x b n hf ih => rw [scan_item hf]; exact ih.trans (List.drop_suffix _ _)
  | skip x n hf ih => rw [scan_skip hf]; exact ih.trans (List.drop_suffix _ _)
  | wait x hf => simp only [scan_wait hf, List.suffix_refl]

/-- Decoding `buf` gets to `rest` behind the items `bs`. -/
inductive Reaches (D : Decoder α β) (buf : List α) : List β → List α → Prop where
  | start : Reaches D buf [] buf
  | item {bs : List β} {rest : List α} {b : β} {n : Nat} (h : Reaches D buf bs rest)
      (hf : D.front rest = .item b n) : Reaches D buf (bs ++ [b]) (rest.drop n)
  | skip {bs : List β} {rest : List α} {n : Nat} (h : Reaches D buf bs rest)
      (hf : D.front rest = .skip n) : Reaches D buf bs (rest.drop n)

theorem Reaches.scan_eq {buf rest : List α} {bs : List β} (h : Reaches D buf bs rest) :
    D.scan buf = (bs ++ (D.scan rest).1, (D.scan rest).2) := by
  induction h with
  | start => rfl
  | item _ hf ih => rw [ih, scan_item hf, List.append_assoc]; rfl
  | skip _ hf ih => rw [ih, scan_skip hf]

theorem Reaches.trans {buf mid rest : List α} {bs cs : List β} (h : Reaches D buf bs mid)
    (h' : Reaches D mid cs rest) : Reaches D buf (bs ++ cs) rest := by
  induction h' with
  | start => rwa [List.append_nil]
  | item _ hf ih => rw [← List.append_assoc]; exact ih.item hf
  | skip _ hf ih => exact ih.skip hf

theorem reaches_scan (x : List α) : Reaches D x (D.scan x).1 (D.scan x).2 := by
  induction x using scan_induction (D := D) with
  | item x b n hf ih => rw [scan_item hf]; exact (Reaches.start.item hf).trans ih
  | skip x n hf ih => rw [scan_skip hf]; exact (Reaches.start.skip hf).trans ih
  | wait x hf => rw [scan_wait hf]; exact .start

/-- **Decoding stops at the one place it gets to where the decoder waits.** -/
theorem reaches_wait_iff {buf rest : List α} {bs : List β} (hw : D.front rest = .wait) :
    Reaches D buf bs rest ↔ D.scan buf = (bs, rest) := by
  constructor
  · intro h
    rw [h.scan_eq, scan_wait hw, List.append_nil]
  · intro h
    have := reaches_scan (D := D) buf
    rwa [h] at this

end Decoder

/-! ## Encodings the decoder inverts -/

/-- An encoding whose frames `D` decodes, whatever follows them. -/
structure Frames {α β : Type} (D : Decoder α β) (γ : Type) where
  enc : γ → List α
  val : γ → β
  front_enc : ∀ c rest, D.front (enc c ++ rest) = .item (val c) (enc c).length

namespace Frames

variable {α β γ : Type} {D : Decoder α β} (F : Frames D γ)

/-- The decoder waits on a torn frame: an answer would be final, hence that of the whole frame,
which is longer than what is there. -/
theorem front_cut {c : γ} {p : List α} (hp : p <+: F.enc c) (hne : p ≠ F.enc c) :
    D.front p = .wait := by
  by_contra hw
  obtain ⟨q, hq⟩ := hp
  have he : D.front (F.enc c) = .item (F.val c) (F.enc c).length := by
    simpa using F.front_enc c []
  have hs := D.stable p q hw
  have hlen := (D.width_pos p hw).2
  rw [hq, he] at hs
  rw [← hs, Front.width, ← hq, List.length_append] at hlen
  have : q = [] := List.length_eq_zero_iff.mp (by omega)
  exact hne (by rw [← hq, this, List.append_nil])

/-- The encoding of a list of frames. -/
def encAll (cs : List γ) : List α := cs.flatMap F.enc

@[simp] theorem encAll_nil : F.encAll [] = [] := rfl

@[simp] theorem encAll_cons (c : γ) (cs : List γ) :
    F.encAll (c :: cs) = F.enc c ++ F.encAll cs := rfl

@[simp] theorem encAll_append (cs ds : List γ) :
    F.encAll (cs ++ ds) = F.encAll cs ++ F.encAll ds := List.flatMap_append

theorem scan_enc (c : γ) (rest : List α) :
    D.scan (F.enc c ++ rest) = (F.val c :: (D.scan rest).1, (D.scan rest).2) := by
  rw [Decoder.scan_item (F.front_enc c rest), List.drop_left]

/-- **Whole frames decode to their values, whatever follows.** -/
theorem scan_encAll (cs : List γ) (rest : List α) :
    D.scan (F.encAll cs ++ rest) = (cs.map F.val ++ (D.scan rest).1, (D.scan rest).2) := by
  induction cs with
  | nil => simp
  | cons c cs ih => rw [encAll_cons, List.append_assoc, scan_enc, ih]; simp

theorem scan_cut {c : γ} {p : List α} (hp : p <+: F.enc c) (hne : p ≠ F.enc c) :
    D.scan p = ([], p) := Decoder.scan_wait (F.front_cut hp hne)

/-- The frames that lie wholly within the first `n` symbols of the encoding. -/
def complete : List γ → Nat → List γ
  | [], _ => []
  | c :: cs, n => if (F.enc c).length ≤ n then c :: complete cs (n - (F.enc c).length) else []

/-- A cut encoding scans to its complete frames and leaves the torn one, if any. -/
theorem scan_take (hnil : D.front [] = .wait) (cs : List γ) (n : Nat) :
    D.scan ((F.encAll cs).take n) =
      ((F.complete cs n).map F.val,
        ((F.encAll cs).take n).drop (F.encAll (F.complete cs n)).length) := by
  induction cs generalizing n with
  | nil => simp [complete, Decoder.scan_wait hnil]
  | cons c cs ih =>
    simp only [complete, encAll_cons]
    split
    · rename_i hle
      rw [List.take_append, List.take_of_length_le hle, scan_enc, ih]
      simp [List.drop_append]
    · rename_i hlt
      rw [List.take_append_of_le_length (by omega)]
      refine (F.scan_cut (List.take_prefix _ _) fun h => hlt ?_).trans (by simp)
      exact List.take_eq_self_iff _ |>.mp h

/-- The frames that start at symbol `n` of the encoding or later. -/
def startingAt : List γ → Nat → List γ
  | [], _ => []
  | c :: cs, n => if n = 0 then c :: cs else startingAt cs (n - (F.enc c).length)

theorem startingAt_zero (cs : List γ) : F.startingAt cs 0 = cs := by
  cases cs with
  | nil => rfl
  | cons c cs => exact if_pos rfl

theorem startingAt_suffix (cs : List γ) (n : Nat) : F.startingAt cs n <:+ cs := by
  induction cs generalizing n with
  | nil => exact List.suffix_refl _
  | cons c cs ih =>
    unfold startingAt
    split
    · exact List.suffix_refl _
    · exact (ih _).trans (List.suffix_cons c cs)

/-- Past a position inside its first frame, a stream starts with its second. -/
theorem startingAt_first {c : γ} {n : Nat} (h0 : n ≠ 0) (hn : n ≤ (F.enc c).length) (cs : List γ) :
    F.startingAt (c :: cs) n = cs := by
  rw [startingAt, if_neg h0, Nat.sub_eq_zero_of_le hn, startingAt_zero]

end Frames

end Lib
