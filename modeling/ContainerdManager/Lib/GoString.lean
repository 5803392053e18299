import Mathlib.Data.List.Basic

/-!
# String literals of Go

`Body cs bs rest`: behind an opening quote, `cs` is the body of an
interpreted string literal that stands for the bytes `bs`, its closing
quote, and `rest`. A body without escapes stands for itself; an escape
always stands for less than it is written with. `weight` is what makes this
precise: bytes other than double quotes, so that it does not matter where a
literal is taken to begin and end.
-/

namespace Lib.GoString

/-! ## Bytes and their weight -/

def utf8 (cs : List Char) : List UInt8 := cs.flatMap String.utf8EncodeChar

@[simp] theorem utf8_nil : utf8 [] = [] := rfl

@[simp] theorem utf8_cons (c : Char) (cs : List Char) :
    utf8 (c :: cs) = String.utf8EncodeChar c ++ utf8 cs := rfl

@[simp] theorem utf8_append (cs ds : List Char) : utf8 (cs ++ ds) = utf8 cs ++ utf8 ds :=
  List.flatMap_append

theorem utf8_injective : Function.Injective utf8 := by
  intro cs ds h
  have hbytes : cs.utf8Encode = ds.utf8Encode := by
    rw [List.utf8Encode, List.utf8Encode]
    exact congrArg _ h
  rw [← String.toByteArray_ofList, ← String.toByteArray_ofList] at hbytes
  exact String.ofList_inj.mp (String.toByteArray_inj.mp hbytes)

/-- The bytes other than double quotes. -/
def weight (bs : List UInt8) : Nat := bs.countP fun b => b ≠ 34

@[simp] theorem weight_nil : weight [] = 0 := rfl

@[simp] theorem weight_append (as bs : List UInt8) : weight (as ++ bs) = weight as + weight bs :=
  List.countP_append

theorem weight_le (bs : List UInt8) : weight bs ≤ bs.length := List.countP_le_length

/-- The weight of a text. -/
def size (cs : List Char) : Nat := weight (utf8 cs)

@[simp] theorem size_nil : size [] = 0 := rfl

@[simp] theorem size_append (cs ds : List Char) : size (cs ++ ds) = size cs + size ds := by
  simp [size]

theorem weight_utf8 (cs : List Char) : weight (utf8 cs) = size cs := rfl

theorem size_cons (c : Char) (cs : List Char) :
    size (c :: cs) = weight (String.utf8EncodeChar c) + size cs := by
  simp [size]

@[simp] theorem size_quote (cs : List Char) : size ('"' :: cs) = size cs := by
  have hquote : weight (String.utf8EncodeChar '"') = 0 := by decide
  rw [size_cons, hquote, Nat.zero_add]

theorem size_cons_one {c : Char} (hc : weight (String.utf8EncodeChar c) = 1) (cs : List Char) :
    size (c :: cs) = size cs + 1 := by
  rw [size_cons, hc, Nat.add_comm]

/-- Decided element by element, and not over all characters. -/
theorem forall_mem_of_all {α : Type} {p : α → Prop} [DecidablePred p] {l : List α}
    (h : (l.all fun a => decide (p a)) = true) : ∀ a ∈ l, p a :=
  fun a ha => of_decide_eq_true (List.all_eq_true.mp h a ha)

/-! ## Escapes -/

def simpleEscapes : List (Char × UInt8) :=
  [('a', 7), ('b', 8), ('f', 12), ('n', 10), ('r', 13), ('t', 9), ('v', 11), ('\\', 92), ('"', 34)]

def hexDigits : List (Char × Nat) :=
  "0123456789abcdef".toList.zipIdx ++ "ABCDEF".toList.zipIdx 10

def numeral (base : Nat) (ds : List Char) : Option Nat :=
  ds.foldlM (fun n d => (hexDigits.lookup d).bind fun v =>
    if v < base then some (n * base + v) else none) 0

/-- What may follow a backslash. -/
inductive Escape : List Char → List UInt8 → List Char → Prop
  | simple {c : Char} {b : UInt8} (h : (c, b) ∈ simpleEscapes) (cs : List Char) :
    Escape (c :: cs) [b] cs
  | octal {ds : List Char} {n : Nat} (hlen : ds.length = 3) (hn : numeral 8 ds = some n)
    (hbyte : n < 256) (cs : List Char) : Escape (ds ++ cs) [UInt8.ofNat n] cs
  | hex {ds : List Char} {n : Nat} (hlen : ds.length = 2) (hn : numeral 16 ds = some n)
    (cs : List Char) : Escape ('x' :: (ds ++ cs)) [UInt8.ofNat n] cs
  | unicode {letter : Char} {len : Nat} (hletter : (letter, len) ∈ [('u', 4), ('U', 8)])
    {ds : List Char} {n : Nat} (hlen : ds.length = len) (hn : numeral 16 ds = some n)
    (hchar : n.isValidChar) (cs : List Char) :
    Escape (letter :: (ds ++ cs)) (String.utf8EncodeChar (Char.ofNat n)) cs

theorem numeral_digits {base : Nat} {ds : List Char} {n : Nat} (h : numeral base ds = some n) :
    ∀ d ∈ ds, d ∈ hexDigits.map Prod.fst := by
  unfold numeral at h
  generalize 0 = acc at h
  induction ds generalizing acc with
  | nil => simp
  | cons d ds ih =>
    rw [List.foldlM_cons] at h
    cases hd : hexDigits.lookup d with
    | none => simp [hd] at h
    | some v =>
      have hmem : d ∈ hexDigits.map Prod.fst := by
        obtain ⟨l, l', hl, -⟩ := List.lookup_eq_some_iff.mp hd
        exact List.mem_map.mpr ⟨(d, v), hl ▸ List.mem_append_cons_self, rfl⟩
      by_cases hv : v < base
      · rw [hd] at h
        simp only [Option.bind_some, if_pos hv, Option.bind_eq_bind] at h
        exact List.forall_mem_cons.mpr ⟨hmem, ih _ h⟩
      · simp [hd, hv] at h

/-- Every digit weighs one. -/
theorem size_digits {ds : List Char} (h : ∀ d ∈ ds, d ∈ hexDigits.map Prod.fst) :
    size ds = ds.length := by
  have hdigit : ∀ d ∈ hexDigits.map Prod.fst, weight (String.utf8EncodeChar d) = 1 :=
    List.forall_mem_map.mpr (by decide)
  induction ds with
  | nil => rfl
  | cons d ds ih =>
    rw [size_cons_one (hdigit d (h d List.mem_cons_self)),
      ih fun d' hd => h d' (List.mem_cons_of_mem d hd), List.length_cons]

/-- An escape weighs no more than what is written after the backslash. -/
theorem Escape.weight_le {cs rest : List Char} {bs : List UInt8} (h : Escape cs bs rest) :
    weight bs + size rest ≤ size cs := by
  cases h with
  | simple h =>
    have hsimple : ∀ e ∈ simpleEscapes, weight [e.2] ≤ weight (String.utf8EncodeChar e.1) := by
      decide
    rw [size_cons]
    exact Nat.add_le_add_right (hsimple _ h) _
  | @octal ds n hlen hn =>
    have hw := GoString.weight_le [UInt8.ofNat n]
    rw [size_append, size_digits (numeral_digits hn), hlen]
    exact Nat.add_le_add_right (Nat.le_trans hw (by simp)) _
  | @hex ds n hlen hn =>
    have hw := GoString.weight_le [UInt8.ofNat n]
    rw [size_cons, size_append, size_digits (numeral_digits hn), hlen]
    rw [List.length_singleton] at hw
    omega
  | @unicode letter len hletter ds n hlen hn =>
    have hw := GoString.weight_le (String.utf8EncodeChar (Char.ofNat n))
    have hchar : (String.utf8EncodeChar (Char.ofNat n)).length ≤ 4 := by
      rw [String.length_utf8EncodeChar]
      exact Char.utf8Size_le_four _
    have hlen4 : 4 ≤ len := by
      simp only [List.mem_cons, Prod.mk.injEq, List.not_mem_nil, or_false] at hletter
      omega
    rw [size_cons, size_append, size_digits (numeral_digits hn), hlen]
    omega

/-! ## Bodies -/

/-- A character that stands for itself. -/
def PlainChar (c : Char) : Prop := c ≠ '"' ∧ c ≠ '\\' ∧ c ≠ '\n'

instance (c : Char) : Decidable (PlainChar c) := inferInstanceAs (Decidable (_ ∧ _ ∧ _))

inductive Body : List Char → List UInt8 → List Char → Prop
  | close (rest : List Char) : Body ('"' :: rest) [] rest
  | char {c : Char} {cs : List Char} {bs : List UInt8} {rest : List Char} (hc : PlainChar c)
    (h : Body cs bs rest) : Body (c :: cs) (String.utf8EncodeChar c ++ bs) rest
  | escape {cs cs' : List Char} {b bs : List UInt8} {rest : List Char} (he : Escape cs b cs')
    (h : Body cs' bs rest) : Body ('\\' :: cs) (b ++ bs) rest

theorem body_plain {body : List Char} (h : ∀ c ∈ body, PlainChar c) (rest : List Char) :
    Body (body ++ '"' :: rest) (utf8 body) rest := by
  induction body with
  | nil => exact .close rest
  | cons c body ih =>
    exact .char (h c List.mem_cons_self) (ih fun c' hc => h c' (List.mem_cons_of_mem c hc))

/-- A body without escapes is read in one way. -/
theorem Body.eq_of_plain {body rest rest' : List Char} {bs : List UInt8}
    (hplain : ∀ c ∈ body, PlainChar c) (h : Body (body ++ '"' :: rest) bs rest') :
    bs = utf8 body ∧ rest' = rest := by
  induction body generalizing bs with
  | nil =>
    cases h with
    | close => exact ⟨rfl, rfl⟩
    | char hc => exact absurd rfl hc.1
  | cons c body ih =>
    have hc := hplain c List.mem_cons_self
    cases h with
    | close => exact absurd rfl hc.1
    | char _ h =>
      obtain ⟨rfl, rfl⟩ := ih (fun c' hc => hplain c' (List.mem_cons_of_mem c hc)) h
      exact ⟨rfl, rfl⟩
    | escape => exact absurd rfl hc.2.1

/-- **A body stands for itself, or for less than it is written with.** -/
theorem Body.plain_or_lt {cs rest : List Char} {bs : List UInt8} (h : Body cs bs rest) :
    (∃ body, (∀ c ∈ body, PlainChar c) ∧ cs = body ++ '"' :: rest ∧ bs = utf8 body) ∨
      weight bs + size rest < size cs := by
  induction h with
  | close rest => exact .inl ⟨[], by simp, rfl, rfl⟩
  | @char c cs bs rest hc h ih =>
    rcases ih with ⟨body, hplain, rfl, rfl⟩ | hlt
    · exact .inl ⟨c :: body, List.forall_mem_cons.mpr ⟨hc, hplain⟩, rfl, rfl⟩
    · refine .inr ?_
      rw [weight_append, size_cons]
      omega
  | @escape cs cs' b bs rest he h ih =>
    have hle := he.weight_le
    refine .inr ?_
    rw [weight_append, size_cons_one (by decide)]
    rcases ih with ⟨body, -, rfl, rfl⟩ | hlt
    · rw [size_append, size_quote] at hle
      rw [weight_utf8]
      omega
    · omega

theorem Body.size_le {cs rest : List Char} {bs : List UInt8} (h : Body cs bs rest) :
    weight bs + size rest ≤ size cs := by
  rcases h.plain_or_lt with ⟨body, -, rfl, rfl⟩ | hlt
  · exact Nat.le_of_eq (by rw [size_append, size_quote, weight_utf8])
  · exact Nat.le_of_lt hlt

end Lib.GoString
