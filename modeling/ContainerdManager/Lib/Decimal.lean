import Mathlib.Data.List.Basic

/-!
# Decimal numerals as ASCII bytes

`decimal n` prints `n`; `parseUint bound` reads an unsigned integer below
`bound` the way Rust's `FromStr` for unsigned integers does: an optional
leading `+`, then one or more digits, an error on overflow. The two are
inverse below the bound.
-/

namespace Lib

/-- The ASCII bytes of the decimal numeral of `n`. -/
def decimal (n : Nat) : List UInt8 := (Nat.toDigits 10 n).map fun c => UInt8.ofNat c.toNat

/-- The value of an ASCII digit. -/
def digit? (b : UInt8) : Option Nat :=
  if 48 ≤ b.toNat ∧ b.toNat ≤ 57 then some (b.toNat - 48) else none

/-- Accumulate digits, failing on a non-digit and as soon as the bound is reached. -/
def parseDigits (bound : Nat) : Nat → List UInt8 → Option Nat
  | acc, [] => some acc
  | acc, b :: bs =>
    match digit? b with
    | none => none
    | some d => if acc * 10 + d < bound then parseDigits bound (acc * 10 + d) bs else none

def parseUint (bound : Nat) : List UInt8 → Option Nat
  | [] => none
  | [b] => parseDigits bound 0 [b]
  -- a sign is dropped only when something follows it; `-` is an invalid digit
  | b :: c :: cs =>
    if b = 43 then parseDigits bound 0 (c :: cs) else parseDigits bound 0 (b :: c :: cs)

theorem parseUint_of_ne_plus {bound : Nat} {b : UInt8} {bs : List UInt8} (hb : b ≠ 43) :
    parseUint bound (b :: bs) = parseDigits bound 0 (b :: bs) := by
  cases bs with
  | nil => rfl
  | cons c cs => exact if_neg hb

theorem digit?_digit {c : Char} (h : c.isDigit) :
    digit? (UInt8.ofNat c.toNat) = some (c.toNat - 48) := by
  simp only [Char.isDigit, Bool.and_eq_true, decide_eq_true_eq, UInt32.le_iff_toNat_le] at h
  have h1 : 48 ≤ c.toNat := h.1
  have h2 : c.toNat ≤ 57 := h.2
  have hb : (UInt8.ofNat c.toNat).toNat = c.toNat := by
    rw [UInt8.toNat_ofNat']; omega
  rw [digit?, hb, if_pos ⟨h1, h2⟩]

theorem ofDigitChars_ge (acc : Nat) (cs : List Char) : acc ≤ Nat.ofDigitChars 10 cs acc := by
  rw [Nat.ofDigitChars_eq_ofDigitChars_zero]
  have : acc * 1 ≤ acc * 10 ^ cs.length := Nat.mul_le_mul_left acc (Nat.pow_pos (by omega))
  rw [Nat.mul_comm (10 ^ cs.length)]
  omega

/-- Digits whose value stays below the bound accumulate to that value. -/
theorem parseDigits_chars {bound acc : Nat} {cs : List Char} (hd : ∀ c ∈ cs, c.isDigit)
    (hv : Nat.ofDigitChars 10 cs acc < bound) :
    parseDigits bound acc (cs.map fun c => UInt8.ofNat c.toNat) =
      some (Nat.ofDigitChars 10 cs acc) := by
  induction cs generalizing acc with
  | nil => rfl
  | cons c cs ih =>
    have e : acc * 10 + (c.toNat - 48) = 10 * acc + (c.toNat - 48) := by omega
    rw [Nat.ofDigitChars_cons] at hv ⊢
    have hlt : 10 * acc + (c.toNat - 48) < bound := Nat.lt_of_le_of_lt (ofDigitChars_ge _ cs) hv
    simp only [List.map_cons, parseDigits, digit?_digit (hd c List.mem_cons_self), e, hlt, if_true]
    exact ih (fun c hc => hd c (List.mem_cons_of_mem _ hc)) hv

theorem isDigit_decimal {n : Nat} {c : Char} (h : c ∈ Nat.toDigits 10 n) : c.isDigit :=
  Nat.isDigit_of_mem_toDigits (by omega) (by omega) h

/-- The bytes of a numeral are the digits `0` to `9`. -/
theorem mem_decimal {n : Nat} {b : UInt8} (h : b ∈ decimal n) : 48 ≤ b.toNat ∧ b.toNat ≤ 57 := by
  obtain ⟨c, hc, rfl⟩ := List.mem_map.mp h
  have hd := digit?_digit (isDigit_decimal hc)
  unfold digit? at hd
  split at hd
  · assumption
  · cases hd

theorem not_mem_decimal {n : Nat} {b : UInt8} (h : b.toNat < 48 ∨ 57 < b.toNat) :
    b ∉ decimal n := fun hm => by
  have := mem_decimal hm
  omega

theorem decimal_ne_nil (n : Nat) : decimal n ≠ [] := by
  simp [decimal, Nat.toDigits_ne_nil]

theorem parseDigits_digits {bound acc n : Nat} {bs : List UInt8}
    (h : parseDigits bound acc bs = some n) :
    ∀ b ∈ bs, 48 ≤ b.toNat ∧ b.toNat ≤ 57 := by
  induction bs generalizing acc with
  | nil => exact List.forall_mem_nil _
  | cons b bs ih =>
    simp only [parseDigits, digit?] at h
    split at h
    · cases h
    · rename_i hd
      split at hd
      · rename_i hb
        split at h
        · exact List.forall_mem_cons.mpr ⟨hb, ih h⟩
        · cases h
      · cases hd

/-- Only a leading `+` and digits are read as a number. -/
theorem parseUint_bytes {bound n : Nat} {bs : List UInt8} (h : parseUint bound bs = some n) :
    ∀ b ∈ bs, b = 43 ∨ 48 ≤ b.toNat ∧ b.toNat ≤ 57 := by
  intro x hx
  unfold parseUint at h
  split at h
  · cases h
  · exact .inr (parseDigits_digits h x hx)
  · split at h
    · rename_i hb
      rcases List.mem_cons.mp hx with rfl | hx
      · exact .inl hb
      · exact .inr (parseDigits_digits h x hx)
    · exact .inr (parseDigits_digits h x hx)

/-- **Printing and reading are inverse below the bound.** -/
theorem parseUint_decimal {bound n : Nat} (h : n < bound) :
    parseUint bound (decimal n) = some n := by
  have hp : parseDigits bound 0 (decimal n) = some n := by
    have hv : Nat.ofDigitChars 10 (Nat.toDigits 10 n) 0 = n := Nat.ofDigitChars_ten_toDigits
    rw [decimal, parseDigits_chars (fun c hc => isDigit_decimal hc) (by rw [hv]; exact h), hv]
  cases hd : decimal n with
  | nil => exact absurd hd (decimal_ne_nil n)
  | cons b bs =>
    have hb := mem_decimal (n := n) (b := b) (by rw [hd]; exact List.mem_cons_self)
    have hne : b ≠ 43 := fun e => by subst e; simp at hb
    rw [parseUint_of_ne_plus hne, ← hd, hp]

end Lib
