import Mathlib.Computability.Language

/-!
# Words with single separators

`symbols p` is the language of the one-letter words whose letter meets `p`.
`separated p q` is the regular expression `p+ (q p+)*`: one or more letters,
in groups with one separator between them. `scanSeparated` is its automaton,
whose only state is whether a separator stands before the next letter;
`mem_separated_iff` says that it accepts the expression.
-/

namespace Lib

open Computability

variable {α : Type}

def symbols (p : α → Bool) : Language α := {w | ∃ b, p b = true ∧ w = [b]}

/-- One or more words of a language. -/
def plus (L : Language α) : Language α := L * L∗

theorem mem_symbols_mul {p : α → Bool} {L : Language α} {w : List α} :
    w ∈ symbols p * L ↔ ∃ b v, w = b :: v ∧ p b = true ∧ v ∈ L := by
  rw [Language.mem_mul]
  constructor
  · rintro ⟨u, ⟨b, hb, rfl⟩, v, hv, rfl⟩
    exact ⟨b, v, rfl, hb, hv⟩
  · rintro ⟨b, v, rfl, hb, hv⟩
    exact ⟨[b], ⟨b, hb, rfl⟩, v, hv, rfl⟩

@[simp] theorem nil_notMem_symbols_mul (p : α → Bool) (L : Language α) : [] ∉ symbols p * L := by
  intro h
  obtain ⟨b, v, hw, -⟩ := mem_symbols_mul.mp h
  cases hw

@[simp] theorem cons_mem_symbols_mul {p : α → Bool} {L : Language α} {b : α} {v : List α} :
    b :: v ∈ symbols p * L ↔ p b = true ∧ v ∈ L := by
  rw [mem_symbols_mul]
  constructor
  · rintro ⟨c, u, hw, hc, hu⟩
    cases hw
    exact ⟨hc, hu⟩
  · exact fun ⟨hb, hv⟩ => ⟨b, v, rfl, hb, hv⟩

/-- A repetition stops, or starts with one more word. -/
theorem mem_kstar_mul {L M : Language α} {w : List α} :
    w ∈ L∗ * M ↔ w ∈ M ∨ w ∈ L * (L∗ * M) := by
  conv => lhs; rw [← Language.one_add_self_mul_kstar_eq_kstar L, add_mul, one_mul, mul_assoc]
  exact Language.mem_add _ _ _

/-- `p+ (q p+)*`. -/
def separated (p q : α → Bool) : Language α :=
  plus (symbols p) * (symbols q * plus (symbols p))∗

/-- The automaton of `separated`: `prev` tells that the next letter must not be a separator. -/
def scanSeparated (p q : α → Bool) : Bool → List α → Bool
  | prev, [] => !prev
  | prev, b :: bs =>
    if p b then scanSeparated p q false bs else q b && !prev && scanSeparated p q true bs

/-- What may follow a letter of a group. -/
def afterLetter (p q : α → Bool) : Language α :=
  (symbols p)∗ * (symbols q * plus (symbols p))∗

theorem separated_eq (p q : α → Bool) : separated p q = symbols p * afterLetter p q :=
  mul_assoc _ _ _

/-- After a letter comes the end, one more letter, or a separator and a group. -/
theorem mem_afterLetter {p q : α → Bool} {w : List α} :
    w ∈ afterLetter p q ↔
      w = [] ∨ w ∈ symbols q * separated p q ∨ w ∈ symbols p * afterLetter p q := by
  have hrest : (symbols q * plus (symbols p))∗ = 1 + symbols q * separated p q := by
    conv => lhs; rw [← Language.one_add_self_mul_kstar_eq_kstar, mul_assoc]
    rfl
  rw [afterLetter, mem_kstar_mul, hrest, Language.mem_add, Language.mem_one, or_assoc, ← hrest]

/-- **The automaton accepts the expression**, from both of its states. -/
theorem mem_separated_iff {p q : α → Bool} (hpq : ∀ b, p b = true → q b = false) (w : List α) :
    (w ∈ separated p q ↔ scanSeparated p q true w = true) ∧
      (w ∈ afterLetter p q ↔ scanSeparated p q false w = true) := by
  induction w with
  | nil =>
    rw [separated_eq, mem_afterLetter]
    simp [scanSeparated]
  | cons b v ih =>
    rw [separated_eq, mem_afterLetter, cons_mem_symbols_mul, cons_mem_symbols_mul, ih.1, ih.2]
    by_cases hp : p b = true
    · simp [scanSeparated, hp, hpq b hp]
    · simp [scanSeparated, hp]

end Lib
