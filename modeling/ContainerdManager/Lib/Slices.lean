import Mathlib.Data.List.Basic
import Mathlib.Data.List.TakeDrop

/-!
# Checked slices

`slice? xs start stop` is the half-open range of a list, `none` where a
slice with bounds checks stops the program: a range that ends before it
starts, or past the end. A program written with it and with `xs[i]?` takes
no slice or index out of bounds on an input where its answer is `some`.
-/

namespace Lib

variable {α : Type}

/-- `xs[start..stop]`. -/
def slice? (xs : List α) (start stop : Nat) : Option (List α) :=
  if start ≤ stop ∧ stop ≤ xs.length then some ((xs.take stop).drop start) else none

theorem slice?_of_le {xs : List α} {start stop : Nat} (h1 : start ≤ stop) (h2 : stop ≤ xs.length) :
    slice? xs start stop = some ((xs.take stop).drop start) := if_pos ⟨h1, h2⟩

/-- `xs[..stop]`. -/
theorem slice?_take {xs : List α} {stop : Nat} (h : stop ≤ xs.length) :
    slice? xs 0 stop = some (xs.take stop) := by
  rw [slice?_of_le (Nat.zero_le _) h, List.drop_zero]

/-- `xs[start..]`. -/
theorem slice?_drop {xs : List α} {start : Nat} (h : start ≤ xs.length) :
    slice? xs start xs.length = some (xs.drop start) := by
  rw [slice?_of_le h (Nat.le_refl _), List.take_length]

/-- A slice lies inside every prefix that reaches its end. -/
theorem slice_infix_take (xs : List α) {start stop n : Nat} (h : stop ≤ n) :
    (xs.take stop).drop start <:+: xs.take n :=
  (List.drop_suffix _ _).isInfix.trans (List.take_prefix_take_left h).isInfix

end Lib
