import Mathlib.Data.List.Basic
import Mathlib.Algebra.GroupWithZero.Nat
import Mathlib.Data.Nat.Init

/-!
# Numbered slots that shift up

`Slots α` is a finite chain of numbered places, each empty or holding an
`α`; a higher number is older. `rename` moves one slot's content,
`shiftFrom m top` is the state in which everything from `m` on has moved up
by one and the content of `top` is gone. Moving the slots one by one from
the top down passes through these states only (`remove_top`,
`rename_shiftFrom`), and `listing` (oldest first) loses the top slot and
nothing else on the way.
-/

namespace Lib

abbrev Slots (α : Type) := Nat → Option α

namespace Slots

variable {α β : Type}

def set (d : Slots α) (n : Nat) (v : Option α) : Slots α := fun k => if k = n then v else d k

@[simp] theorem set_self (d : Slots α) (n : Nat) (v : Option α) : d.set n v n = v := if_pos rfl

@[simp] theorem set_of_ne {n k : Nat} (h : k ≠ n) (d : Slots α) (v : Option α) :
    d.set n v k = d k :=
  if_neg h

/-- Move the content of `src` to `dst`; nothing happens when `src` is empty. -/
def rename (d : Slots α) (src dst : Nat) : Slots α :=
  match d src with
  | none => d
  | some f => (d.set dst (some f)).set src none

theorem rename_other {src dst k : Nat} (hs : k ≠ src) (hd : k ≠ dst) (d : Slots α) :
    d.rename src dst k = d k := by
  unfold rename
  cases d src with
  | none => rfl
  | some a => simp [hs, hd]

/-- The slot moved from is empty afterwards, as it may have been before. -/
theorem rename_src (src dst : Nat) (d : Slots α) : d.rename src dst src = none := by
  unfold rename
  cases h : d src with
  | none => exact h
  | some a => exact set_self _ _ _

/-- Apply a function to every content. -/
def map (f : α → β) (d : Slots α) : Slots β := fun n => (d n).map f

@[simp] theorem map_apply (f : α → β) (d : Slots α) (n : Nat) : d.map f n = (d n).map f := rfl

theorem map_set (f : α → β) (d : Slots α) (n : Nat) (v : Option α) :
    (d.set n v).map f = (d.map f).set n (v.map f) := by
  funext k
  by_cases h : k = n
  · subst h; simp
  · simp [h]

/-- Everything from slot `m` on has moved up by one, dropping the content of `top`. -/
def shiftFrom (m top : Nat) (d : Slots α) : Slots α := fun k =>
  if k < m then d k else if k = m then none else if k ≤ top then d (k - 1) else d k

theorem shiftFrom_below {m top k : Nat} (h : k < m) (d : Slots α) : d.shiftFrom m top k = d k :=
  if_pos h

theorem shiftFrom_gap (m top : Nat) (d : Slots α) : d.shiftFrom m top m = none := by
  simp [shiftFrom]

theorem shiftFrom_moved {m top k : Nat} (h : m ≤ k) (ht : k < top) (d : Slots α) :
    d.shiftFrom m top (k + 1) = d k := by
  simp [shiftFrom, show ¬ k + 1 < m by omega, show k + 1 ≠ m by omega, show k + 1 ≤ top by omega]

theorem shiftFrom_above {m top k : Nat} (hm : m ≤ top) (h : top < k) (d : Slots α) :
    d.shiftFrom m top k = d k := by
  simp [shiftFrom, show ¬ k < m by omega, show k ≠ m by omega, show ¬ k ≤ top by omega]

theorem remove_top (top : Nat) (d : Slots α) : d.set top none = d.shiftFrom top top := by
  funext k
  rcases Nat.lt_trichotomy k top with hk | rfl | hk
  · rw [set_of_ne (by omega), shiftFrom_below hk]
  · rw [set_self, shiftFrom_gap]
  · rw [set_of_ne (by omega), shiftFrom_above (Nat.le_refl _) hk]

/-- The next move of a shift: slot `m + 1` is empty by then. -/
theorem rename_shiftFrom {m top : Nat} (h : m < top) (d : Slots α) :
    (d.shiftFrom (m + 1) top).rename m (m + 1) = d.shiftFrom m top := by
  have hm : d.shiftFrom (m + 1) top m = d m := shiftFrom_below (by omega) d
  -- off the two slots involved nothing changes
  have hoff : ∀ k, k ≠ m → k ≠ m + 1 → d.shiftFrom (m + 1) top k = d.shiftFrom m top k := by
    intro k h1 h2
    rcases Nat.lt_or_ge k m with hk | hk
    · rw [shiftFrom_below (by omega), shiftFrom_below hk]
    · obtain ⟨j, rfl⟩ : ∃ j, k = j + 1 := ⟨k - 1, by omega⟩
      rcases Nat.lt_or_ge j top with hj | hj
      · rw [shiftFrom_moved (by omega) hj, shiftFrom_moved (by omega) hj]
      · rw [shiftFrom_above (by omega) (by omega), shiftFrom_above (by omega) (by omega)]
  have hup : d.shiftFrom m top (m + 1) = d m := shiftFrom_moved (Nat.le_refl _) h d
  funext k
  unfold rename
  rw [hm]
  by_cases h1 : k = m
  · subst h1
    rw [shiftFrom_gap]
    cases hd : d k with
    | none => exact hm.trans hd
    | some a => simp
  · by_cases h2 : k = m + 1
    · subst h2
      rw [hup]
      cases hd : d m with
      | none => exact shiftFrom_gap _ _ _
      | some a => simp
    · cases hd : d m with
      | none => exact hoff k h1 h2
      | some a => simp [h1, h2, hoff k h1 h2]

theorem map_shiftFrom (f : α → β) (m top : Nat) (d : Slots α) :
    (d.shiftFrom m top).map f = (d.map f).shiftFrom m top := by
  funext k
  simp only [map_apply, shiftFrom]
  split
  · rfl
  · split
    · rfl
    · split <;> rfl

/-- Where a slot of a shifted chain got its content. -/
theorem shiftFrom_eq_some {m top n : Nat} {d : Slots α} {a : α} (h : d.shiftFrom m top n = some a) :
    d n = some a ∨ (∃ k, n = k + 1 ∧ n ≤ top ∧ d k = some a) := by
  simp only [shiftFrom] at h
  split at h
  · exact .inl h
  · split at h
    · cases h
    · split at h
      · exact .inr ⟨n - 1, by omega, ‹_›, h⟩
      · exact .inl h

/-- The contents of slots `n, n - 1, …, 0`, oldest first. -/
def listing (d : Slots α) : Nat → List α
  | 0 => (d 0).toList
  | n + 1 => (d (n + 1)).toList ++ listing d n

theorem listing_congr {d e : Slots α} {n : Nat} (h : ∀ k ≤ n, d k = e k) :
    d.listing n = e.listing n := by
  induction n with
  | zero => simp [listing, h 0 (Nat.le_refl 0)]
  | succ n ih => simp [listing, h (n + 1) (Nat.le_refl _), ih fun k hk => h k (by omega)]

theorem listing_map (f : α → β) (d : Slots α) (n : Nat) :
    (d.map f).listing n = (d.listing n).map f := by
  induction n with
  | zero => cases h : d 0 <;> simp [listing, h]
  | succ n ih => cases h : d (n + 1) <;> simp [listing, h, ih]

/-- The contents of slots `n, …, 1`. -/
def upper (d : Slots α) : Nat → List α
  | 0 => []
  | n + 1 => (d (n + 1)).toList ++ upper d n

theorem listing_eq_upper (d : Slots α) (n : Nat) : d.listing n = d.upper n ++ (d 0).toList := by
  induction n with
  | zero => rfl
  | succ n ih => rw [listing, upper, ih, List.append_assoc]

theorem upper_set_zero (d : Slots α) (v : Option α) (n : Nat) :
    (d.set 0 v).upper n = d.upper n := by
  induction n with
  | zero => rfl
  | succ n ih => rw [upper, upper, ih, set_of_ne (by omega)]

/-- **A shift keeps everything but the top slot, in order.** -/
theorem listing_shiftFrom {m top n : Nat} (d : Slots α) (hm : m ≤ n + 1) (hn : n < top) :
    (d.shiftFrom m top).listing (n + 1) = d.listing n := by
  induction n with
  | zero =>
    rcases Nat.le_one_iff_eq_zero_or_eq_one.mp hm with rfl | rfl
    · simp [listing, shiftFrom_gap, shiftFrom_moved (Nat.le_refl 0) hn]
    · simp [listing, shiftFrom_gap, shiftFrom_below (show 0 < 1 by omega)]
  | succ n ih =>
    by_cases h : m = n + 2
    · -- the gap is at the top of this stretch: below it nothing has moved
      subst h
      rw [listing, shiftFrom_gap, listing_congr fun k hk => shiftFrom_below (by omega) d]
      rfl
    · rw [listing, ih (by omega) (by omega), shiftFrom_moved (by omega) hn]
      rfl

/-! ## Weights -/

/-- No slot up to `top` is filled above an empty one, and two that are next to each other weigh more
than `low` together. -/
def Packed (w : α → Nat) (low top : Nat) (d : Slots α) : Prop :=
  ∀ k < top, ∀ a, d (k + 1) = some a → ∃ b, d k = some b ∧ low < w a + w b

section Packed

variable {w : α → Nat} {low top : Nat} {d : Slots α}

/-- A shift of the whole chain keeps it packed when what comes to the bottom is heavy enough. -/
theorem Packed.rotate (h : Packed w low top d) {a : α} (ha : ∀ b, d 0 = some b → low < w b + w a) :
    Packed w low top ((d.shiftFrom 0 top).set 0 (some a)) := by
  intro k hk b hb
  rw [set_of_ne (by omega), shiftFrom_moved (Nat.zero_le k) hk] at hb
  cases k with
  | zero => exact ⟨a, set_self _ _ _, ha b hb⟩
  | succ k =>
    obtain ⟨c, hc, hlow⟩ := h k (by omega) b hb
    refine ⟨c, ?_, hlow⟩
    rw [set_of_ne (by omega), shiftFrom_moved (Nat.zero_le k) (by omega)]
    exact hc

/-- The bottom slot may be filled, or get heavier. -/
theorem Packed.set_bottom (h : Packed w low top d) {a : α} (ha : ∀ b, d 0 = some b → w b ≤ w a) :
    Packed w low top (d.set 0 (some a)) := by
  intro k hk b hb
  rw [set_of_ne (by omega)] at hb
  obtain ⟨c, hc, hlow⟩ := h k hk b hb
  cases k with
  | zero =>
    have := ha c hc
    exact ⟨a, set_self _ _ _, by omega⟩
  | succ k => exact ⟨c, by rwa [set_of_ne (by omega)], hlow⟩

end Packed

/-! ## Visiting slots from the top down -/

/-- The contents of the slots in a list. -/
def collect (f : α → List β) (d : Slots α) (ns : List Nat) : List β :=
  ns.flatMap fun n => (d n).toList.flatMap f

@[simp] theorem collect_nil (f : α → List β) (d : Slots α) : d.collect f [] = [] := rfl

@[simp] theorem collect_cons (f : α → List β) (d : Slots α) (n : Nat) (ns : List Nat) :
    d.collect f (n :: ns) = (d n).toList.flatMap f ++ d.collect f ns := List.flatMap_cons

theorem collect_append (f : α → List β) (d : Slots α) (ns ms : List Nat) :
    d.collect f (ns ++ ms) = d.collect f ns ++ d.collect f ms := List.flatMap_append

theorem collect_congr {f : α → List β} {d e : Slots α} {ns : List Nat}
    (h : ∀ n ∈ ns, (d n).toList.flatMap f = (e n).toList.flatMap f) :
    d.collect f ns = e.collect f ns := List.flatMap_congr h

theorem collect_set_of_not_mem (f : α → List β) (d : Slots α) {n : Nat} {ns : List Nat} (h : n ∉ ns)
    (v : Option α) : (d.set n v).collect f ns = d.collect f ns :=
  collect_congr fun k hk => by
    have hk' : k ≠ n := fun e => h (e ▸ hk)
    rw [set_of_ne hk']

/-- A move into an empty slot is invisible to a visit from the top down that has either both slots
still before it or neither. -/
theorem collect_rename (f : α → List β) (d : Slots α) {n : Nat} {ns : List Nat}
    (hgap : d (n + 1) = none) (hns : ns.Pairwise (· > ·)) (hboth : n ∈ ns ↔ n + 1 ∈ ns) :
    (d.rename n (n + 1)).collect f ns = d.collect f ns := by
  unfold rename
  cases hd : d n with
  | none => rfl
  | some a =>
    show ((d.set (n + 1) (some a)).set n none).collect f ns = d.collect f ns
    induction ns with
    | nil => rfl
    | cons x xs ih =>
      obtain ⟨hx, hxs⟩ := List.pairwise_cons.mp hns
      by_cases hx1 : x = n + 1
      · subst hx1
        -- the slot below comes right after
        obtain ⟨y, ys, rfl⟩ : ∃ y ys, xs = y :: ys := by
          cases xs with
          | nil => simp at hboth
          | cons y ys => exact ⟨y, ys, rfl⟩
        have hy := (List.pairwise_cons.mp hxs).1
        have hmem : n ∈ y :: ys := by simpa using hboth
        have hyn : y = n := by
          have hlt := hx y List.mem_cons_self
          rcases List.mem_cons.mp hmem with e | e
          · exact e.symm
          · have := hy n e; omega
        subst hyn
        have hn1 : y ∉ ys := fun h => by have := hy _ h; omega
        have hn2 : y + 1 ∉ ys := fun h => by have := hy _ h; omega
        rw [collect_cons, collect_cons, collect_cons, collect_cons, collect_set_of_not_mem f _ hn1,
          collect_set_of_not_mem f _ hn2]
        simp [hgap, hd]
      · by_cases hx2 : x = n
        · subst hx2
          have : x + 1 ∈ xs := by simpa using hboth
          have := hx _ this
          omega
        · have hboth' : n ∈ xs ↔ n + 1 ∈ xs := by
            simpa [Ne.symm hx1, Ne.symm hx2] using hboth
          rw [collect_cons, collect_cons, ih hxs hboth', set_of_ne hx2, set_of_ne hx1]

/-- Emptying a slot takes its contents out of a visit and leaves the rest in order. -/
theorem collect_erase (f : α → List β) (d : Slots α) {n : Nat} {ns : List Nat} (hn : n ∈ ns)
    (hns : ns.Nodup) :
    ∃ before after, d.collect f ns = before ++ ((d n).toList.flatMap f ++ after) ∧
      (d.set n none).collect f ns = before ++ after := by
  induction ns with
  | nil => cases hn
  | cons x xs ih =>
    obtain ⟨hx, hxs⟩ := List.nodup_cons.mp hns
    by_cases he : x = n
    · subst he
      refine ⟨[], d.collect f xs, collect_cons _ _ _ _, ?_⟩
      rw [collect_cons, set_self, collect_set_of_not_mem f d hx]
      rfl
    · obtain ⟨before, after, h, h'⟩ := ih ((List.mem_cons.mp hn).resolve_left (Ne.symm he)) hxs
      refine ⟨(d x).toList.flatMap f ++ before, after, ?_, ?_⟩
      · rw [collect_cons, h, List.append_assoc]
      · rw [collect_cons, h', set_of_ne he, List.append_assoc]

/-- A move overwrites: it is a move into the emptied slot. -/
theorem rename_erase {d : Slots α} {n : Nat} (h : (d n).isSome) :
    (d.set (n + 1) none).rename n (n + 1) = d.rename n (n + 1) := by
  obtain ⟨a, ha⟩ := Option.isSome_iff_exists.mp h
  have hn : d.set (n + 1) none n = some a := (set_of_ne (by omega) d none).trans ha
  simp only [rename, hn, ha]
  funext k
  by_cases h1 : k = n
  · subst h1; rw [set_self, set_self]
  · by_cases h2 : k = n + 1
    · subst h2; simp
    · simp [h1, h2]

end Slots

end Lib
