import Mathlib.Data.List.Basic

/-!
# Lines of a stream

`lines d xs` cuts a list after every terminator `d` and keeps what follows
the last one apart. Cutting is incremental (`lines_append`): the rest of one
part is the front of the next. A stream may also be recorded in pieces that
hold a terminator at most as their last element; `pieces_group` puts the
pieces of a line back together.
-/

namespace Lib

variable {α : Type} [DecidableEq α]

/-- The lines of `xs`, each with its terminator, and what follows the last of them. -/
def lines (d : α) : List α → List (List α) × List α
  | [] => ([], [])
  | x :: xs =>
    if x = d then ([x] :: (lines d xs).1, (lines d xs).2)
    else
      match lines d xs with
      | ([], rest) => ([], x :: rest)
      | (l :: ls, rest) => ((x :: l) :: ls, rest)

@[simp] theorem lines_nil (d : α) : lines d [] = ([], []) := rfl

theorem lines_cons_self (d : α) (xs : List α) :
    lines d (d :: xs) = ([d] :: (lines d xs).1, (lines d xs).2) := by
  simp [lines]

/-- What a terminator-free part in front does to the lines behind it. -/
def extend (m : List α) : List (List α) × List α → List (List α) × List α
  | ([], rest) => ([], m ++ rest)
  | (l :: ls, rest) => ((m ++ l) :: ls, rest)

theorem lines_prepend {d : α} {m : List α} (h : d ∉ m) (xs : List α) :
    lines d (m ++ xs) = extend m (lines d xs) := by
  induction m with
  | nil =>
    rw [List.nil_append]
    rcases lines d xs with ⟨_ | _, _⟩ <;> rfl
  | cons x m ih =>
    have hx : x ≠ d := fun e => h (by simp [e])
    rw [List.cons_append, lines, if_neg hx, ih fun hm => h (List.mem_cons_of_mem _ hm)]
    rcases lines d xs with ⟨_ | _, _⟩ <;> rfl

theorem lines_of_not_mem {d : α} {m : List α} (h : d ∉ m) : lines d m = ([], m) := by
  have := lines_prepend h []
  rwa [List.append_nil, lines_nil, extend, List.append_nil] at this

theorem lines_line {d : α} {m : List α} (h : d ∉ m) (xs : List α) :
    lines d (m ++ d :: xs) = ((m ++ [d]) :: (lines d xs).1, (lines d xs).2) := by
  rw [lines_prepend h, lines_cons_self, extend]

omit [DecidableEq α] in
/-- Lists that are split at their last separator are equal only part by part. -/
theorem split_last {sep : α} {a b x y : List α} (hx : sep ∉ x) (hy : sep ∉ y)
    (h : a ++ sep :: x = b ++ sep :: y) : a = b ∧ x = y := by
  rcases List.append_eq_append_iff.mp h with ⟨c, rfl, hc⟩ | ⟨c, rfl, hc⟩
  · cases c with
    | nil =>
      rw [List.nil_append, List.cons.injEq] at hc
      exact ⟨(List.append_nil a).symm, hc.2⟩
    | cons d c =>
      rw [List.cons_append, List.cons.injEq] at hc
      exact absurd (hc.2 ▸ List.mem_append_right c List.mem_cons_self) hx
  · cases c with
    | nil =>
      rw [List.nil_append, List.cons.injEq] at hc
      exact ⟨List.append_nil b, hc.2.symm⟩
    | cons d c =>
      rw [List.cons_append, List.cons.injEq] at hc
      exact absurd (hc.2 ▸ List.mem_append_right c List.mem_cons_self) hy

/-- **Induction over the lines of a list.** -/
theorem lines_induction {d : α} {motive : List α → Prop}
    (rest : ∀ m, d ∉ m → motive m)
    (line : ∀ m xs, d ∉ m → motive xs → motive (m ++ d :: xs)) (xs : List α) : motive xs := by
  suffices ∀ xs m, d ∉ m → motive (m ++ xs) from this xs [] (by simp)
  intro xs
  induction xs with
  | nil => intro m hm; rw [List.append_nil]; exact rest m hm
  | cons x xs ih =>
    intro m hm
    by_cases hx : x = d
    · subst hx
      exact line m xs hm (ih [] (by simp))
    · have := ih (m ++ [x]) (by simp [hm, Ne.symm hx])
      rwa [List.append_assoc] at this

theorem lines_flatten (d : α) (xs : List α) : (lines d xs).1.flatten ++ (lines d xs).2 = xs := by
  induction xs using lines_induction (d := d) with
  | rest m hm => rw [lines_of_not_mem hm]; rfl
  | line m xs hm ih =>
    rw [lines_line hm, List.flatten_cons, List.append_assoc, ih, List.append_assoc]
    rfl

theorem lines_rest (d : α) (xs : List α) : d ∉ (lines d xs).2 := by
  induction xs using lines_induction (d := d) with
  | rest m hm => rwa [lines_of_not_mem hm]
  | line m xs hm ih => rwa [lines_line hm]

theorem lines_mem {d : α} {xs l : List α} (h : l ∈ (lines d xs).1) : ∃ m, d ∉ m ∧ l = m ++ [d] := by
  induction xs using lines_induction (d := d) with
  | rest m hm => rw [lines_of_not_mem hm] at h; cases h
  | line m xs hm ih =>
    rw [lines_line hm] at h
    rcases List.mem_cons.mp h with h | h
    · exact ⟨m, hm, h⟩
    · exact ih h

/-- **Cutting is incremental**: the rest of the first part is the front of the second. -/
theorem lines_append (d : α) (xs ys : List α) :
    lines d (xs ++ ys) =
      ((lines d xs).1 ++ (lines d ((lines d xs).2 ++ ys)).1,
        (lines d ((lines d xs).2 ++ ys)).2) := by
  induction xs using lines_induction (d := d) with
  | rest m hm => rw [lines_of_not_mem hm]; rfl
  | line m xs hm ih =>
    rw [List.append_assoc, List.cons_append, lines_line hm, ih, lines_line hm]
    rfl

/-! ## Cutting at positions -/

/-- The positions of `d` in `xs`, counted from `i`. -/
def positions (d : α) (i : Nat) : List α → List Nat
  | [] => []
  | x :: xs => if x = d then i :: positions d (i + 1) xs else positions d (i + 1) xs

theorem positions_append {d : α} {m : List α} (h : d ∉ m) (i : Nat) (xs : List α) :
    positions d i (m ++ xs) = positions d (i + m.length) xs := by
  induction m generalizing i with
  | nil => rfl
  | cons x m ih =>
    have hx : x ≠ d := fun e => h (by simp [e])
    rw [List.cons_append, positions, if_neg hx, ih fun hm => h (List.mem_cons_of_mem _ hm),
      List.length_cons]
    congr 1
    omega

/-- A loop over the positions of `d` that takes the slice behind the last one each time folds over
the lines, and ends where the last line does. -/
theorem positions_foldl {β : Type} (d : α) (f : β → List α → β) (xs pre : List α) (acc : β) :
    (positions d pre.length xs).foldl
        (fun (st : Nat × β) i => (i + 1, f st.2 (((pre ++ xs).take (i + 1)).drop st.1)))
        (pre.length, acc) =
      (pre.length + (lines d xs).1.flatten.length, (lines d xs).1.foldl f acc) := by
  induction xs using lines_induction (d := d) generalizing pre acc with
  | rest m hm =>
    have := positions_append hm pre.length []
    rw [List.append_nil] at this
    rw [this, lines_of_not_mem hm]
    rfl
  | line m xs hm ih =>
    have hpre : (pre ++ m ++ [d]).length = pre.length + m.length + 1 := by
      simp [Nat.add_assoc]
    have hcut : ((pre ++ (m ++ d :: xs)).take (pre.length + m.length + 1)).drop pre.length =
        m ++ [d] := by
      rw [← hpre, show pre ++ (m ++ d :: xs) = pre ++ m ++ [d] ++ xs by simp, List.take_left,
        List.append_assoc, List.drop_left]
    have hih := ih (pre ++ m ++ [d]) (f acc (m ++ [d]))
    rw [hpre, show pre ++ m ++ [d] ++ xs = pre ++ (m ++ d :: xs) by simp] at hih
    rw [positions_append hm, positions, if_pos rfl, List.foldl_cons, hcut, hih, lines_line hm]
    simp only [List.flatten_cons, List.length_append, List.length_singleton, List.foldl_cons]
    congr 1
    omega

/-! ## Pieces -/

/-- A part of a stream that holds a terminator at most as its last element. -/
structure Piece (d : α) (p : List α) : Prop where
  ne_nil : p ≠ []
  body : d ∉ p.dropLast

omit [DecidableEq α] in
theorem Piece.line {d : α} {m : List α} (h : d ∉ m) : Piece d (m ++ [d]) :=
  ⟨by simp, by simpa using h⟩

omit [DecidableEq α] in
theorem Piece.part {d : α} {m : List α} (h : d ∉ m) (hne : m ≠ []) : Piece d m :=
  ⟨hne, fun hm => h (List.dropLast_subset _ hm)⟩

theorem Piece.cases {d : α} {p : List α} (h : Piece d p) : d ∉ p ∨ ∃ m, d ∉ m ∧ p = m ++ [d] := by
  rcases List.eq_nil_or_concat p with e | ⟨m, x, e⟩
  · exact absurd e h.ne_nil
  · have hm : d ∉ m := by
      have := h.body
      rwa [e, List.concat_eq_append, List.dropLast_concat] at this
    rw [List.concat_eq_append] at e
    by_cases hx : x = d
    · exact .inr ⟨m, hm, hx ▸ e⟩
    · exact .inl (by simp [e, hm, Ne.symm hx])

/-- **The pieces of a stream group into its lines**: within a group only the last piece holds a
terminator, and the pieces after the last group make up the rest. -/
theorem pieces_group {d : α} {ps : List (List α)} (h : ∀ p ∈ ps, Piece d p) :
    ∃ (groups : List (List (List α))) (tail : List (List α)), ps = groups.flatten ++ tail ∧
      groups.map List.flatten = (lines d ps.flatten).1 ∧ tail.flatten = (lines d ps.flatten).2 ∧
      ∀ g ∈ groups, ∀ p ∈ g.dropLast, d ∉ p := by
  induction ps with
  | nil => exact ⟨[], [], rfl, rfl, rfl, by simp⟩
  | cons p ps ih =>
    obtain ⟨groups, tail, hps, hg, ht, hl⟩ := ih fun q hq => h q (List.mem_cons_of_mem _ hq)
    rcases (h p List.mem_cons_self).cases with hp | ⟨m, hm, rfl⟩
    · rw [List.flatten_cons, lines_prepend hp]
      rcases hls : lines d ps.flatten with ⟨_ | ⟨l, ls⟩, rest⟩
      · rw [hls] at hg ht
        obtain rfl := List.map_eq_nil_iff.mp hg
        exact ⟨[], p :: tail, by simp [hps], rfl, by simp [ht, extend], by simp⟩
      · rw [hls] at hg ht
        obtain ⟨g, gs, rfl, hgl, hgs⟩ := List.map_eq_cons_iff.mp hg
        refine ⟨(p :: g) :: gs, tail, by simp [hps], by simp [hgl, hgs, extend], ht, ?_⟩
        intro g' hg' q hq
        rcases List.mem_cons.mp hg' with rfl | hg'
        · rcases g with _ | ⟨q', g⟩
          · cases hq
          · rcases List.mem_cons.mp hq with rfl | hq
            · exact hp
            · exact hl _ List.mem_cons_self q hq
        · exact hl g' (List.mem_cons_of_mem _ hg') q hq
    · rw [List.flatten_cons, List.append_assoc, List.singleton_append, lines_line hm]
      refine ⟨[m ++ [d]] :: groups, tail, by simp [hps], by simp [hg], ht, ?_⟩
      intro g hg' q hq
      rcases List.mem_cons.mp hg' with rfl | hg'
      · cases hq
      · exact hl g hg' q hq

end Lib
