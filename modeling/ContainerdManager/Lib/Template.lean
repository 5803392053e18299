import Mathlib.Data.List.Basic

/-!
# Texts with holes

A `Template ι` is a text with holes named by `ι`. `fill` puts a text in
every hole; `fromHoles` are the characters of the filled text that come from
a hole and not from the template. A program that builds a text is described
by a template when the two agree for all values of the holes; then what the
values can contribute to the text is read off the template.
-/

namespace Lib

inductive Template.Piece (ι : Type) where
  | text (s : String)
  | hole (i : ι)
  deriving Repr

abbrev Template (ι : Type) := List (Template.Piece ι)

namespace Template

variable {ι : Type} (env : ι → String)

/-- A text without holes. -/
def text (s : String) : Template ι := [.text s]

def hole (i : ι) : Template ι := [.hole i]

def fill : Template ι → String
  | [] => ""
  | .text s :: t => s ++ fill t
  | .hole i :: t => env i ++ fill t

def fromHoles : Template ι → List Char
  | [] => []
  | .text _ :: t => fromHoles t
  | .hole i :: t => (env i).toList ++ fromHoles t

@[simp] theorem fill_nil : fill env ([] : Template ι) = "" := rfl

@[simp] theorem fill_text (s : String) : fill env (text s : Template ι) = s := String.append_empty

@[simp] theorem fill_hole (i : ι) : fill env (hole i) = env i := String.append_empty

@[simp] theorem fill_append (t u : Template ι) : fill env (t ++ u) = fill env t ++ fill env u := by
  induction t with
  | nil => exact String.empty_append.symm
  | cons p t ih =>
    cases p with
    | text s => rw [List.cons_append, fill, fill, ih, String.append_assoc]
    | hole i => rw [List.cons_append, fill, fill, ih, String.append_assoc]

/-- What comes from the holes comes from one of them. -/
theorem mem_fromHoles {t : Template ι} {c : Char} :
    c ∈ fromHoles env t ↔ ∃ i, .hole i ∈ t ∧ c ∈ (env i).toList := by
  induction t with
  | nil => simp [fromHoles]
  | cons p t ih =>
    cases p with
    | text s => simp [fromHoles, ih]
    | hole i =>
      simp only [fromHoles, List.mem_append, ih, List.mem_cons, Piece.hole.injEq]
      constructor
      · rintro (hc | ⟨j, hj, hc⟩)
        · exact ⟨i, .inl rfl, hc⟩
        · exact ⟨j, .inr hj, hc⟩
      · rintro ⟨j, rfl | hj, hc⟩
        · exact .inl hc
        · exact .inr ⟨j, hj, hc⟩

end Template

end Lib
