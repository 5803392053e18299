import Mathlib.Data.List.Basic

/-!
# Unix paths

Paths as texts, joined and read the way Unix does: an absolute path replaces
what it is joined to, repeated slashes and `.` say nothing, and `..` takes
back the component before it. `resolve stack p` is the stack of components
after following `p` from `stack`, without looking at symbolic links.
-/

namespace Lib.Path

abbrev Component := List Char

/-- `base` joined with `p`. -/
def join (base p : List Char) : List Char :=
  if p.head? = some '/' then p
  else if base = [] ∨ base.getLast? = some '/' then base ++ p
  else base ++ '/' :: p

def isAbsolute (p : List Char) : Bool := p.head? = some '/'

/-- The components of a path, `..` among them. -/
def components (p : List Char) : List Component :=
  (p.splitOn '/').filter fun c => decide (c ≠ [] ∧ c ≠ ['.'])

/-- A component that is the name of an entry of a directory. -/
structure Normal (c : Component) : Prop where
  noSlash : '/' ∉ c
  ne_nil : c ≠ []
  ne_dot : c ≠ ['.']
  ne_dotdot : c ≠ ['.', '.']

theorem components_slash (p q : List Char) :
    components (p ++ '/' :: q) = components p ++ components q := by
  rw [components, List.splitOn_append_cons_self, List.filter_append]
  rfl

theorem components_normal {c : Component} (h : Normal c) : components c = [c] := by
  rw [components, List.splitOn_eq_singleton h.noSlash]
  simp [h.ne_nil, h.ne_dot]

theorem Normal.relative {c : Component} (h : Normal c) : c.head? ≠ some '/' := by
  intro he
  exact h.noSlash (List.mem_of_mem_head? he)

theorem components_nil : components [] = [] := by decide

/-- A name joined to a path adds one component to it. -/
theorem components_join {c : Component} (h : Normal c) (base : List Char) :
    components (join base c) = components base ++ [c] := by
  rw [join, if_neg h.relative]
  split
  · rename_i hb
    rcases hb with rfl | hb
    · rw [List.nil_append, components_normal h, components_nil, List.nil_append]
    · obtain ⟨front, rfl⟩ := List.getLast?_eq_some_iff.mp hb
      rw [List.append_assoc, List.singleton_append, components_slash, components_slash,
        components_nil, components_normal h, List.append_nil]
  · rw [components_slash, components_normal h]

theorem isAbsolute_join {c : Component} (h : Normal c) {base : List Char} (hb : base ≠ []) :
    isAbsolute (join base c) = isAbsolute base := by
  have hhead : ∀ more, (base ++ more).head? = base.head? := fun more => by
    cases base with
    | nil => exact absurd rfl hb
    | cons x xs => rfl
  rw [join, if_neg h.relative]
  split <;> rw [isAbsolute, hhead, isAbsolute]

/-! ## Following a path -/

/-- One component followed from a directory. -/
def follow (stack : List Component) (c : Component) : List Component :=
  if c = ['.', '.'] then stack.dropLast else stack ++ [c]

def resolve (stack : List Component) (p : List Char) : List Component :=
  (components p).foldl follow stack

theorem resolve_slash (stack : List Component) (p q : List Char) :
    resolve stack (p ++ '/' :: q) = resolve (resolve stack p) q := by
  rw [resolve, components_slash, List.foldl_append]
  rfl

theorem resolve_normal {c : Component} (h : Normal c) (stack : List Component) :
    resolve stack c = stack ++ [c] := by
  rw [resolve, components_normal h, List.foldl_cons, List.foldl_nil, follow, if_neg h.ne_dotdot]

end Lib.Path
