import ContainerdManager.Lib.Refine
import Mathlib.Logic.Function.Basic

/-!
# What the root filesystems are for

A `Vault` is what is left of the store once snapshotters, keys, parents,
labels and records are forgotten: the root filesystem of every container and
the contents kept under names. `Does` says what a command may do to it.
A command that changes layers moves them between two requests, so that one
that fails may change nothing, do its work or lose the layer of the container
it was about. No other container's layer is ever concerned, and a content that
is kept stays until its name is dropped.
-/

namespace ContainerdManager.Rootfs

open Lib

variable {κ : Type}

/-- The root filesystem of a container. -/
inductive Layer (κ : Type) where
  /-- There is no such container. -/
  | absent
  /-- The container has no root snapshot. -/
  | lost
  | holds (x : κ)
  deriving DecidableEq

def Layer.map (f : κ → κ) : Layer κ → Layer κ
  | absent => absent
  | lost => lost
  | holds x => holds (f x)

@[ext] structure Vault (κ : Type) where
  layer : String → Layer κ
  /-- What is committed: named snapshots, clone bases and the layers of images. -/
  kept : String → Option κ

namespace Vault

def put (v : Vault κ) (id : String) (r : Layer κ) : Vault κ :=
  { v with layer := Function.update v.layer id r }

def keep (v : Vault κ) (name : String) (x : Option κ) : Vault κ :=
  { v with kept := Function.update v.kept name x }

variable (v : Vault κ) (id name : String) (r : Layer κ) (x : Option κ)

@[simp] theorem keep_layer : (v.keep name x).layer = v.layer := rfl

@[simp] theorem put_layer : (v.put id r).layer id = r := Function.update_self ..

@[simp] theorem keep_kept : (v.keep name x).kept name = x := Function.update_self ..

@[simp] theorem put_put (s : Layer κ) : (v.put id r).put id s = v.put id s := by
  simp [put]

@[simp] theorem put_self : v.put id (v.layer id) = v := by
  simp [put]

@[simp] theorem keep_keep (y : Option κ) : (v.keep name x).keep name y = v.keep name y := by
  simp [keep]

theorem put_layer_of_ne {id' : String} (h : id' ≠ id) : (v.put id r).layer id' = v.layer id' :=
  Function.update_of_ne h ..

theorem keep_kept_of_ne {name' : String} (h : name' ≠ name) :
    (v.keep name x).kept name' = v.kept name' := Function.update_of_ne h ..

end Vault

/-! ## Commands -/

inductive Cmd (κ : Type) where
  | create (id : String)
  /-- A clone of `src` under `dst`, on the content kept under `base`. -/
  | clone (src base dst : String)
  | save (src name : String)
  | restore (name dst : String)
  | reset (id name : String)
  | delete (id : String)
  | drop (name : String)
  | write (id : String) (f : κ → κ)
  /-- Starting and stopping. -/
  | run (id : String)

/-- The layer of `id` is kept under a free name; the container goes on with the same content,
unless its new layer cannot be prepared. -/
inductive Commits (id name : String) (v : Vault κ) : Vault κ → Prop where
  | none : Commits id name v v
  | kept {x : κ} : v.layer id = .holds x → v.kept name = none →
      Commits id name v (v.keep name (some x))
  | lost {x : κ} : v.layer id = .holds x → v.kept name = none →
      Commits id name v ((v.keep name (some x)).put id .lost)

/-- What a command may do, whatever fails. -/
inductive Does : Cmd κ → Vault κ → Vault κ → Prop where
  | fails {c : Cmd κ} (v : Vault κ) (h : ∀ id f, c ≠ .write id f) : Does c v v
  | write (v : Vault κ) (id : String) (f : κ → κ) :
      Does (.write id f) v (v.put id ((v.layer id).map f))
  | created {v : Vault κ} {id parent : String} {x : κ} : v.layer id = .absent →
      v.kept parent = some x → Does (.create id) v (v.put id (.holds x))
  | saved {v v' : Vault κ} {src name : String} : Commits src name v v' →
      Does (.save src name) v v'
  /-- The rollback removes what the commit kept. -/
  | saveLost {v : Vault κ} {src name : String} {x : κ} : v.layer src = .holds x →
      v.kept name = none → Does (.save src name) v (v.put src .lost)
  | based {v v' : Vault κ} {src base dst : String} : Commits src base v v' →
      Does (.clone src base dst) v v'
  | cloned {v v' : Vault κ} {src base dst : String} {x : κ} : Commits src base v v' →
      v'.kept base = some x → v'.layer dst = .absent →
      Does (.clone src base dst) v (v'.put dst (.holds x))
  | restored {v : Vault κ} {name dst : String} {x : κ} : v.layer dst = .absent →
      v.kept name = some x → Does (.restore name dst) v (v.put dst (.holds x))
  | reset {v : Vault κ} {id name : String} {x : κ} : v.layer id ≠ .absent →
      v.kept name = some x → Does (.reset id name) v (v.put id (.holds x))
  | resetLost {v : Vault κ} {id name : String} : v.layer id ≠ .absent →
      Does (.reset id name) v (v.put id .lost)
  | deleted (v : Vault κ) (id : String) : Does (.delete id) v (v.put id .absent)
  /-- The root snapshot is removed, the record is not. -/
  | deleteLost {v : Vault κ} {id : String} : v.layer id ≠ .absent →
      Does (.delete id) v (v.put id .lost)
  | dropped (v : Vault κ) (name : String) : Does (.drop name) v (v.keep name none)

/-! ## What is kept -/

variable {v v' : Vault κ} {name : String} {x : κ}

theorem Commits.kept_of_kept {id key : String} (h : Commits id key v v')
    (hx : v.kept name = some x) : v'.kept name = some x := by
  have hne (hfree : v.kept key = Option.none) : name ≠ key := by
    rintro rfl
    rw [hfree] at hx
    cases hx
  cases h with
  | none => exact hx
  | kept _ hfree => exact (v.keep_kept_of_ne _ _ (hne hfree)).trans hx
  | lost _ hfree => exact (v.keep_kept_of_ne _ _ (hne hfree)).trans hx

/-- A kept content changes only when its name is dropped. -/
theorem Does.kept_of_kept {c : Cmd κ} (h : Does c v v') (hc : c ≠ .drop name)
    (hx : v.kept name = some x) : v'.kept name = some x := by
  cases h with
  | saved h | based h => exact h.kept_of_kept hx
  | cloned h _ _ => exact h.kept_of_kept hx
  | dropped => exact (v.keep_kept_of_ne _ _ (by rintro rfl; exact hc rfl)).trans hx
  | _ => exact hx

/-- **What is kept stays kept** along every path that does not drop its name. -/
theorem Path.kept {cmds : List (Cmd κ)} (h : Path Does v cmds v') (hc : .drop name ∉ cmds)
    (hx : v.kept name = some x) : v'.kept name = some x :=
  h.inv (I := fun v => v.kept name = some x) hx fun c hmem _ _ hx hdoes =>
    hdoes.kept_of_kept (by rintro rfl; exact hc hmem) hx

/-! ## Where contents come from -/

/-- Every content but that of `id` is in `S`. -/
structure Confined (S : κ → Prop) (id : String) (v : Vault κ) : Prop where
  layer : ∀ id' x, id' ≠ id → v.layer id' = .holds x → S x
  kept : ∀ name x, v.kept name = some x → S x

variable {S : κ → Prop} {id : String}

theorem Confined.put_of {r : Layer κ} (h : Confined S id v) (id' : String)
    (hr : id' ≠ id → ∀ x, r = .holds x → S x) : Confined S id (v.put id' r) := by
  refine ⟨fun i x hi hx => ?_, h.kept⟩
  by_cases he : i = id'
  · subst he
    rw [Vault.put_layer] at hx
    exact hr hi x hx
  · rw [Vault.put_layer_of_ne _ _ _ he] at hx
    exact h.layer i x hi hx

theorem Confined.keep_of {y : Option κ} (h : Confined S id v) (hy : ∀ x, y = some x → S x) :
    Confined S id (v.keep name y) := by
  refine ⟨h.layer, fun n x hx => ?_⟩
  by_cases he : n = name
  · subst he
    rw [Vault.keep_kept] at hx
    exact hy x hx
  · rw [Vault.keep_kept_of_ne _ _ _ he] at hx
    exact h.kept n x hx

theorem Commits.confined {src key : String} (h : Commits src key v v') (hsrc : src ≠ id)
    (hv : Confined S id v) : Confined S id v' := by
  cases h with
  | none => exact hv
  | kept hx _ => exact hv.keep_of fun _ h => by cases h; exact hv.layer _ _ hsrc hx
  | lost hx _ =>
    exact (hv.keep_of fun _ h => by cases h; exact hv.layer _ _ hsrc hx).put_of _ fun _ _ h => by
      cases h

/-- The command does not take the layer of `id` anywhere, and what others write is in `S`. -/
def Cmd.Confines (S : κ → Prop) (id : String) : Cmd κ → Prop
  | .save src _ | .clone src _ _ => src ≠ id
  | .write id' f => id' ≠ id → ∀ x, S x → S (f x)
  | _ => True

theorem Does.confined {c : Cmd κ} (h : Does c v v') (hc : c.Confines S id)
    (hv : Confined S id v) : Confined S id v' := by
  cases h with
  | fails => exact hv
  | write _ id' f =>
    refine hv.put_of id' fun hne x hx => ?_
    cases hr : v.layer id' with
    | holds y =>
      rw [hr] at hx
      cases hx
      exact hc hne y (hv.layer _ _ hne hr)
    | _ => rw [hr] at hx; cases hx
  | created _ hx | restored _ hx | reset _ hx =>
    exact hv.put_of _ fun _ y hy => by cases hy; exact hv.kept _ _ hx
  | saved h | based h => exact h.confined hc hv
  | cloned h hx _ =>
    have hv' := h.confined hc hv
    exact hv'.put_of _ fun _ y hy => by cases hy; exact hv'.kept _ _ hx
  | saveLost | resetLost | deleted | deleteLost => exact hv.put_of _ fun _ _ h => by cases h
  | dropped => exact hv.keep_of fun _ h => by cases h

/-- **Nothing leaves a container** that is neither saved nor cloned. -/
theorem Path.confined {cmds : List (Cmd κ)} (h : Path Does v cmds v')
    (hc : ∀ c ∈ cmds, c.Confines S id) (hv : Confined S id v) : Confined S id v' :=
  h.inv hv fun c hmem _ _ hv hdoes => hdoes.confined (hc c hmem) hv

end ContainerdManager.Rootfs
