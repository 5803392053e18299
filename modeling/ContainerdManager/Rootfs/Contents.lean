import ContainerdManager.Snapshot.Restored
import ContainerdManager.System.Isolation
import ContainerdManager.Rootfs.Vault

/-!
# The store refines the vault

`Vault.of` forgets a world but for the root filesystem of every container and
the committed contents. `Owned` is the invariant it takes: every record names
the container's own key, and no container's key is committed. Every run of
calls, whatever fails in them, and of writes is a path of the vault.
-/

namespace ContainerdManager.Rootfs

open Lib Containerd Container Snapshot Clone ContainerdManager.System ContainerdManager.Task

variable {κ : Type}

/-! ## What is abstracted -/

def layerOf (w : World κ) (id : String) : Layer κ :=
  match w.containers.lookup id with
  | none => .absent
  | some record =>
    (w.snapshots.lookup (record.snapshotter, record.snapshotKey)).elim .lost fun snap =>
      .holds snap.content

def keptIn (w : World κ) (name : String) : Option κ :=
  (w.snapshots.lookup (defaultSnapshotter, name)).bind fun snap =>
    if snap.kind = .committed then some snap.content else none

def Vault.of (w : World κ) : Vault κ where
  layer := layerOf w
  kept := keptIn w

/-- What the call is for. -/
def cmd : Act κ → Cmd κ
  | .create _ id _ _ _ => .create id
  | .clone _ src dst _ _ => .clone src (cloneBaseFor src) dst
  | .snapshot _ src name _ => .save src name
  | .restore _ name dst _ _ => .restore name dst
  | .reset _ id name _ => .reset id name
  | .start _ id => .run id
  | .stop _ id _ => .run id
  | .delete _ id _ => .delete id
  | .deleteSnapshot _ name => .drop name
  | .write id f => .write id f

structure Owned (w : World κ) : Prop where
  records : ∀ id record, w.containers.lookup id = some record →
    record.snapshotter = defaultSnapshotter ∧ record.snapshotKey = snapshotKeyFor id
  active : ∀ id snap, w.snapshots.lookup (defaultSnapshotter, snapshotKeyFor id) = some snap →
    snap.kind = .active

section Abstraction

variable {w w' : World κ} {id name : String} {record : ContainerRecord} {snap : Snapshot κ}

theorem keptIn_eq_some {x : κ} : keptIn w name = some x ↔
    ∃ snap, w.snapshots.lookup (defaultSnapshotter, name) = some snap ∧
      snap.kind = .committed ∧ snap.content = x := by
  unfold keptIn
  cases w.snapshots.lookup (defaultSnapshotter, name) with
  | none => simp
  | some snap => simp

theorem layerOf_eq_absent : layerOf w id = .absent ↔ w.containers.lookup id = none := by
  unfold layerOf
  cases w.containers.lookup id with
  | none => simp
  | some record =>
    cases h : w.snapshots.lookup (record.snapshotter, record.snapshotKey) <;> simp [h]

theorem Owned.layerOf_of_some (h : Owned w) (hl : w.containers.lookup id = some record)
    (hs : w.snapshots.lookup (defaultSnapshotter, snapshotKeyFor id) = some snap) :
    layerOf w id = .holds snap.content := by
  obtain ⟨hsn, hkey⟩ := h.records id record hl
  simp only [layerOf, hl]
  rw [hsn, hkey, hs]
  rfl

theorem Owned.layerOf_of_none (h : Owned w) (hl : w.containers.lookup id = some record)
    (hs : w.snapshots.lookup (defaultSnapshotter, snapshotKeyFor id) = none) :
    layerOf w id = .lost := by
  obtain ⟨hsn, hkey⟩ := h.records id record hl
  simp only [layerOf, hl]
  rw [hsn, hkey, hs]
  rfl

theorem Owned.layerOf_congr (h : Owned w) (h' : Owned w')
    (hc : w'.containers.lookup id = w.containers.lookup id)
    (hs : w'.snapshots.lookup (defaultSnapshotter, snapshotKeyFor id) =
      w.snapshots.lookup (defaultSnapshotter, snapshotKeyFor id)) :
    layerOf w' id = layerOf w id := by
  cases hl : w.containers.lookup id with
  | none => rw [layerOf_eq_absent.mpr hl, layerOf_eq_absent.mpr (hc.trans hl)]
  | some record =>
    cases hsnap : w.snapshots.lookup (defaultSnapshotter, snapshotKeyFor id) with
    | none => rw [h.layerOf_of_none hl hsnap, h'.layerOf_of_none (hc.trans hl) (hs.trans hsnap)]
    | some snap =>
      rw [h.layerOf_of_some hl hsnap, h'.layerOf_of_some (hc.trans hl) (hs.trans hsnap)]

/-- No content is kept under a container's key. -/
theorem Owned.keptIn_key (h : Owned w) (id : String) : keptIn w (snapshotKeyFor id) = none := by
  cases hk : keptIn w (snapshotKeyFor id) with
  | none => rfl
  | some x =>
    obtain ⟨snap, hl, hkind, -⟩ := keptIn_eq_some.mp hk
    cases (h.active id snap hl).symm.trans hkind

theorem Vault.of_sameStore (h : SameStore w w') : Vault.of w' = Vault.of w := by
  have hr : layerOf w' = layerOf w := by
    funext id
    rw [layerOf, layerOf, h.containers, h.snapshots]
  have hk : keptIn w' = keptIn w := by
    funext name
    rw [keptIn, keptIn, h.snapshots]
  rw [Vault.of, Vault.of, hr, hk]

theorem Owned.of_sameStore (h : Owned w) (hs : SameStore w w') : Owned w' := by
  obtain ⟨hrecords, hactive⟩ := h
  rw [← hs.containers] at hrecords
  rw [← hs.snapshots] at hactive
  exact ⟨hrecords, hactive⟩

/-- What changes the record and the root snapshot of one container. -/
theorem Owned.put_of_within (id : String) {ids : String → Prop} {locs : SnapshotKey → Prop}
    (h : Owned w) (h' : Owned w') (hw : Within ids locs w w') (hids : ∀ i, ids i → i = id)
    (hlocs : ∀ key, locs (defaultSnapshotter, key) → key = snapshotKeyFor id) :
    Vault.of w' = (Vault.of w).put id (layerOf w' id) := by
  refine Vault.ext (funext fun i => ?_) (funext fun n => ?_)
  · by_cases hi : i = id
    · subst hi
      exact (Vault.put_layer ..).symm
    · rw [Vault.put_layer_of_ne _ _ _ hi]
      refine h.layerOf_congr h' (hw.records i fun hid => hi (hids i hid)) (hw.snapshots _ ?_)
      exact fun hloc => hi (snapshotKeyFor_injective (hlocs _ hloc))
  · show keptIn w' n = keptIn w n
    by_cases hn : n = snapshotKeyFor id
    · rw [hn, h.keptIn_key, h'.keptIn_key]
    · rw [keptIn, keptIn, hw.snapshots _ fun hloc => hn (hlocs n hloc)]

/-- What changes one name that is no container's key. -/
theorem Owned.keep_of (h : Owned w) (h' : Owned w') (hc : w'.containers = w.containers)
    (hname : ∀ id, name ≠ snapshotKeyFor id)
    (hs : ∀ key, key ≠ name → w'.snapshots.lookup (defaultSnapshotter, key) =
      w.snapshots.lookup (defaultSnapshotter, key)) :
    Vault.of w' = (Vault.of w).keep name (keptIn w' name) := by
  refine Vault.ext (funext fun i => ?_) (funext fun n => ?_)
  · exact h.layerOf_congr h' (by rw [hc]) (hs _ (hname i).symm)
  · by_cases hn : n = name
    · subst hn
      exact (Vault.keep_kept ..).symm
    · rw [Vault.keep_kept_of_ne _ _ _ hn]
      show keptIn w' n = keptIn w n
      rw [keptIn, keptIn, hs n hn]

end Abstraction

/-! ## The invariant -/

section Stores

variable {w w' : World κ} {snapshotter key name : String}

/-- A snapshot more or another one under the key, active if it is a container's. -/
theorem Owned.insert {snap : Snapshot κ} (h : Owned w) (hc : w'.containers = w.containers)
    (hs : w'.snapshots = w.snapshots.insert (snapshotter, key) snap)
    (hkind : (∃ id, key = snapshotKeyFor id) → snap.kind = .active) : Owned w' := by
  refine ⟨by rw [hc]; exact h.records, fun id found hl => ?_⟩
  rw [hs] at hl
  by_cases hk : (defaultSnapshotter, snapshotKeyFor id) = (snapshotter, key)
  · rw [hk, AList.lookup_insert] at hl
    cases hl
    exact hkind ⟨id, (Prod.mk.inj hk).2.symm⟩
  · rw [AList.lookup_insert_ne hk] at hl
    exact h.active id found hl

theorem Owned.erase (h : Owned w) (hc : w'.containers = w.containers)
    (hs : w'.snapshots = w.snapshots.erase (snapshotter, key)) : Owned w' := by
  refine ⟨by rw [hc]; exact h.records, fun id found hl => ?_⟩
  rw [hs] at hl
  by_cases hk : (defaultSnapshotter, snapshotKeyFor id) = (snapshotter, key)
  · rw [hk, AList.lookup_erase] at hl
    cases hl
  · rw [AList.lookup_erase_ne hk] at hl
    exact h.active id found hl

end Stores

/-! ## Requests as moves -/

/-- With the invariant, `w'` keeps it and comes from `w` by what the command may do. -/
def Moves (c : Cmd κ) (w w' : World κ) : Prop :=
  Owned w → Owned w' ∧ Does c (Vault.of w) (Vault.of w')

section Moves

variable {c : Cmd κ} {client : Client} {w w' : World κ} {id name : String}

theorem Moves.of_sameStore (hc : ∀ id f, c ≠ .write id f) (h : SameStore w w') : Moves c w w' := by
  intro h₀
  rw [Vault.of_sameStore h]
  exact ⟨h₀.of_sameStore h, .fails _ hc⟩

theorem Moves.of_calm (hc : ∀ id f, c ≠ .write id f) (h : Calm w w') : Moves c w w' :=
  .of_sameStore hc h.toSameStore

end Moves

end ContainerdManager.Rootfs
