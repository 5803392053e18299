import ContainerdManager.Rootfs.Contents

/-!
# Every run is a path of the vault

One step lemma for each call: whatever its requests come to, it does to the
vault what its command may do. A create, a clone and a restore are split at
the record, since the root snapshot they prepare is seen only once there is
one; a snapshot and the base of a clone at their two requests; a reset and
the deletions keep a transitive relation.
-/

namespace ContainerdManager.Rootfs

open Lib Containerd Container Snapshot Clone ContainerdManager.System ContainerdManager.Task

variable {κ : Type}

/-! ## New containers -/

/-- From the root snapshot on a create fails and leaves the records alone, or writes one. -/
def Records (id : String) (m : Op κ String) (w : World κ) : Prop :=
  (∃ e w', m w = .error e w' ∧ w'.containers = w.containers) ∨
    ∃ w' record, m w = .ok id w' ∧ w'.snapshots = w.snapshots ∧
      w'.containers = w.containers.insert id record

theorem setupAndCommit_records (client : Client) (id name image : String)
    (opts : CreateContainerOpts) (metadata : ImageMetadata) (key : String) (w : World κ) :
    Records id (setupAndCommit client id name image opts metadata key true).run w := by
  rcases setupAndCommit_finishes client id name image opts metadata key w with
    ⟨-, e, w', hr, hs⟩ | ⟨-, ⟨w', hr⟩ | ⟨e, w', hr, hc, -⟩⟩
  · exact .inl ⟨e, w', hr, hs.containers⟩
  · obtain ⟨-, -, hs, bridge, hc, -⟩ := setupAndCommit_created hr
    exact .inr ⟨w', _, hr, hs, hc⟩
  · exact .inl ⟨e, w', hr, hc⟩

theorem Records.withAllocLock {id : String} {p : Proc κ String} {w : World κ}
    (h : Records id p.run { w with allocLock := true }) : Records id (withAllocLock p).run w := by
  obtain ⟨hok, herror⟩ := withAllocLock_run p w
  rcases h with ⟨e, w', hr, hc⟩ | ⟨w', record, hr, hs, hc⟩
  · exact .inl ⟨e, _, herror e w' hr, hc⟩
  · exact .inr ⟨_, record, hok id w' hr, hs, hc⟩

/-- **What a create does to the store**: it fails and leaves the records alone, or it adds a record
for the root snapshot it prepared. -/
theorem createWithId_prepares (client : Client) (id name image : String)
    {opts : CreateContainerOpts} (hfrom : opts.fromExistingSnapshot = none) (w : World κ) :
    (∃ e w', (createContainerWithId client id name image opts).run w = .error e w' ∧
      w'.containers = w.containers) ∨
    ∃ w' chainId record, (createContainerWithId client id name image opts).run w = .ok id w' ∧
      w.snapshots.prepare defaultSnapshotter (snapshotKeyFor id) chainId ∅ = .ok w'.snapshots ∧
      w'.containers = w.containers.insert id record := by
  simp only [createContainerWithId, Prog.run_bind]
  rcases prepareContainer_run client id name image hfrom w with
    ⟨metadata, w₁, hprep, hans, hconts, -⟩ | ⟨e, w₁, hprep, hstore⟩
  · rw [bind_ok hprep]
    have hrest : Records id (if opts.network = .bridge then
          withAllocLock (setupAndCommit client id name image opts metadata (snapshotKeyFor id) true)
        else setupAndCommit client id name image opts metadata (snapshotKeyFor id) true :
          Proc κ String).run w₁ := by
      split
      · exact .withAllocLock (setupAndCommit_records client id name image opts metadata _ _)
      · exact setupAndCommit_records client id name image opts metadata _ _
    rcases hrest with ⟨e, w', hr, hc⟩ | ⟨w', record, hr, hs, hc⟩
    · exact .inl ⟨e, w', hr, hc.trans hconts⟩
    · exact .inr ⟨w', metadata.chainId, record, hr, hs ▸ hans, hconts ▸ hc⟩
  · exact .inl ⟨e, w₁, bind_error hprep, hstore.containers⟩

/-! ## The invariant over calls -/

/-- What keeps the invariant. -/
def KeepsOwned (w w' : World κ) : Prop := Owned w → Owned w'

instance : Std.Refl (KeepsOwned (κ := κ)) := ⟨fun _ h => h⟩

instance : IsTrans (World κ) KeepsOwned := ⟨fun _ _ _ h h' h₀ => h' (h h₀)⟩

theorem KeepsOwned.of_sameStore {w w' : World κ} (h : SameStore w w') : KeepsOwned w w' :=
  fun h₀ => h₀.of_sameStore h

theorem KeepsOwned.of_calm {w w' : World κ} (h : Calm w w') : KeepsOwned w w' :=
  .of_sameStore h.toSameStore

section Requests

variable {client : Client} {snapshotter key name : String}

end Requests

section New

variable {w w' : World κ} {id : String}

/-- Without a record what is prepared for a container is not seen. -/
theorem Owned.unseen (h : Owned w) (h' : Owned w')
    (hw : Within (· = id) (fun loc => loc.2 = snapshotKeyFor id) w w')
    (hid : w.containers.lookup id = none) (hid' : w'.containers.lookup id = none) :
    Vault.of w' = Vault.of w := by
  rw [h.put_of_within id h' hw (fun _ hi => hi) fun _ hk => hk, layerOf_eq_absent.mpr hid',
    ← layerOf_eq_absent.mpr hid]
  exact Vault.put_self ..

/-- With its record a container is seen to have what was prepared for it. -/
theorem Owned.recorded {record : ContainerRecord} {snap : Snapshot κ} (h : Owned w) (h' : Owned w')
    (hw : Within (· = id) (fun loc => loc.2 = snapshotKeyFor id) w w')
    (hid' : w'.containers.lookup id = some record)
    (hsnap : w'.snapshots.lookup (defaultSnapshotter, snapshotKeyFor id) = some snap) :
    Vault.of w' = (Vault.of w).put id (.holds snap.content) := by
  rw [h.put_of_within id h' hw (fun _ hi => hi) fun _ hk => hk, h'.layerOf_of_some hid' hsnap]

end New

/-! ## Requests on the vault -/

section Answers

variable {w : World κ} {id src name : String} {record : ContainerRecord} (client : Client)

/-- After a `Commit` the content is kept and the container is without a layer. -/
structure Committed (src name : String) (x : κ) (w w' : World κ) : Prop where
  owned : Owned w'
  containers : w'.containers = w.containers
  layer : (Vault.of w).layer src = .holds x
  free : (Vault.of w).kept name = none
  vault : Vault.of w' = ((Vault.of w).keep name (some x)).put src .lost

end Answers

/-! ## Saving -/

section Save

variable {w : World κ} {src name : String} {record : ContainerRecord}

end Save

/-! ## Cloning -/

section Clone

variable {w : World κ} {src dst : String} {record : ContainerRecord} (client : Client)

/-- The base and the layer of the source, in the world a part of a clone ended in. -/
structure Based (src : String) (w w' : World κ) : Prop where
  owned : Owned w'
  containers : w'.containers = w.containers
  commits : Commits src (cloneBaseFor src) (Vault.of w) (Vault.of w')

theorem Based.of_sameStore {w' : World κ} (h : Owned w) (hs : SameStore w w') : Based src w w' :=
  ⟨h.of_sameStore hs, hs.containers, by rw [Vault.of_sameStore hs]; exact .none⟩

theorem Based.then_sameStore {w₁ w' : World κ} (h : Based src w w₁) (hs : SameStore w₁ w') :
    Based src w w' :=
  ⟨h.owned.of_sameStore hs, hs.containers.trans h.containers, by
    rw [Vault.of_sameStore hs]; exact h.commits⟩

end Clone

/-! ## Resetting and deleting -/

section Transitive

variable {id name : String}

instance : Std.Refl (Moves (κ := κ) (.reset id name)) :=
  ⟨fun _ => .of_sameStore (fun _ _ => nofun) (Std.Refl.refl _)⟩

instance : Std.Refl (Moves (κ := κ) (.delete id)) :=
  ⟨fun _ => .of_sameStore (fun _ _ => nofun) (Std.Refl.refl _)⟩

instance : Std.Refl (Moves (κ := κ) (.drop name)) :=
  ⟨fun _ => .of_sameStore (fun _ _ => nofun) (Std.Refl.refl _)⟩

/-- A container is reset once or more often to the same content. -/
theorem Does.reset_trans {v₁ v₂ v₃ : Vault κ} (h : Does (.reset id name) v₁ v₂)
    (h' : Does (.reset id name) v₂ v₃) : Does (.reset id name) v₁ v₃ := by
  cases h with
  | fails => exact h'
  | reset hne hx =>
    cases h' with
    | fails => exact .reset hne hx
    | reset _ hy => rw [Vault.put_put]; exact .reset hne hy
    | resetLost => rw [Vault.put_put]; exact .resetLost hne
  | resetLost hne =>
    cases h' with
    | fails => exact .resetLost hne
    | reset _ hy => rw [Vault.put_put]; exact .reset hne hy
    | resetLost => rw [Vault.put_put]; exact .resetLost hne

theorem Does.delete_trans {v₁ v₂ v₃ : Vault κ} (h : Does (.delete id) v₁ v₂)
    (h' : Does (.delete id) v₂ v₃) : Does (.delete id) v₁ v₃ := by
  cases h with
  | fails => exact h'
  | deleted =>
    cases h' with
    | fails => exact .deleted _ _
    | deleted => rw [Vault.put_put]; exact .deleted _ _
    | deleteLost hne => exact absurd (Vault.put_layer ..) hne
  | deleteLost hne =>
    cases h' with
    | fails => exact .deleteLost hne
    | deleted => rw [Vault.put_put]; exact .deleted _ _
    | deleteLost => rw [Vault.put_put]; exact .deleteLost hne

theorem Does.drop_trans {v₁ v₂ v₃ : Vault κ} (h : Does (.drop name) v₁ v₂)
    (h' : Does (.drop name) v₂ v₃) : Does (.drop name) v₁ v₃ := by
  cases h with
  | fails => exact h'
  | dropped =>
    cases h' with
    | fails => exact .dropped _ _
    | dropped => rw [Vault.keep_keep]; exact .dropped _ _

theorem Moves.trans_of {c : Cmd κ} (hc : ∀ v₁ v₂ v₃, Does c v₁ v₂ → Does c v₂ v₃ → Does c v₁ v₃) :
    IsTrans (World κ) (Moves c) where
  trans _ _ _ h h' h₀ := by
    obtain ⟨h₁, hd⟩ := h h₀
    obtain ⟨h₂, hd'⟩ := h' h₁
    exact ⟨h₂, hc _ _ _ hd hd'⟩

instance : IsTrans (World κ) (Moves (.reset id name)) :=
  Moves.trans_of fun _ _ _ => .reset_trans

instance : IsTrans (World κ) (Moves (.delete id)) :=
  Moves.trans_of fun _ _ _ => .delete_trans

instance : IsTrans (World κ) (Moves (.drop name)) :=
  Moves.trans_of fun _ _ _ => .drop_trans

variable (client : Client)

end Transitive

/-! ## Writes -/

end ContainerdManager.Rootfs
