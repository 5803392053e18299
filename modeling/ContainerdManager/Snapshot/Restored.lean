import ContainerdManager.Container.Created
import ContainerdManager.Snapshot.Restore

/-!
# What a restore leaves behind

`restore_container` prepares the root snapshot before it checks the name, the
image and the network of the new container; a create on that snapshot never
removes it, so that a failed restore does so exactly once.
-/

namespace ContainerdManager.Snapshot

open Lib Containerd Container ContainerdManager.Task

variable {κ : Type}

/-! ## Up to the root snapshot -/

/-- A named snapshot's root snapshot for the container `dst` is there, and nothing else is new. -/
structure RootPrepared (name dst : String) (w w' : World κ) : Prop where
  snapshots : w.snapshots.prepare defaultSnapshotter (snapshotKeyFor dst) name ∅ = .ok w'.snapshots
  inputs : SameInputs w w'
  grows : Grows w w'

/-- **A restore up to the root snapshot** fails and changes nothing, or goes on with the record. -/
theorem restoreContainer_cases (client : Client) (name dst dstName : String)
    (opts : RestoreContainerOpts) (w : World κ) :
    (∃ e w', (restoreContainer client name dst dstName opts).run w = .error e w' ∧
      SameStore w w') ∨
    ∃ image w₁, RootPrepared name dst w w₁ ∧
      (∃ snap, w.snapshots.lookup (defaultSnapshotter, name) = some snap ∧
        snap.labels.lookup imageLabel = some image) ∧
      (∀ r w', (createContainerWithId client dst dstName image
          (restoreOpts opts (snapshotKeyFor dst))).run w₁ = .ok r w' →
        (restoreContainer client name dst dstName opts).run w = .ok r w') ∧
      ∀ e w₂, (createContainerWithId client dst dstName image
          (restoreOpts opts (snapshotKeyFor dst))).run w₁ = .error e w₂ →
        ∃ answer w', removeSnapshot client defaultSnapshotter (snapshotKeyFor dst) w₂ =
            .ok answer w' ∧
          (restoreContainer client name dst dstName opts).run w = .error e w' := by
  unfold restoreContainer
  split
  · exact .inl ⟨_, w, rfl, Std.Refl.refl w⟩
  simp only [call, Prog.run_bind, Prog.run_atomic]
  cases hstat : statManagedSnapshot client defaultSnapshotter name w with
  | error e w₁ =>
    exact .inl ⟨e, w₁, bind_error hstat,
      (statManagedSnapshot_keeps (statSnapshot_keeps fun w r => .noted client w _ r)).error hstat⟩
  | ok image w₁ =>
    have hstore : SameStore w w₁ :=
      (statManagedSnapshot_keeps (statSnapshot_keeps fun w r => .noted client w _ r)).ok hstat
    have hinputs : SameInputs w w₁ :=
      (statManagedSnapshot_keeps (statSnapshot_keeps fun w r => .noted client w _ r)).ok hstat
    have hgrows : Grows w w₁ :=
      (statManagedSnapshot_keeps (statSnapshot_keeps fun w r => .noted client w _ r)).ok hstat
    obtain ⟨snap, hl, -, himage⟩ := statManagedSnapshot_ok hstat
    rcases snapshotRequest_cases client (.prepare defaultSnapshotter (snapshotKeyFor dst) name)
        (fun snaps => snaps.prepare defaultSnapshotter (snapshotKeyFor dst) name ∅) w₁ with
      ⟨snaps, -, hans, hr⟩ | ⟨code, -, hr⟩
    · rw [hstore.snapshots] at hans
      refine .inr ⟨image, _, ⟨hans, IsTrans.trans _ _ _ hinputs (snapshotRequest_inputs.ok hr),
        IsTrans.trans _ _ _ hgrows (.noted client w₁ _ none)⟩, ⟨snap, hl, himage⟩, ?_, ?_⟩
      · intro r w' hcreate
        rw [bind_ok hstat, prepareSnapshot, bind_ok hr]
        simp only [Prog.run_bind, Prog.run_attempt]
        rw [bind_ok (attempt_ok hcreate)]
        rfl
      · intro e w₂ hcreate
        obtain ⟨answer, w', hremove⟩ : ∃ answer w',
            removeSnapshot client defaultSnapshotter (snapshotKeyFor dst) w₂ = .ok answer w' := by
          rcases removeSnapshot_cases client w₂ defaultSnapshotter (snapshotKeyFor dst) with
            ⟨-, -, -, hrem⟩ | ⟨code, -, hrem⟩
          · exact ⟨_, _, hrem⟩
          · exact ⟨_, _, hrem⟩
        refine ⟨answer, w', hremove, ?_⟩
        rw [bind_ok hstat, prepareSnapshot, bind_ok hr]
        simp only [Prog.run_bind, Prog.run_attempt]
        rw [bind_ok (attempt_error hcreate)]
        simp only [Prog.run_bind, Prog.run_atomic]
        rw [bind_ok hremove]
        rfl
    · refine .inl ⟨_, _, (bind_ok hstat).trans (bind_ok hr), ?_⟩
      exact IsTrans.trans _ _ _ hstore (.noted client w₁ _ _)

/-- **What a successful restore did**: it created a record from a state with the same records,
images and ports, for the image of the snapshot. -/
theorem restoreContainer_created {client : Client} {name dst dstName r : String}
    {opts : RestoreContainerOpts} {w w' : World κ}
    (h : (restoreContainer client name dst dstName opts).run w = .ok r w') :
    ∃ snap image metadata bridge w₁, w.snapshots.lookup (defaultSnapshotter, name) = some snap ∧
      snap.labels.lookup imageLabel = some image ∧ SameInputs w w₁ ∧
      CreatedAs client dst dstName image (restoreOpts opts (snapshotKeyFor dst)) metadata bridge
        w₁ w' := by
  rcases restoreContainer_cases client name dst dstName opts w with
    ⟨e, w'', hr, -⟩ | ⟨image, w₁, hroot, ⟨snap, hl, himage⟩, hok, herror⟩
  · cases h.symm.trans hr
  cases hcreate : (createContainerWithId client dst dstName image
      (restoreOpts opts (snapshotKeyFor dst))).run w₁ with
  | ok r' w₂ =>
    cases h.symm.trans (hok r' w₂ hcreate)
    obtain ⟨-, metadata, bridge, hcreated⟩ := createContainerWithId_ok hcreate
    exact ⟨snap, image, metadata, bridge, w₁, hl, himage, hroot.inputs, hcreated⟩
  | error e w₂ =>
    obtain ⟨answer, w₃, -, hr⟩ := herror e w₂ hcreate
    cases h.symm.trans hr

/-! ## All or nothing -/

/-- One record more and one active snapshot more, the root snapshot of the record. -/
structure Restored (name dst : String) (w w' : World κ) : Prop where
  record : ∃ record : ContainerRecord, w.containers.lookup dst = none ∧
    w'.containers = w.containers.insert dst record ∧ record.snapshotKey = snapshotKeyFor dst
  snapshot : ∃ snap, w.snapshots.lookup (defaultSnapshotter, snapshotKeyFor dst) = none ∧
    w'.snapshots = w.snapshots.insert (defaultSnapshotter, snapshotKeyFor dst) snap ∧
    snap.kind = .active ∧ snap.parent = name

/-- **A restore is all or nothing**, whatever its requests come to, if the `Remove` of the rollback
succeeds when it is issued. -/
theorem restoreContainer_all_or_nothing (client : Client) (name dst dstName : String)
    (opts : RestoreContainerOpts) (w : World κ)
    (hremove : ∀ e w', (restoreContainer client name dst dstName opts).run w = .error e w' →
      ∀ code, (.remove defaultSnapshotter (snapshotKeyFor dst), some code) ∉
        w'.trace.drop w.trace.length) :
    (∀ e w', (restoreContainer client name dst dstName opts).run w = .error e w' →
      SameStore w w') ∧
    ∀ r w', (restoreContainer client name dst dstName opts).run w = .ok r w' →
      r = dst ∧ Restored name dst w w' := by
  rcases restoreContainer_cases client name dst dstName opts w with
    ⟨e, w', hr, hsame⟩ | ⟨image, w₁, hroot, -, hok, herror⟩
  · rw [forall_error_of_error hr]
    refine ⟨hsame, fun r w'' hr' => ?_⟩
    cases hr.symm.trans hr'
  obtain ⟨hfree, base, -, -, hsnaps⟩ := Snapshots.prepare_eq_ok hroot.snapshots
  cases hcreate : (createContainerWithId client dst dstName image
      (restoreOpts opts (snapshotKeyFor dst))).run w₁ with
  | ok r w₂ =>
    refine ⟨forall_error_of_ok (hok r w₂ hcreate), fun r' w' hr => ?_⟩
    cases (hok r w₂ hcreate).symm.trans hr
    obtain ⟨rfl, metadata, bridge, hcreated⟩ := createContainerWithId_ok hcreate
    have hconts := hroot.inputs.containers
    refine ⟨rfl, ⟨_, hconts ▸ hcreated.fresh, hconts ▸ hcreated.containers, rfl⟩,
      { kind := .active, parent := name, labels := ∅, content := base.content }, hfree, ?_,
        rfl, rfl⟩
    rw [hcreated.adopted _ rfl, hsnaps]
  | error e w₂ =>
    obtain ⟨answer, w', hrem, hr⟩ := herror e w₂ hcreate
    rw [forall_error_of_error hr]
    refine ⟨?_, fun r w'' hr' => by cases hr.symm.trans hr'⟩
    have hsame : SameStore w₁ w₂ := createContainerWithId_error rfl hcreate
    rcases removeSnapshot_cases client w₂ defaultSnapshotter (snapshotKeyFor dst) with
      ⟨-, -, -, hrem'⟩ | ⟨code, -, hrem'⟩
    · cases hrem.symm.trans hrem'
      refine ⟨?_, hsame.containers.trans hroot.inputs.containers⟩
      -- the snapshot that was prepared is erased again
      show w₂.snapshots.erase _ = w.snapshots
      rw [hsame.snapshots, hsnaps, Snapshots.erase_insert_of_free _ hfree]
    · cases hrem.symm.trans hrem'
      have hgrows : w.trace <+: w₂.trace :=
        hroot.grows.trans (createContainerWithId_grows.keeps.error hcreate)
      obtain ⟨new, hnew⟩ := hgrows
      refine absurd ?_ (hremove e _ hr code)
      show _ ∈ (w₂.trace ++ [_]).drop _
      rw [← hnew, List.append_assoc, List.drop_left]
      simp

/-- A store with one image and a named snapshot of it. -/
def goldenWorld : World Unit where
  snapshots := (∅ : Snapshots Unit).insert (defaultSnapshotter, "golden")
    { kind := .committed, parent := "", content := ()
      labels := ((∅ : Labels).insert imageLabel "mongo").insert managedLabel "1" }
  containers := ∅
  images := oneImage.images
  metadataCache := oneImage.metadataCache

/-- The twelfth step, the `containers.create` of a container in host mode, fails. -/
def restoreFails : Client where
  fault n := if n = 11 then some .unavailable else none

/-- A restore whose record cannot be written takes its snapshot back. -/
theorem restoreContainer_rolled_back : ∃ e w',
    (restoreContainer restoreFails "golden" "c1" "db" { network := some .host }).run goldenWorld =
      .error e w' ∧ (.remove defaultSnapshotter (snapshotKeyFor "c1"), none) ∈ w'.trace ∧
    SameStore goldenWorld w' := by
  have hremoved : ∀ entry ∈ (after (restoreContainer restoreFails "golden" "c1" "db"
      { network := some .host }).run goldenWorld).trace,
      entry.1 = .remove defaultSnapshotter (snapshotKeyFor "c1") → entry.2 = none := by
    decide +kernel
  have hrestore := restoreContainer_all_or_nothing restoreFails "golden" "c1" "db"
    { network := some .host } goldenWorld fun e w' hr code hmem => ?_
  · refine ⟨_, _, rfl, ?_, hrestore.1 _ _ rfl⟩
    decide +kernel
  · rw [after_error hr] at hremoved
    cases hremoved _ (List.mem_of_mem_drop hmem) rfl

end ContainerdManager.Snapshot
