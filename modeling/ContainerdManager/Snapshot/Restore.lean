import ContainerdManager.Container.Create
import ContainerdManager.Snapshot.Container

/-!
# Restoring, resetting and deleting snapshots

The rest of `src/snapshot.rs`. `restore_container` prepares a root snapshot
on a named snapshot and removes it again when the record cannot be written.
`reset_to_snapshot` replaces the active snapshot of a container under the
same key. Port forwards, which `reset_to_snapshot` stops, are no part of the
world.
-/

namespace ContainerdManager.Snapshot

open Lib Containerd Container ContainerdManager.Task

variable {κ : Type}

structure RestoreContainerOpts where
  network : Option NetworkMode := none
  portBindings : List UInt16 := []
  env : Labels := ∅
  labels : Labels := ∅

structure ResetToSnapshotOpts where
  restart : Bool := false
  deriving DecidableEq, Repr

/-- The image of a snapshot that carries the labels of a named one. -/
def statManagedSnapshot (client : Client) (snapshotter name : String) : Op κ String := do
  match ← statSnapshot client snapshotter name with
  | .error code =>
    throw (if code = .notFound then .snapshotNotFound name else .containerd "snapshot_stat" code)
  | .ok labels =>
    if labels.lookup managedLabel = some "1" then
      match labels.lookup imageLabel with
      | some image => return image
      | none =>
        throw (.invalidArgument
          ("managed snapshot '" ++ name ++ "' missing required " ++ imageLabel ++ " label"))
    else throw (.snapshotNotManaged name)

def restoreOpts (opts : RestoreContainerOpts) (key : String) : CreateContainerOpts where
  env := opts.env
  labels := opts.labels
  network := opts.network.getD .bridge
  portBindings := opts.portBindings.map fun port => (0, port)
  fromExistingSnapshot := some key

/-- `restore_container`; `dst` is the generated id. -/
def restoreContainer (client : Client) (snapshotName dst dstName : String)
    (opts : RestoreContainerOpts) : Proc κ String :=
  if snapshotName.isEmpty then throw (.invalidArgument "snapshot name must not be empty")
  else do
    let image ← call (statManagedSnapshot client defaultSnapshotter snapshotName)
    match ← call (prepareSnapshot client defaultSnapshotter (snapshotKeyFor dst) snapshotName) with
    | .error code =>
      throw (if code = .alreadyExists then .containerAlreadyExists dstName
        else .containerd "restore_prepare_dst" code)
    | .ok () =>
      match ← (createContainerWithId client dst dstName image
          (restoreOpts opts (snapshotKeyFor dst))).attempt with
      | .ok id => return id
      | .error e => do
        let _ ← call (removeSnapshot client defaultSnapshotter (snapshotKeyFor dst))
        throw e

/-! ## Reset -/

/-- The loop over the attempts to prepare the active snapshot; returns the last error. -/
def prepareAttempts (client : Client) (snapshotter key parent : String) :
    Nat → Option Code → Op κ (Option Code)
  | 0, last => pure last
  | attempts + 1, _ => do
    match ← prepareSnapshot client snapshotter key parent with
    | .ok () => return none
    | .error code => prepareAttempts client snapshotter key parent attempts (some code)

/-- Replace the active snapshot by one on top of `name`. -/
def replaceActive (client : Client) (snapshotter key name : String) : Op κ Unit := do
  match ← removeSnapshot client snapshotter key with
  | .error code =>
    if code = .notFound then prepareActive else throw (.containerd "reset_remove_active" code)
  | .ok () => prepareActive
where
  prepareActive : Op κ Unit := do
    match ← prepareAttempts client snapshotter key name 5 none with
    | none => return ()
    | some code => throw (.containerd "reset_prepare_active" code)

def resetToSnapshot (client : Client) (id name : String) (opts : ResetToSnapshotOpts) : Op κ Unit :=
  if name.isEmpty then throw (.invalidArgument "snapshot name must not be empty")
  else do
    let record ← fetchContainerRecord client id
    let image ← statManagedSnapshot client record.snapshotter name
    if image ≠ record.image then
      throw (.invalidArgument
        ("snapshot image '" ++ image ++ "' does not match container image '" ++
        record.image ++ "'"))
    else do
      let _ ← attempt (stopContainer client id snapshotOpStopTimeout)
      retryDeleteTask client id snapshotOpStopTimeout
      replaceActive client record.snapshotter record.snapshotKey name
      if opts.restart then do
        let _ ← startContainer client id
        return ()
      else pure ()

/-! ## Delete -/

/-- Only a named snapshot is removed. -/
def deleteSnapshot (client : Client) (name : String) : Op κ Unit := do
  let _ ← statManagedSnapshot client defaultSnapshotter name
  match ← removeSnapshot client defaultSnapshotter name with
  | .ok () => return ()
  | .error code =>
    throw (if code = .notFound then .snapshotNotFound name else .containerd "snapshot_delete" code)

/-! ## Named snapshots -/

/-- The labels `snapshot_container` gives a snapshot of a container of the image. -/
def NamesImage (snap : Containerd.Snapshot κ) (image : String) : Prop :=
  snap.labels.lookup managedLabel = some "1" ∧ snap.labels.lookup imageLabel = some image

/-- **What a look at a named snapshot can do.** -/
theorem statManagedSnapshot_cases (client : Client) (snapshotter name : String) (w : World κ) :
    (∃ snap image, w.snapshots.lookup (snapshotter, name) = some snap ∧ NamesImage snap image ∧
      statManagedSnapshot client snapshotter name w =
        .ok image (w.noted client (.stat snapshotter name) none)) ∨
    (∃ e r, (client.fault w.steps ≠ none ∨ ∀ snap image,
        w.snapshots.lookup (snapshotter, name) = some snap → ¬ NamesImage snap image) ∧
      statManagedSnapshot client snapshotter name w =
        .error e (w.noted client (.stat snapshotter name) r)) := by
  unfold statManagedSnapshot
  rcases statSnapshot_cases client w snapshotter name with ⟨snap, hl, hr⟩ | ⟨code, hwhy, hr⟩
  · rw [bind_ok hr]
    dsimp only
    by_cases hmanaged : snap.labels.lookup managedLabel = some "1"
    · rw [if_pos hmanaged]
      cases himage : snap.labels.lookup imageLabel with
      | none =>
        refine .inr ⟨_, _, .inr fun snap' image hl' hnames => ?_, rfl⟩
        cases hl.symm.trans hl'
        cases himage.symm.trans hnames.2
      | some image => exact .inl ⟨snap, image, hl, ⟨hmanaged, himage⟩, rfl⟩
    · rw [if_neg hmanaged]
      refine .inr ⟨_, _, .inr fun snap' image hl' hnames => ?_, rfl⟩
      cases hl.symm.trans hl'
      exact hmanaged hnames.1
  · rw [bind_ok hr]
    refine .inr ⟨_, _, ?_, rfl⟩
    rcases hwhy with hf | ⟨-, -, hnone⟩
    · exact .inl (by rw [hf]; simp)
    · refine .inr fun snap image hl _ => ?_
      cases hnone.symm.trans hl

theorem statManagedSnapshot_ok {client : Client} {snapshotter name image : String}
    {w w' : World κ} (h : statManagedSnapshot client snapshotter name w = .ok image w') :
    ∃ snap, w.snapshots.lookup (snapshotter, name) = some snap ∧ NamesImage snap image := by
  rcases statManagedSnapshot_cases client snapshotter name w with
    ⟨snap, found, hl, hnames, hr⟩ | ⟨e, r, -, hr⟩
  · cases hr.symm.trans h
    exact ⟨snap, hl, hnames⟩
  · cases hr.symm.trans h

/-! ## Frames -/

/-- Looking at a named snapshot is one `Stat`. -/
theorem statManagedSnapshot_keeps {R : World κ → World κ → Prop} {client : Client}
    {snapshotter name : String} (h : Keeps R (statSnapshot (κ := κ) client snapshotter name)) :
    Keeps R (statManagedSnapshot client snapshotter name) := by
  refine h.bind_still fun answer w => ?_
  cases answer with
  | error code => rfl
  | ok labels =>
    dsimp only
    split
    · split <;> rfl
    · rfl

section Replace

variable {R : World κ → World κ → Prop} [Std.Refl R] [IsTrans (World κ) R] {client : Client}
  {snapshotter key name : String}
  (hprepare : Keeps R (prepareSnapshot (κ := κ) client snapshotter key name))

include hprepare

theorem prepareAttempts_frame (attempts : Nat) (last : Option Code) :
    Keeps R (prepareAttempts client snapshotter key name attempts last) := by
  induction attempts generalizing last with
  | zero => exact .pure _
  | succ attempts ih =>
    refine .bind hprepare fun answer => ?_
    cases answer with
    | ok _ => exact .pure _
    | error code => exact ih _

theorem prepareActive_frame :
    Keeps R (replaceActive.prepareActive client snapshotter key name) := by
  refine .bind (prepareAttempts_frame hprepare _ _) fun last => ?_
  cases last with
  | none => exact .pure _
  | some code => exact .throw _

/-- **Replacing an active snapshot keeps what its two kinds of request keep.** -/
theorem replaceActive_frame
    (hremove : Keeps R (removeSnapshot (κ := κ) client snapshotter key)) :
    Keeps R (replaceActive client snapshotter key name) := by
  refine .bind hremove fun answer => ?_
  cases answer with
  | ok _ => exact prepareActive_frame hprepare
  | error code =>
    dsimp only
    split
    · exact prepareActive_frame hprepare
    · exact .throw _

end Replace

section Calls

variable {R : World κ → World κ → Prop} {client : Client}

/-- **The frame of a restore.** -/
theorem restoreContainer_steps {name dst dstName : String} {opts : RestoreContainerOpts}
    (hstat : Keeps R (statSnapshot (κ := κ) client defaultSnapshotter name))
    (hprep : Keeps R
      (prepareSnapshot (κ := κ) client defaultSnapshotter (snapshotKeyFor dst) name))
    (hcreate : ∀ image, (createContainerWithId (κ := κ) client dst dstName image
      (restoreOpts opts (snapshotKeyFor dst))).Steps R)
    (hremove : Keeps R (removeSnapshot (κ := κ) client defaultSnapshotter (snapshotKeyFor dst))) :
    (restoreContainer client name dst dstName opts).Steps R := by
  unfold restoreContainer
  split
  · trivial
  refine .bind (.atomic (statManagedSnapshot_keeps hstat)) fun image =>
    .bind (.atomic hprep) fun answer => ?_
  cases answer with
  | error code => trivial
  | ok _ =>
    refine .bind (hcreate image).attempt fun r => ?_
    cases r with
    | ok _ => trivial
    | error e => exact .bind (.atomic hremove) fun _ => trivial

variable [Std.Refl R] [IsTrans (World κ) R]

/-- **The frame of a reset**, for the record the container has. -/
theorem resetToSnapshot_frame {id name : String} {opts : ResetToSnapshotOpts} {w : World κ}
    (hcalm : ∀ w w', Calm w w' → R w w')
    (hstat : ∀ snapshotter, Keeps R (statSnapshot (κ := κ) client snapshotter name))
    (hreplace : ∀ record, w.containers.lookup id = some record →
      Keeps R (replaceActive (κ := κ) client record.snapshotter record.snapshotKey name)) :
    R w (after (resetToSnapshot client id name opts) w) := by
  unfold resetToSnapshot
  split
  · exact Std.Refl.refl w
  cases hfetch : fetchContainerRecord client id w with
  | error e w₁ =>
    rw [after_bind_error hfetch]
    exact hcalm _ _ (fetchContainerRecord_keeps.error hfetch)
  | ok record w₁ =>
    rw [after_bind_ok hfetch]
    have hown := hreplace record (fetchContainerRecord_ok hfetch)
    refine IsTrans.trans _ _ _ (hcalm _ _ (fetchContainerRecord_keeps.ok hfetch)) ?_
    -- from the record on every request is about the container's key
    revert w₁
    suffices hrest : Keeps R _ from fun w₁ _ => hrest w₁
    refine .bind (statManagedSnapshot_keeps (hstat _)) fun image => ?_
    split
    · exact .throw _
    · refine .bind (fun w => hcalm _ _ (stopContainer_keeps.attempt w)) fun _ =>
        .bind (fun w => hcalm _ _ (retryDelete_keeps _ w)) fun _ => .bind hown fun _ => ?_
      split
      · exact .bind (fun w => hcalm _ _ (startContainer_keeps w)) fun _ => .pure _
      · exact .pure _

theorem deleteSnapshot_frame {name : String}
    (hstat : Keeps R (statSnapshot (κ := κ) client defaultSnapshotter name))
    (hremove : Keeps R (removeSnapshot (κ := κ) client defaultSnapshotter name)) :
    Keeps R (deleteSnapshot client name) := by
  refine .bind (statManagedSnapshot_keeps hstat) fun _ => .bind hremove fun answer => ?_
  cases answer with
  | ok _ => exact .pure _
  | error code => exact .throw _

end Calls

end ContainerdManager.Snapshot
