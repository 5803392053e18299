import ContainerdManager.Clone.Container
import ContainerdManager.Lib.Pool
import ContainerdManager.Snapshot.Restore
import ContainerdManager.Task.Delete

/-!
# Calls that run side by side

The calls that write or delete container records, as jobs of one process:
`create_container`, `clone_container`, `restore_container` and
`delete_container`. `Job.safe` reduces an agreement about such jobs to the
part of `create_container` it is about: every other step is calm, touches
snapshots, or deletes a record.
-/

namespace ContainerdManager.System

open Lib Containerd Container Snapshot Clone ContainerdManager.Task

variable {κ : Type}

inductive Job where
  | create (id name image : String) (opts : CreateContainerOpts)
  | clone (src dst dstName : String) (opts : CloneContainerOpts)
  | restore (snapshotName dst dstName : String) (opts : RestoreContainerOpts)
  | delete (id : String) (timeout : Nat)

/-- The program of a job; the ids of new containers are the generated ones. -/
def Job.prog (client : Client) : Job → Proc κ Unit
  | .create id name image opts => do
    let _ ← createContainer client id name image opts
    return ()
  | .clone src dst dstName opts => do
    let _ ← cloneContainer client src dst dstName opts
    return ()
  | .restore snapshotName dst dstName opts => do
    let _ ← restoreContainer client snapshotName dst dstName opts
    return ()
  | .delete id timeout => deleteContainer client id timeout

/-! ## Agreements about jobs -/

section Safe

variable {ι σ γ : Type} {G : Proto ι σ γ} {i : ι} {get : σ → World κ} {put : σ → World κ → σ}
  {P : σ → γ → Prop} {R : World κ → World κ → Prop} {client : Client}
  (hframe : ∀ {α : Type} (p : Proc κ α), p.Steps R → Safe G i (fun _ => P) P (p.zoom get put))
  (hcalm : ∀ w w', Calm w w' → R w w')
  (hsnap : ∀ call (answer : Snapshots κ → Except Code (Snapshots κ)), call.ofSnapshots = true →
    Keeps R (snapshotRequest client call answer))
  (hstat : ∀ snapshotter key, Keeps R (statSnapshot (κ := κ) client snapshotter key))
  (hcreate : ∀ id name image opts,
    Safe G i (fun _ => P) P
      ((createContainerWithId (κ := κ) client id name image opts).zoom get put))

include hframe hsnap hcreate

theorem recordClone_safe (snapshotter dst dstName : String) (srcInfo : ContainerInfo)
    (opts : CloneContainerOpts) :
    Safe G i (fun _ => P) P
      ((recordClone client snapshotter dst dstName srcInfo opts).zoom get put) := by
  rw [recordClone, Prog.zoom_bind, Prog.zoom_attempt]
  refine .bind (Q := fun _ => P) (.attempt (Q := fun _ => P) ?_ fun _ _ _ _ h => h) (fun r => ?_)
    fun _ _ _ _ h => h
  · unfold createCloneRecord
    split
    · exact hframe _ trivial
    · exact hcreate _ _ _ _
  · cases r with
    | ok _ => exact hframe _ trivial
    | error e => exact hframe _ (.bind (.atomic (hsnap _ _ rfl)) fun _ => trivial)

include hstat

theorem restoreContainer_safe (snapshotName dst dstName : String) (opts : RestoreContainerOpts) :
    Safe G i (fun _ => P) P
      ((restoreContainer client snapshotName dst dstName opts).zoom get put) := by
  unfold restoreContainer
  split
  · exact hframe _ trivial
  rw [Prog.zoom_bind]
  refine .bind (hframe _ (.atomic (statManagedSnapshot_keeps (hstat _ _)))) (fun image => ?_)
    fun _ _ _ _ h => h
  rw [Prog.zoom_bind]
  refine .bind (hframe _ (.atomic (hsnap _ _ rfl))) (fun answer => ?_) fun _ _ _ _ h => h
  cases answer with
  | error code => exact hframe _ trivial
  | ok _ =>
    dsimp only
    rw [Prog.zoom_bind, Prog.zoom_attempt]
    refine .bind (Q := fun _ => P) (.attempt (Q := fun _ => P) (hcreate _ _ _ _) fun _ _ _ _ h => h)
      (fun r => ?_) fun _ _ _ _ h => h
    cases r with
    | ok _ => exact hframe _ trivial
    | error e => exact hframe _ (.bind (.atomic (hsnap _ _ rfl)) fun _ => trivial)

include hcalm

theorem cloneContainer_safe (src dst dstName : String) (opts : CloneContainerOpts) :
    Safe G i (fun _ => P) P ((cloneContainer client src dst dstName opts).zoom get put) := by
  rw [cloneContainer, Prog.zoom_bind]
  refine .bind (hframe _ (.atomic fun w => hcalm _ _ (inspectContainer_keeps w)))
    (fun srcInfo => ?_)
    fun _ _ _ _ h => h
  rw [Prog.zoom_bind]
  refine .bind (hframe _ (stopSource_calm.mono hcalm)) (fun _ => ?_) fun _ _ _ _ h => h
  rw [Prog.zoom_ensuring]
  refine .ensuring (Q := fun _ => P) ?_
    (fun _ => hframe _ (.atomic fun w => hcalm _ _ (restartSource_keeps w))) fun _ _ _ _ _ h => h
  rw [cloneInner, Prog.zoom_bind]
  refine .bind (hframe _ (.atomic fun w => hcalm _ _ (fetchContainerRecord_keeps w)))
    (fun record => ?_)
    fun _ _ _ _ h => h
  rw [cloneFrom, Prog.zoom_bind]
  refine .bind (hframe _ (ensureCloneBase_steps (hstat _ _) (hsnap _ _ rfl) (hsnap _ _ rfl)))
    (fun _ => ?_)
    fun _ _ _ _ h => h
  rw [Prog.zoom_bind]
  exact .bind (hframe _ (prepareCloneSnapshot_steps (hsnap _ _ rfl)))
    (fun _ => recordClone_safe hframe hsnap hcreate _ _ _ _ _) fun _ _ _ _ h => h

/-- **Jobs keep an assertion** when their creates do, and all other steps are within `R`. -/
theorem Job.safe (hdelete : ∀ id, Keeps R (deleteRecord (κ := κ) client id)) (job : Job) :
    Safe G i (fun _ => P) P ((job.prog client).zoom get put) := by
  cases job with
  | create id name image opts =>
    rw [Job.prog, Prog.zoom_bind]
    refine .bind (Q := fun _ => P) ?_ (fun _ => hframe _ trivial) fun _ _ _ _ h => h
    unfold createContainer
    split
    · exact hframe _ trivial
    · exact hcreate _ _ _ _
  | clone src dst dstName opts =>
    rw [Job.prog, Prog.zoom_bind]
    exact .bind (cloneContainer_safe hframe hcalm hsnap hstat hcreate _ _ _ _)
      (fun _ => hframe _ trivial) fun _ _ _ _ h => h
  | restore snapshotName dst dstName opts =>
    rw [Job.prog, Prog.zoom_bind]
    exact .bind (restoreContainer_safe hframe hsnap hstat hcreate _ _ _ _)
      (fun _ => hframe _ trivial) fun _ _ _ _ h => h
  | delete id timeout =>
    exact hframe _ (deleteContainer_steps hcalm (hdelete id) (fun _ => hsnap _ _ rfl) timeout)

end Safe

end ContainerdManager.System
