import ContainerdManager.Container.Create
import ContainerdManager.Snapshot.Container

/-!
# Cloning a container

`src/clone.rs`. The first clone of a source commits its active snapshot as
the clone base and prepares the active snapshot again on top; every clone
gets an active snapshot on the base. The requests to containerd are steps of
their own, the phases that stop, delete and restart the source's task are one
step each.
-/

namespace ContainerdManager.Clone

open Lib Containerd Container Snapshot ContainerdManager.Task

variable {κ : Type}

structure CloneContainerOpts where
  restartSrc : Bool := false
  inheritSrcPorts : Bool := true
  /-- Read only when the ports are not inherited. -/
  portBindings : List UInt16 := []
  network : Option NetworkMode := none
  extraEnv : Labels := ∅
  labelOverrides : Labels := ∅

/-- `<src>-clone-base`. -/
def cloneBaseFor (src : String) : String := src ++ "-clone-base"

/-! ## The base -/

/-- Prepare the active snapshot of the source again. -/
def reprepareSource (client : Client) (snapshotter key base : String) : Proc κ Unit := do
  match ← call (prepareSnapshot client snapshotter key base) with
  | .ok () => return ()
  | .error code =>
    if code = .alreadyExists then return () else throw (.containerd "clone_reprepare_src" code)

/-- The loser of a race finds the base committed and is done. -/
def commitCloneBase (client : Client) (snapshotter key base : String) : Proc κ Unit := do
  match ← call (commitActive client snapshotter base key) with
  | .ok () => reprepareSource client snapshotter key base
  | .error code =>
    if code = .alreadyExists then return () else throw (.containerd "clone_commit_src" code)

def ensureCloneBase (client : Client) (snapshotter key base : String) : Proc κ Unit := do
  match ← call (statSnapshot client snapshotter base) with
  | .ok _ => return ()
  | .error code =>
    if code = .notFound then commitCloneBase client snapshotter key base
    else throw (.containerd "clone_stat_base" code)

/-! ## The clone -/

def prepareCloneSnapshot (client : Client) (snapshotter key base dstName : String) :
    Proc κ Unit := do
  match ← call (prepareSnapshot client snapshotter key base) with
  | .ok () => return ()
  | .error code =>
    throw (if code = .alreadyExists then .containerAlreadyExists dstName
      else .containerd "clone_prepare_dst" code)

/-- The source's labels without the managed ones. -/
def inheritedLabels (labels : Labels) : Labels :=
  labels.entries.foldl (fun acc e => if isManagedLabel e.1 then acc else acc.insert e.1 e.2) ∅

/-- The options of the clone's record; managed labels cannot be overridden. -/
def cloneOpts (srcInfo : ContainerInfo) (key : String) (opts : CloneContainerOpts) :
    Except Error CreateContainerOpts :=
  match opts.labelOverrides.entries.find? fun e => isManagedLabel e.1 with
  | some e =>
    .error (.invalidArgument ("label '" ++ e.1 ++
      "' is managed by containerd-manager and cannot be overridden"))
  | none =>
    let ports := if opts.inheritSrcPorts then srcInfo.portForwards.map Prod.snd
      else opts.portBindings
    .ok {
      env := opts.extraEnv ∪ srcInfo.env
      labels := opts.labelOverrides ∪ inheritedLabels srcInfo.labels
      network := opts.network.getD (networkFromLabels srcInfo.labels)
      portBindings := ports.map fun port => (0, port)
      fromExistingSnapshot := some key }

def createCloneRecord (client : Client) (dst dstName : String) (srcInfo : ContainerInfo)
    (key : String) (opts : CloneContainerOpts) : Proc κ String :=
  match cloneOpts srcInfo key opts with
  | .error e => throw e
  | .ok createOpts => createContainerWithId client dst dstName srcInfo.image createOpts

/-- The record of the clone, or the removal of the snapshot prepared for it: the orphan
would block a retry. -/
def recordClone (client : Client) (snapshotter dst dstName : String) (srcInfo : ContainerInfo)
    (opts : CloneContainerOpts) : Proc κ String := do
  match ← (createCloneRecord client dst dstName srcInfo (snapshotKeyFor dst) opts).attempt with
  | .ok _ => return dst
  | .error e => do
    let _ ← call (removeSnapshot client snapshotter (snapshotKeyFor dst))
    throw e

/-- `clone_inner` from the source's record on. -/
def cloneFrom (client : Client) (src dst dstName : String) (srcInfo : ContainerInfo)
    (opts : CloneContainerOpts) (record : ContainerRecord) : Proc κ String := do
  ensureCloneBase client record.snapshotter record.snapshotKey (cloneBaseFor src)
  prepareCloneSnapshot client record.snapshotter (snapshotKeyFor dst) (cloneBaseFor src) dstName
  recordClone client record.snapshotter dst dstName srcInfo opts

/-- `clone_inner`; `dst` is the generated id. -/
def cloneInner (client : Client) (src dst dstName : String) (srcInfo : ContainerInfo)
    (opts : CloneContainerOpts) : Proc κ String := do
  let record ← call (fetchContainerRecord client src)
  cloneFrom client src dst dstName srcInfo opts record

/-- The source's task is stopped and deleted. -/
def stopSource (client : Client) (src : String) (wasRunning : Bool) : Proc κ Unit :=
  if wasRunning then do
    call (stopContainer client src snapshotOpStopTimeout)
    call (retryDeleteTask client src snapshotOpStopTimeout)
  else pure ()

def cloneContainer (client : Client) (src dst dstName : String) (opts : CloneContainerOpts) :
    Proc κ String := do
  let srcInfo ← call (inspectContainer client src)
  let wasRunning := srcInfo.task.any fun t => t.status = .running
  stopSource client src wasRunning
  (cloneInner client src dst dstName srcInfo opts).ensuring
    (call (restartSource client src (wasRunning && opts.restartSrc)))

/-! ## Frames -/

theorem stopSource_calm {client : Client} {src : String} {wasRunning : Bool} :
    (stopSource (κ := κ) client src wasRunning).Steps Calm := by
  unfold stopSource
  split
  · exact .bind (.atomic stopContainer_keeps) fun _ => .atomic (retryDelete_keeps _)
  · trivial

/-- The options of a clone's record name the snapshot prepared for it. -/
theorem cloneOpts_snapshot {srcInfo : ContainerInfo} {key : String} {opts : CloneContainerOpts}
    {createOpts : CreateContainerOpts} (h : cloneOpts srcInfo key opts = .ok createOpts) :
    createOpts.fromExistingSnapshot = some key := by
  unfold cloneOpts at h
  split at h
  · cases h
  · cases h
    rfl

section Steps

variable {R : World κ → World κ → Prop} {client : Client} {snapshotter key base : String}

theorem ensureCloneBase_steps (hstat : Keeps R (statSnapshot (κ := κ) client snapshotter base))
    (hcommit : Keeps R (commitActive (κ := κ) client snapshotter base key))
    (hprep : Keeps R (prepareSnapshot (κ := κ) client snapshotter key base)) :
    (ensureCloneBase client snapshotter key base).Steps R := by
  refine .bind (.atomic hstat) fun answer => ?_
  cases answer with
  | ok _ => trivial
  | error code =>
    dsimp only
    split
    · refine .bind (.atomic hcommit) fun committed => ?_
      cases committed with
      | ok _ =>
        refine .bind (.atomic hprep) fun prepared => ?_
        cases prepared with
        | ok _ => trivial
        | error code => dsimp only; split <;> trivial
      | error code => dsimp only; split <;> trivial
    · trivial

theorem prepareCloneSnapshot_steps {dstName : String}
    (hprep : Keeps R (prepareSnapshot (κ := κ) client snapshotter key base)) :
    (prepareCloneSnapshot client snapshotter key base dstName).Steps R := by
  refine .bind (.atomic hprep) fun answer => ?_
  cases answer <;> trivial

theorem createCloneRecord_steps {dst dstName : String} {srcInfo : ContainerInfo}
    {opts : CloneContainerOpts} (hcreate : ∀ image createOpts,
      createOpts.fromExistingSnapshot = some key →
      (createContainerWithId (κ := κ) client dst dstName image createOpts).Steps R) :
    (createCloneRecord client dst dstName srcInfo key opts).Steps R := by
  unfold createCloneRecord
  split
  · trivial
  · rename_i createOpts hopts
    exact hcreate _ _ (cloneOpts_snapshot hopts)

theorem recordClone_steps {dst dstName : String} {srcInfo : ContainerInfo}
    {opts : CloneContainerOpts}
    (hcreate : ∀ image createOpts, createOpts.fromExistingSnapshot = some (snapshotKeyFor dst) →
      (createContainerWithId (κ := κ) client dst dstName image createOpts).Steps R)
    (hremove : Keeps R (removeSnapshot (κ := κ) client snapshotter (snapshotKeyFor dst))) :
    (recordClone client snapshotter dst dstName srcInfo opts).Steps R := by
  refine .bind (createCloneRecord_steps hcreate).attempt fun r => ?_
  cases r with
  | ok _ => trivial
  | error e => exact .bind (.atomic hremove) fun _ => trivial

/-- **The frame of a clone** from its source's record on. -/
theorem cloneFrom_steps {src dst dstName : String} {srcInfo : ContainerInfo}
    {opts : CloneContainerOpts} {record : ContainerRecord}
    (hstat : Keeps R (statSnapshot (κ := κ) client record.snapshotter (cloneBaseFor src)))
    (hcommit : Keeps R
      (commitActive (κ := κ) client record.snapshotter (cloneBaseFor src) record.snapshotKey))
    (hprep : ∀ key, key = record.snapshotKey ∨ key = snapshotKeyFor dst →
      Keeps R (prepareSnapshot (κ := κ) client record.snapshotter key (cloneBaseFor src)))
    (hcreate : ∀ image createOpts, createOpts.fromExistingSnapshot = some (snapshotKeyFor dst) →
      (createContainerWithId (κ := κ) client dst dstName image createOpts).Steps R)
    (hremove : Keeps R
      (removeSnapshot (κ := κ) client record.snapshotter (snapshotKeyFor dst))) :
    (cloneFrom client src dst dstName srcInfo opts record).Steps R :=
  .bind (ensureCloneBase_steps hstat hcommit (hprep _ (.inl rfl))) fun _ =>
    .bind (prepareCloneSnapshot_steps (hprep _ (.inr rfl))) fun _ =>
      recordClone_steps hcreate hremove

end Steps

end ContainerdManager.Clone
