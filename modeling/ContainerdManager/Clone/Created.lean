import ContainerdManager.Clone.Base
import ContainerdManager.Container.Created
import ContainerdManager.Container.Env

/-!
# What a successful clone did

A clone that returns has inspected the source, and created a record on the
snapshot it prepared, with the options `clone_container` makes of the
source's record. A chain is a list of clones, each of the container the one
before it made.
-/

namespace ContainerdManager.Clone

open Lib Containerd Container Snapshot ContainerdManager.Task

variable {κ : Type}

/-! ## The options of a clone -/

/-- The source's labels without the managed ones. -/
theorem lookup_inheritedLabels (labels : Labels) (key : String) :
    (inheritedLabels labels).lookup key =
      if isManagedLabel key then none else labels.lookup key := by
  have hall := lookup_foldl_insert_unless isManagedLabel id key labels.entries labels.nodupKeys ∅
  rw [AList.lookup_empty, Option.or_none, Option.map_id] at hall
  exact hall

/-- The options of a clone that is not refused. -/
theorem cloneOpts_ok {srcInfo : ContainerInfo} {key : String} {opts : CloneContainerOpts}
    {createOpts : CreateContainerOpts} (h : cloneOpts srcInfo key opts = .ok createOpts) :
    (∀ k ∈ opts.labelOverrides, isManagedLabel k = false) ∧ createOpts = {
      env := opts.extraEnv ∪ srcInfo.env
      labels := opts.labelOverrides ∪ inheritedLabels srcInfo.labels
      network := opts.network.getD (networkFromLabels srcInfo.labels)
      portBindings := (if opts.inheritSrcPorts then srcInfo.portForwards.map Prod.snd
        else opts.portBindings).map fun port => (0, port)
      fromExistingSnapshot := some key } := by
  unfold cloneOpts at h
  split at h
  · cases h
  · rename_i hnone
    cases h
    refine ⟨fun k hk => ?_, rfl⟩
    obtain ⟨value, hl⟩ := Option.isSome_iff_exists.mp (AList.lookup_isSome.mpr hk)
    have hall := List.find?_eq_none.mp hnone ⟨k, value⟩ (AList.mem_lookup_iff.mp hl)
    simpa using hall

/-- The labels of the options are those of the overrides, and of the source where it has
unmanaged ones. -/
theorem lookup_cloneOpts {srcInfo : ContainerInfo} {key : String} {opts : CloneContainerOpts}
    {createOpts : CreateContainerOpts} (h : cloneOpts srcInfo key opts = .ok createOpts)
    (k : String) :
    createOpts.labels.lookup k = if isManagedLabel k then none
      else (opts.labelOverrides.lookup k).or (srcInfo.labels.lookup k) := by
  obtain ⟨hoverrides, rfl⟩ := cloneOpts_ok h
  by_cases hk : k ∈ opts.labelOverrides
  · rw [hoverrides k hk, if_neg Bool.false_ne_true, AList.lookup_union_left hk]
    obtain ⟨value, hl⟩ := Option.isSome_iff_exists.mp (AList.lookup_isSome.mpr hk)
    rw [hl]
    rfl
  · rw [AList.lookup_union_right hk, lookup_inheritedLabels, AList.lookup_eq_none.mpr hk]
    rfl

/-! ## Up to the record of the source -/

theorem stopSource_inputs {client : Client} {src : String} {wasRunning : Bool} :
    (stopSource (κ := κ) client src wasRunning).Steps SameInputs := by
  unfold stopSource
  split
  · exact .bind (.atomic (stopContainer_frame (fun _ _ _ => query_inputs) isLate_inputs)) fun _ =>
      .atomic (retryDelete_frame deleteTask_inputs isLate_inputs _)
  · trivial

theorem inspectContainer_info {client : Client} {id : String} {info : ContainerInfo}
    {w w' : World κ} (h : inspectContainer client id w = .ok info w') :
    ∃ record task, w.containers.lookup id = some record ∧
      info = containerToInfo id record task := by
  obtain ⟨record, w₁, hfetch, h⟩ := bind_eq_ok h
  obtain ⟨task, w₂, -, h⟩ := bind_eq_ok h
  cases h
  exact ⟨record, task, fetchContainerRecord_ok hfetch, rfl⟩

/-- The source is inspected, and its record is the one inspected. -/
theorem stopAndFetch_inputs {client : Client} {src : String} {w w' : World κ}
    {srcInfo : ContainerInfo} {record : ContainerRecord}
    (h : (stopAndFetch client src).run w = .ok (srcInfo, record) w') :
    SameInputs w w' ∧ w.containers.lookup src = some record ∧
      ∃ task, srcInfo = containerToInfo src record task := by
  have hrecord := stopAndFetch_record h
  have hkeep : (stopAndFetch (κ := κ) client src).Steps SameInputs :=
    .bind (.atomic (inspectContainer_frame fun _ _ _ => query_inputs)) fun _ =>
      .bind stopSource_inputs fun _ =>
        .bind (.atomic (fetchContainerRecord_frame fun _ _ _ => query_inputs)) fun _ => trivial
  refine ⟨hkeep.keeps.ok h, hrecord, ?_⟩
  simp only [stopAndFetch, call, Prog.run_bind, Prog.run_atomic] at h
  obtain ⟨info, w₁, hinspect, h⟩ := bind_eq_ok h
  obtain ⟨_, w₂, -, h⟩ := bind_eq_ok h
  obtain ⟨found, w₃, -, h⟩ := bind_eq_ok h
  cases h
  obtain ⟨record', task, hl, rfl⟩ := inspectContainer_info hinspect
  cases hrecord.symm.trans hl
  exact ⟨task, rfl⟩

/-! ## The record of the clone -/

theorem cloneFrom_created {client : Client} {src dst dstName r : String} {srcInfo : ContainerInfo}
    {opts : CloneContainerOpts} {record : ContainerRecord} {w w' : World κ}
    (h : (cloneFrom client src dst dstName srcInfo opts record).run w = .ok r w') :
    r = dst ∧ ∃ createOpts metadata bridge w₁,
      cloneOpts srcInfo (snapshotKeyFor dst) opts = .ok createOpts ∧ SameInputs w w₁ ∧
      CreatedAs client dst dstName srcInfo.image createOpts metadata bridge w₁ w' := by
  simp only [cloneFrom, Prog.run_bind] at h
  obtain ⟨_, w₁, hbase, h⟩ := bind_eq_ok h
  obtain ⟨_, w₂, hprep, h⟩ := bind_eq_ok h
  have hw₁ : SameInputs w w₁ := (ensureCloneBase_steps
    (statSnapshot_keeps fun w r => .noted client w _ r) snapshotRequest_inputs
    snapshotRequest_inputs).keeps.ok hbase
  have hw₂ : SameInputs w₁ w₂ := (prepareCloneSnapshot_steps snapshotRequest_inputs).keeps.ok hprep
  simp only [recordClone, Prog.run_bind, Prog.run_attempt] at h
  obtain ⟨answer, w₃, hattempt, h⟩ := bind_eq_ok h
  unfold createCloneRecord at hattempt
  cases hopts : cloneOpts srcInfo (snapshotKeyFor dst) opts with
  | error e =>
    rw [hopts] at hattempt
    cases hattempt
    simp only [call, Prog.run_bind, Prog.run_atomic] at h
    obtain ⟨_, _, -, h⟩ := bind_eq_ok h
    cases h
  | ok createOpts =>
    rw [hopts] at hattempt
    dsimp only at hattempt
    cases answer with
    | error e =>
      simp only [call, Prog.run_bind, Prog.run_atomic] at h
      obtain ⟨_, _, -, h⟩ := bind_eq_ok h
      cases h
    | ok id =>
      cases h
      obtain ⟨-, metadata, bridge, hcreated⟩ := createContainerWithId_ok (attempt_eq_ok hattempt)
      exact ⟨rfl, createOpts, metadata, bridge, w₂, rfl, IsTrans.trans _ _ _ hw₁ hw₂, hcreated⟩

/-- **What a successful clone did**: with the record of the source in `w`, it created the
record of the clone from a state with the same records, images and ports. -/
structure ClonedAs (client : Client) (src dst dstName : String) (opts : CloneContainerOpts)
    (record : ContainerRecord) (createOpts : CreateContainerOpts) (metadata : ImageMetadata)
    (bridge : Option (String × List (UInt16 × UInt16))) (w w' : World κ) : Prop where
  source : w.containers.lookup src = some record
  opts : ∃ task, cloneOpts (containerToInfo src record task) (snapshotKeyFor dst) opts =
    .ok createOpts
  created : ∃ w₁ w₂, SameInputs w w₁ ∧
    CreatedAs client dst dstName record.image createOpts metadata bridge w₁ w₂ ∧
    w'.containers = w₂.containers

theorem cloneContainer_created {client : Client} {src dst dstName r : String}
    {opts : CloneContainerOpts} {w w' : World κ}
    (h : (cloneContainer client src dst dstName opts).run w = .ok r w') :
    r = dst ∧ ∃ record createOpts metadata bridge,
      ClonedAs client src dst dstName opts record createOpts metadata bridge w w' := by
  rcases cloneContainer_run client src dst dstName opts w with
    ⟨-, e, w₁, hr, -⟩ | ⟨srcInfo, record, w₁, hfetch, hok, herror⟩
  · cases h.symm.trans hr
  · obtain ⟨hinputs, hrecord, task, rfl⟩ := stopAndFetch_inputs hfetch
    cases hfrom : (cloneFrom client src dst dstName (containerToInfo src record task) opts
        record).run w₁ with
    | error e w₂ =>
      obtain ⟨w₃, hr, -⟩ := herror e w₂ hfrom
      cases h.symm.trans hr
    | ok r' w₂ =>
      obtain ⟨w₃, hr, hcalm⟩ := hok r' w₂ hfrom
      cases h.symm.trans hr
      obtain ⟨rfl, createOpts, metadata, bridge, w₄, hopts, hw₄, hcreated⟩ :=
        cloneFrom_created hfrom
      exact ⟨rfl, record, createOpts, metadata, bridge, hrecord, ⟨task, hopts⟩,
        ⟨w₄, w₂, IsTrans.trans _ _ _ hinputs hw₄, hcreated, hcalm.containers⟩⟩

end ContainerdManager.Clone
