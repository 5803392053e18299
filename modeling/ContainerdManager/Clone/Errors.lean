import ContainerdManager.Clone.Container

/-!
# The errors of a clone

Which error a clone returns tells how far it came: those of
`ensure_clone_base` and `prepare_clone_snapshot` carry an operation of their
own, and before the `Prepare` of the clone's snapshot nothing says that the
destination exists. The phases before and after the base return no such
error.
-/

namespace ContainerdManager.Clone

open Lib Containerd Container Logs Snapshot ContainerdManager.Task

variable {κ : Type}

/-- The operations of `ensure_clone_base` and `prepare_clone_snapshot`. -/
def baseOps : List String :=
  ["clone_stat_base", "clone_commit_src", "clone_reprepare_src", "clone_prepare_dst"]

/-- The error is one of these operations. -/
def OfBase : Error → Prop
  | .containerd op _ => op ∈ baseOps
  | _ => False

/-- An error from before the base: it does not say that the destination exists either. -/
def BeforeBase (e : Error) : Prop := ¬ OfBase e ∧ ∀ name, e ≠ .containerAlreadyExists name

/-! ## Before the base -/

section Before

variable {client : Client} {id : String}

theorem fetchContainerRecord_raises :
    Raises BeforeBase (fetchContainerRecord (κ := κ) client id) := by
  refine .bind request_raises fun answer => ?_
  cases answer with
  | ok record => exact .pure _
  | error code =>
    cases code <;> exact .throw (by simp [BeforeBase, OfBase, baseOps])

theorem getTaskInfo_raises : Raises BeforeBase (getTaskInfo (κ := κ) client id) := by
  refine .bind request_raises fun answer => ?_
  cases answer <;> exact .pure _

theorem inspectContainer_raises : Raises BeforeBase (inspectContainer (κ := κ) client id) :=
  .bind fetchContainerRecord_raises fun _ => .bind getTaskInfo_raises fun _ => .pure _

/-- A poll of something that has no such error has none but the timeout. -/
theorem pollRounds_raises {msg : String} {predicate : Op κ Bool} (h : Raises BeforeBase predicate)
    (rounds : Nat) : Raises BeforeBase (pollRounds client msg predicate rounds) := by
  have htimeout : BeforeBase (.timeout msg) := by simp [BeforeBase, OfBase]
  induction rounds with
  | zero => exact .throw htimeout
  | succ rounds ih =>
    refine .bind (fun s e t he => by cases he) fun late => ?_
    split
    · exact .throw htimeout
    · refine .bind h fun done => ?_
      split
      · exact .pure _
      · exact ih

theorem taskStopped_raises : Raises BeforeBase (taskStopped (κ := κ) client id) := by
  refine .bind (.attempt _) fun r => ?_
  rcases r with e | info
  · cases e <;> exact .pure _
  · exact .pure _

theorem stopContainer_raises {timeout : Nat} :
    Raises BeforeBase (stopContainer (κ := κ) client id timeout) := by
  refine .bind (.attempt _) fun _ => .bind (.attempt _) fun _ => ?_
  refine .bind (.bind getTaskInfo_raises fun _ => .pure _) fun running => ?_
  split
  · exact .bind (.attempt _) fun _ => pollRounds_raises taskStopped_raises _
  · exact .pure _

theorem deleteTask_raises : Raises BeforeBase (deleteTask (κ := κ) client id) := by
  have hforget : Raises BeforeBase (forgetTaskStart (κ := κ) client id) := fun _ _ _ h => by cases h
  refine .bind request_raises fun answer => ?_
  cases answer with
  | ok _ => exact hforget
  | error code =>
    cases code <;> first
      | exact hforget
      | exact .throw (by simp [BeforeBase, OfBase, baseOps])

theorem retryDelete_raises (retries : Nat) :
    Raises BeforeBase (retryDelete (κ := κ) client id retries) := by
  induction retries with
  | zero => exact deleteTask_raises
  | succ retries ih =>
    refine .bind_attempt deleteTask_raises fun r hr => ?_
    cases r with
    | ok _ => exact .pure _
    | error e =>
      dsimp only
      split
      · refine .bind (fun s e t he => by cases he) fun late => ?_
        split
        · exact .throw (hr e rfl)
        · exact ih
      · exact .throw (hr e rfl)

theorem stopSource_throws {wasRunning : Bool} :
    (stopSource (κ := κ) client id wasRunning).Throws BeforeBase := by
  unfold stopSource
  split
  · exact .bind (.atomic stopContainer_raises) fun _ => .atomic (retryDelete_raises _)
  · trivial

end Before

/-! ## Behind the base -/

section After

variable {client : Client} {id name image digest : String} {opts : CreateContainerOpts}

theorem checkName_raises : Raises (fun e => ¬ OfBase e) (checkName (κ := κ) client name) := by
  refine .bind request_raises fun answer => ?_
  cases answer with
  | error code => exact .throw (by simp [OfBase, baseOps])
  | ok existing =>
    dsimp only
    split
    · exact .pure _
    · exact .throw nofun

theorem getImage_raises : Raises (fun e => ¬ OfBase e) (getImage (κ := κ) client image) := by
  refine .bind request_raises fun answer => ?_
  rcases answer with code | _ | digest
  · refine .throw ?_
    unfold mapImageStatus
    split <;> simp [OfBase, baseOps]
  · exact .throw nofun
  · exact .pure _

theorem readChunks_throws {chunks : List Bytes} {data : Bytes} :
    (readChunks (κ := κ) client digest chunks data).Throws fun e => ¬ OfBase e := by
  induction chunks generalizing data with
  | nil =>
    refine .bind (.atomic request_raises) fun answer => ?_
    cases answer with
    | error code => exact .throw (by simp [OfBase, baseOps])
    | ok _ => exact .pure _
  | cons chunk chunks ih =>
    refine .bind (.atomic request_raises) fun answer => ?_
    cases answer with
    | error code => exact .throw (by simp [OfBase, baseOps])
    | ok _ => exact ih

theorem readContent_throws : (readContent (κ := κ) client digest).Throws fun e => ¬ OfBase e := by
  refine .bind (.atomic request_raises) fun answer => ?_
  cases answer with
  | error code => exact .throw (by simp [OfBase, baseOps])
  | ok chunks => exact readChunks_throws

theorem parse_throws {α : Type} {what : String} {result : Except String α} :
    (parse (κ := κ) what result).Throws fun e => ¬ OfBase e := by
  cases result with
  | ok a => exact .pure _
  | error e => exact .throw nofun

theorem selectManifest_error {arch : String} {manifests : Json} {e : Error}
    (h : selectManifest arch manifests = .error e) : ¬ OfBase e := by
  unfold selectManifest at h
  split at h
  · cases h
    exact nofun
  · split at h <;> cases h
    exact nofun

theorem manifestConfigDigest_throws {manifest : Json} :
    (manifestConfigDigest (κ := κ) client manifest).Throws fun e => ¬ OfBase e := by
  unfold manifestConfigDigest
  split
  · split
    · exact .throw nofun
    · exact .pure _
  · unfold indexConfigDigest
    split
    · rename_i he
      exact .throw (selectManifest_error he)
    · refine .bind readContent_throws fun _ => .bind parse_throws fun _ => ?_
      split
      · exact .throw nofun
      · exact .pure _
  · exact .throw nofun

theorem getImageMetadata_throws :
    (getImageMetadata (κ := κ) client digest).Throws fun e => ¬ OfBase e := by
  refine .bind (.atomic fun _ _ _ h => by cases h) fun cached => ?_
  cases cached with
  | some metadata => exact .pure _
  | none =>
    refine .bind ?_ fun _ => .bind (.atomic fun _ _ _ h => by cases h) fun _ => .pure _
    refine .bind readContent_throws fun _ => .bind parse_throws fun _ =>
      .bind manifestConfigDigest_throws fun _ => .bind readContent_throws fun _ =>
        .bind parse_throws fun _ => ?_
    split
    · exact .throw nofun
    · exact .pure _

theorem prepareContainer_throws :
    (prepareContainer (κ := κ) client id name image opts).Throws fun e => ¬ OfBase e := by
  unfold prepareContainer
  split
  · rename_i he
    obtain ⟨message, rfl⟩ := validateIdentifier_error he
    exact .throw nofun
  · refine .bind (.atomic checkName_raises) fun _ => .bind (.atomic getImage_raises) fun _ =>
      .bind getImageMetadata_throws fun metadata => .bind ?_ fun _ => .pure _
    unfold prepareRootfs
    split
    · exact .pure _
    · refine .bind (.atomic request_raises) fun answer => ?_
      cases answer with
      | ok _ => exact .pure _
      | error code =>
        refine .throw ?_
        split <;> simp [OfBase, baseOps]

theorem buildAll_throws {whats : List String} :
    (buildAll (κ := κ) client whats).Throws fun e => ¬ OfBase e := by
  induction whats with
  | nil => exact .pure _
  | cons what whats ih =>
    refine .bind (.atomic fun w e t h => ?_) fun _ => ih
    unfold build at h
    split at h <;> cases h
    exact nofun

theorem buildRecord_throws {metadata : ImageMetadata} {key : String}
    {bridge : Option (String × List (UInt16 × UInt16))} :
    (buildRecord (κ := κ) client id name image opts metadata key bridge).Throws
      fun e => ¬ OfBase e := by
  refine .bind ?_ fun _ => .bind (.bind buildAll_throws fun _ => .pure _) fun _ => .pure _
  cases bridge with
  | none => exact .pure _
  | some bridge => exact .bind (.bind buildAll_throws fun _ => .pure _) fun _ => .pure _

theorem pickPorts_throws {ports : List UInt16} :
    (pickPorts (κ := κ) client ports).Throws fun e => ¬ OfBase e := by
  induction ports with
  | nil => exact .pure _
  | cons port ports ih =>
    refine .bind (.atomic fun w e t h => ?_) fun _ => .bind ih fun _ => .pure _
    unfold pickFreePort at h
    dsimp only at h
    split at h <;> cases h <;> exact nofun

theorem allocBridgeIp_raises : Raises (fun e => ¬ OfBase e) (allocBridgeIp (κ := κ) client) := by
  refine .bind request_raises fun answer => ?_
  cases answer with
  | error code => exact .throw (by simp [OfBase, baseOps])
  | ok used =>
    intro w e t h
    dsimp only at h
    split at h
    · rename_i he
      cases h
      obtain ⟨message, rfl⟩ := pickFreeOctet_error he
      exact nofun
    · cases h

theorem setup_throws {metadata : ImageMetadata} {key : String} :
    (setup (κ := κ) client id name image opts metadata key).Throws fun e => ¬ OfBase e := by
  unfold setup
  split
  · exact .bind (.atomic allocBridgeIp_raises) fun _ => .bind pickPorts_throws fun _ =>
      buildRecord_throws
  · exact buildRecord_throws

theorem commitRecord_throws {key : String} {wePrepared : Bool} {record : ContainerRecord} :
    (commitRecord (κ := κ) client id name key wePrepared record).Throws fun e => ¬ OfBase e := by
  refine .bind (.atomic request_raises) fun answer => ?_
  cases answer with
  | ok _ => exact .pure _
  | error code =>
    have herr : ¬ OfBase (if code = .alreadyExists then .containerAlreadyExists name
        else .containerd "create_container" code) := by
      split <;> simp [OfBase, baseOps]
    dsimp only
    split
    · exact .bind (.atomic request_raises) fun _ => .throw herr
    · exact .throw herr

theorem setupAndCommit_throws {metadata : ImageMetadata} {key : String} {wePrepared : Bool} :
    (setupAndCommit (κ := κ) client id name image opts metadata key wePrepared).Throws
      fun e => ¬ OfBase e :=
  .bind setup_throws fun _ => commitRecord_throws

theorem createContainerWithId_throws :
    (createContainerWithId (κ := κ) client id name image opts).Throws fun e => ¬ OfBase e := by
  refine .bind prepareContainer_throws fun prepared => ?_
  dsimp only
  split
  · exact .bind (.await _ _) fun _ => .ensuring setupAndCommit_throws (.await _ _)
  · exact setupAndCommit_throws

/-- The record of a clone returns no error of the base. -/
theorem createCloneRecord_throws {dst dstName key : String} {srcInfo : ContainerInfo}
    {cloneOptions : CloneContainerOpts} :
    (createCloneRecord (κ := κ) client dst dstName srcInfo key cloneOptions).Throws
      fun e => ¬ OfBase e := by
  unfold createCloneRecord
  split
  · rename_i he
    unfold cloneOpts at he
    split at he <;> cases he
    exact .throw nofun
  · exact createContainerWithId_throws

theorem recordClone_throws {snapshotter dst dstName : String} {srcInfo : ContainerInfo}
    {cloneOptions : CloneContainerOpts} :
    (recordClone (κ := κ) client snapshotter dst dstName srcInfo cloneOptions).Throws
      fun e => ¬ OfBase e := by
  refine .bindReturns (.attempt _) createCloneRecord_throws.returns_attempt fun r hr => ?_
  cases r with
  | ok _ => exact .pure _
  | error e => exact .bind (.atomic request_raises) fun _ => .throw (hr e rfl)

/-- The restart of the source returns no error. -/
theorem restartSource_raises {src : String} {restart : Bool} :
    Raises (fun _ => False) (restartSource (κ := κ) client src restart) := by
  unfold restartSource
  split
  · exact .bind (.attempt _) fun _ => .pure _
  · exact .pure _

end After

end ContainerdManager.Clone
