import ContainerdManager.Clone.Base
import ContainerdManager.Clone.Race
import ContainerdManager.Container.Setup
import ContainerdManager.Snapshot.Restore
import ContainerdManager.Task.Delete

/-!
# Who changes a rootfs

Runs of calls, one after the other, each with a client of its own, so that
any request of any call may fail, and of writes by the containers' tasks. A
call changes only the records of the ids and the snapshots of the keys that
are its own (`Within`), at every point it may fail. Keys of different
containers, clone bases and named snapshots differ, so a container's rootfs
and a named snapshot are changed only by the calls that name them.
-/

namespace ContainerdManager.System

open Lib Containerd Container Snapshot Clone ContainerdManager.Task

variable {κ : Type}

/-! ## Calls and writes -/

/-- The content a container sees. -/
def seen (w : World κ) (id : String) : Option κ :=
  (w.containers.lookup id).bind fun record =>
    (w.snapshots.lookup (record.snapshotter, record.snapshotKey)).map fun snap => snap.content

/-- A task writes to the active snapshot of its container. -/
def writeLayer (id : String) (f : κ → κ) (w : World κ) : World κ :=
  match w.containers.lookup id with
  | none => w
  | some record =>
    match w.snapshots.lookup (record.snapshotter, record.snapshotKey) with
    | none => w
    | some snap =>
      if snap.kind = .active then
        let written := { snap with content := f snap.content }
        { w with snapshots := w.snapshots.insert (record.snapshotter, record.snapshotKey) written }
      else w

/-- A call through a client, or a write; `dst` and the `id` of `create` are the generated ids. -/
inductive Act (κ : Type) where
  | create (client : Client) (id name image : String) (opts : CreateContainerOpts)
  | clone (client : Client) (src dst dstName : String) (opts : CloneContainerOpts)
  | snapshot (client : Client) (src name : String) (opts : SnapshotContainerOpts)
  | restore (client : Client) (name dst dstName : String) (opts : RestoreContainerOpts)
  | reset (client : Client) (id name : String) (opts : ResetToSnapshotOpts)
  | start (client : Client) (id : String)
  | stop (client : Client) (id : String) (timeout : Nat)
  | delete (client : Client) (id : String) (timeout : Nat)
  | deleteSnapshot (client : Client) (name : String)
  | write (id : String) (f : κ → κ)

def Act.apply (w : World κ) : Act κ → World κ
  | .create client id name image opts => after (createContainer client id name image opts).run w
  | .clone client src dst dstName opts => after (cloneContainer client src dst dstName opts).run w
  | .snapshot client src name opts => after (snapshotContainer client src name opts) w
  | .restore client name dst dstName opts =>
      after (restoreContainer client name dst dstName opts).run w
  | .reset client id name opts => after (resetToSnapshot client id name opts) w
  | .start client id => after (startContainer client id) w
  | .stop client id timeout => after (stopContainer client id timeout) w
  | .delete client id timeout => after (deleteContainer client id timeout).run w
  | .deleteSnapshot client name => after (Snapshot.deleteSnapshot client name) w
  | .write id f => writeLayer id f w

def Act.step (w : World κ) (a : Act κ) : Option (World κ) := some (a.apply w)

/-- A name a caller may choose for a snapshot. -/
def PlainName (name : String) : Prop :=
  (∀ id, name ≠ snapshotKeyFor id) ∧ ∀ id, name ≠ cloneBaseFor id

/-- Generated ids are new, `create_container` prepares the root snapshot itself, and the names of
snapshots are plain. -/
def Act.Proper (w : World κ) : Act κ → Prop
  | .create _ id _ _ opts => w.containers.lookup id = none ∧ opts.fromExistingSnapshot = none
  | .clone _ _ dst _ _ => w.containers.lookup dst = none
  | .restore _ _ dst _ _ => w.containers.lookup dst = none
  | .snapshot _ _ name _ => PlainName name
  | .deleteSnapshot _ name => PlainName name
  | _ => True

/-- The calls that may change what a container sees: its task's writes, a reset, a snapshot or
a clone of it, its deletion. -/
def Act.Names (id : String) : Act κ → Prop
  | .write id' _ => id' = id
  | .reset _ id' _ _ => id' = id
  | .snapshot _ src _ _ => src = id
  | .clone _ src _ _ _ => src = id
  | .delete _ id' _ => id' = id
  | _ => False

/-- A call of `delete_snapshot` for the name. -/
def Act.Deletes (name : String) : Act κ → Prop
  | .deleteSnapshot _ name' => name' = name
  | _ => False

/-! ## Frames -/

/-- Every record names the container's own key. -/
def OwnKeys (w : World κ) : Prop :=
  ∀ id record, w.containers.lookup id = some record → record.snapshotKey = snapshotKeyFor id

/-- Only the records of `ids` and the snapshots at `locs` changed, and new records name
their own keys. -/
structure Within (ids : String → Prop) (locs : SnapshotKey → Prop) (w w' : World κ) : Prop where
  records : ∀ id, ¬ ids id → w'.containers.lookup id = w.containers.lookup id
  own : ∀ id record, w'.containers.lookup id = some record →
    w.containers.lookup id = some record ∨ record.snapshotKey = snapshotKeyFor id
  snapshots : ∀ loc, ¬ locs loc → w'.snapshots.lookup loc = w.snapshots.lookup loc

variable {ids : String → Prop} {locs : SnapshotKey → Prop}

instance : Std.Refl (Within (κ := κ) ids locs) :=
  ⟨fun _ => ⟨fun _ _ => rfl, fun _ _ h => .inl h, fun _ _ => rfl⟩⟩

instance : IsTrans (World κ) (Within ids locs) where
  trans w₁ w₂ w₃ h h' := by
    refine ⟨fun id hid => (h'.records id hid).trans (h.records id hid), fun id record hl => ?_,
      fun loc hloc => (h'.snapshots loc hloc).trans (h.snapshots loc hloc)⟩
    rcases h'.own id record hl with hl | hkey
    · exact h.own id record hl
    · exact .inr hkey

theorem OwnKeys.within {w w' : World κ} (h : OwnKeys w) (hw : Within ids locs w w') :
    OwnKeys w' := by
  intro id record hl
  rcases hw.own id record hl with hl | hkey
  · exact h id record hl
  · exact hkey

theorem Within.of_sameStore {w w' : World κ} (h : SameStore w w') : Within ids locs w w' :=
  ⟨fun _ _ => by rw [h.containers], fun _ _ hl => .inl (h.containers ▸ hl), fun _ _ => by
    rw [h.snapshots]⟩

theorem Within.of_snapshots {w w' : World κ} (hc : w'.containers = w.containers)
    (hs : ∀ loc, ¬ locs loc → w'.snapshots.lookup loc = w.snapshots.lookup loc) :
    Within ids locs w w' :=
  ⟨fun _ _ => by rw [hc], fun _ _ hl => .inl (hc ▸ hl), hs⟩

theorem Within.of_calm {w w' : World κ} (h : Calm w w') : Within ids locs w w' :=
  .of_sameStore h.toSameStore

theorem Within.noted (client : Client) (w : World κ) (call : Call) (outcome : Option Code) :
    Within ids locs w (w.noted client call outcome) := .of_sameStore (.noted client w call outcome)

section Requests

variable {client : Client} {snapshotter key : String}

/-- A snapshot request whose answer changes no other keys. -/
theorem snapshotRequest_within {call : Call} {answer : Snapshots κ → Except Code (Snapshots κ)}
    (h : ∀ snaps snaps', answer snaps = .ok snaps' →
      ∀ loc, ¬ locs loc → snaps'.lookup loc = snaps.lookup loc) :
    Keeps (Within ids locs) (snapshotRequest client call answer) := by
  intro w
  rcases snapshotRequest_cases client call answer w with ⟨snaps, -, hans, hr⟩ | ⟨code, -, hr⟩
  · rw [after_ok hr]
    exact .of_snapshots rfl (h _ _ hans)
  · rw [after_ok hr]
    exact .noted client w _ _

theorem prepareSnapshot_within {parent : String} (hkey : locs (snapshotter, key)) :
    Keeps (Within (κ := κ) ids locs) (prepareSnapshot client snapshotter key parent) := by
  refine snapshotRequest_within fun snaps snaps' hans loc hloc => ?_
  obtain ⟨-, base, -, -, rfl⟩ := Snapshots.prepare_eq_ok hans
  exact AList.lookup_insert_ne fun e => hloc (e ▸ hkey)

theorem removeSnapshot_within (hkey : locs (snapshotter, key)) :
    Keeps (Within (κ := κ) ids locs) (removeSnapshot client snapshotter key) := by
  refine snapshotRequest_within fun snaps snaps' hans loc hloc => ?_
  obtain ⟨-, -, rfl⟩ := Snapshots.remove_eq_ok hans
  exact AList.lookup_erase_ne fun e => hloc (e ▸ hkey)

/-- A `Commit`, with any labels. -/
theorem commit_within {name : String} {call : Call} {labels : Labels}
    (hname : locs (snapshotter, name)) (hkey : locs (snapshotter, key)) :
    Keeps (Within (κ := κ) ids locs)
      (snapshotRequest client call fun snaps => snaps.commit snapshotter name key labels) := by
  refine snapshotRequest_within fun snaps snaps' hans loc hloc => ?_
  obtain ⟨-, snap, -, -, rfl⟩ := Snapshots.commit_eq_ok hans
  exact Snapshots.lookup_committed_of_ne (fun e => hloc (e ▸ hname)) fun e => hloc (e ▸ hkey)

theorem statSnapshot_within :
    Keeps (Within (κ := κ) ids locs) (statSnapshot client snapshotter key) :=
  statSnapshot_keeps fun w r => .noted client w _ r

theorem createRecord_within {id : String} {record : ContainerRecord} (hid : ids id)
    (hkey : record.snapshotKey = snapshotKeyFor id) :
    Keeps (Within (κ := κ) ids locs) (createRecord client id record) := by
  intro w
  rcases createRecord_cases client w id record with ⟨-, -, hr⟩ | ⟨code, hr⟩
  · rw [after_ok hr]
    refine ⟨fun id' hid' => AList.lookup_insert_ne fun e => hid' (e ▸ hid),
      fun id' record' hl => ?_,
      fun _ _ => rfl⟩
    by_cases h : id' = id
    · subst h
      cases (AList.lookup_insert _).symm.trans hl
      exact .inr hkey
    · exact .inl ((AList.lookup_insert_ne h).symm.trans hl)
  · rw [after_ok hr]
    exact .noted client w _ _

theorem deleteRecord_within {id : String} (hid : ids id) :
    Keeps (Within (κ := κ) ids locs) (deleteRecord client id) := by
  intro w
  rcases deleteRecord_cases client id w with ⟨_, -, hr⟩ | ⟨code, -, hr⟩
  · rw [after_ok hr]
    refine ⟨fun id' hid' => AList.lookup_erase_ne fun e => hid' (e ▸ hid), fun id' record' hl =>
      .inl ?_,
      fun _ _ => rfl⟩
    by_cases h : id' = id
    · subst h
      exact absurd hl (by simp)
    · exact (AList.lookup_erase_ne h).symm.trans hl
  · rw [after_ok hr]
    exact .noted client w _ _

end Requests

/-! ## Calls -/

theorem createWithId_within {client : Client} {id name image : String} {opts : CreateContainerOpts}
    (hid : ids id) (hkey : locs (defaultSnapshotter, snapshotKeyFor id))
    (hfrom : opts.fromExistingSnapshot.getD (snapshotKeyFor id) = snapshotKeyFor id) :
    (createContainerWithId client id name image opts).Steps (Within (κ := κ) ids locs) :=
  createContainerWithId_steps (fun _ _ => .of_calm) (checkName_keeps fun w r => .noted client w _ r)
    (fun _ _ => prepareSnapshot_within hkey)
      (allocBridgeIp_keeps fun _ _ _ => .of_sameStore ⟨rfl, rfl⟩)
    (fun _ _ => .of_sameStore ⟨rfl, rfl⟩)
    (fun _ _ hrecord => createRecord_within hid (hrecord.trans hfrom)) fun _ =>
      removeSnapshot_within hkey

theorem createContainer_within (client : Client) (id name image : String)
    {opts : CreateContainerOpts} (hfrom : opts.fromExistingSnapshot = none) (w : World κ) :
    Within (· = id) (fun loc => loc.2 = snapshotKeyFor id) w
      (after (createContainer client id name image opts).run w) := by
  have hsteps : (createContainer client id name image opts).Steps
      (Within (κ := κ) (· = id) (fun loc => loc.2 = snapshotKeyFor id)) :=
    createContainer_steps (createWithId_within rfl rfl (by rw [hfrom]; rfl))
  exact hsteps.keeps w

theorem restoreContainer_within (client : Client) (name dst dstName : String)
    (opts : RestoreContainerOpts) (w : World κ) :
    Within (· = dst) (fun loc => loc.2 = snapshotKeyFor dst) w
      (after (restoreContainer client name dst dstName opts).run w) := by
  have hsteps : (restoreContainer client name dst dstName opts).Steps
      (Within (κ := κ) (· = dst) (fun loc => loc.2 = snapshotKeyFor dst)) :=
    restoreContainer_steps statSnapshot_within (prepareSnapshot_within rfl)
      (fun _ => createWithId_within rfl rfl rfl) (removeSnapshot_within rfl)
  exact hsteps.keeps w

theorem deleteContainerTask_within (client : Client) (id : String) (timeout : Nat) (w : World κ) :
    Within (· = id) (fun loc => loc.2 = snapshotKeyFor id) w
      (after (deleteContainerTask client id timeout).run w) := by
  have hsteps : (deleteContainerTask client id timeout).Steps
      (Within (κ := κ) (· = id) (fun loc => loc.2 = snapshotKeyFor id)) := by
    refine deleteContainerTask_steps (fun _ _ => .of_calm) ?_ (fun _ => ?_) timeout
    · exact deleteRecord_within rfl
    · exact removeSnapshot_within rfl
  exact hsteps.keeps w

theorem deleteContainer_within (client : Client) (id : String) (timeout : Nat) (w : World κ) :
    Within (· = id) (fun loc => loc.2 = snapshotKeyFor id) w
      (after (deleteContainer client id timeout).run w) := by
  rw [deleteContainer, Prog.after_ensuring]
  refine IsTrans.trans _ _ _ (deleteContainerTask_within client id timeout w) (.of_sameStore ?_)
  exact ⟨rfl, rfl⟩

theorem deleteSnapshot_within (client : Client) (name : String) (w : World κ) :
    Within (fun _ => False) (fun loc => loc.2 = name) w
      (after (Snapshot.deleteSnapshot client name) w) := by
  have hkeeps : Keeps (Within (κ := κ) (fun _ => False) (fun loc => loc.2 = name))
      (Snapshot.deleteSnapshot client name) :=
    deleteSnapshot_frame statSnapshot_within (removeSnapshot_within rfl)
  exact hkeeps w

/-- The snapshots a clone of `src` may change. -/
def CloneLocs (src dst : String) (loc : SnapshotKey) : Prop :=
  loc.2 = snapshotKeyFor src ∨ loc.2 = cloneBaseFor src ∨ loc.2 = snapshotKeyFor dst

/-- A clone keeps to the snapshots of its source, of the base and of the new container. -/
theorem cloneContainer_locs (client : Client) {src dst : String} (dstName : String)
    (opts : CloneContainerOpts) {w : World κ} (hid : ids dst)
    (hkey : ∀ record, w.containers.lookup src = some record →
      locs (record.snapshotter, record.snapshotKey))
    (hbase : ∀ snapshotter, locs (snapshotter, cloneBaseFor src))
    (hdst : ∀ snapshotter, locs (snapshotter, snapshotKeyFor dst)) :
    Within ids locs w (after (cloneContainer client src dst dstName opts).run w) := by
  refine cloneContainer_frame (fun _ _ => .of_calm) fun srcInfo record hl => ?_
  refine cloneFrom_steps statSnapshot_within (commit_within (hbase _) (hkey record hl))
    (fun key hk => prepareSnapshot_within ?_) (fun image createOpts hfrom => ?_)
    (removeSnapshot_within (hdst _))
  · rcases hk with rfl | rfl
    · exact hkey record hl
    · exact hdst _
  · exact createWithId_within hid (hdst _) (by rw [hfrom]; rfl)

theorem cloneContainer_within (client : Client) (src dst dstName : String)
    (opts : CloneContainerOpts) {w : World κ} (h : OwnKeys w) :
    Within (· = dst) (CloneLocs src dst) w
      (after (cloneContainer client src dst dstName opts).run w) :=
  cloneContainer_locs client dstName opts rfl (fun record hl => .inl (h src record hl))
    (fun _ => .inr (.inl rfl)) fun _ => .inr (.inr rfl)

/-- A reset keeps to the snapshot of its container. -/
theorem resetToSnapshot_locs (client : Client) {id : String} (name : String)
    (opts : ResetToSnapshotOpts)
    {w : World κ} (hkey : ∀ record, w.containers.lookup id = some record →
      locs (record.snapshotter, record.snapshotKey)) :
    Within ids locs w (after (resetToSnapshot client id name opts) w) := by
  exact resetToSnapshot_frame (fun _ _ => .of_calm) (fun _ => statSnapshot_within)
    fun record hl =>
      replaceActive_frame (prepareSnapshot_within (hkey record hl))
        (removeSnapshot_within (hkey record hl))

theorem resetToSnapshot_within (client : Client) (id name : String) (opts : ResetToSnapshotOpts)
    {w : World κ} (h : OwnKeys w) :
    Within (fun _ => False) (fun loc => loc.2 = snapshotKeyFor id) w
      (after (resetToSnapshot client id name opts) w) :=
  resetToSnapshot_locs client name opts fun record hl => h id record hl

theorem commitSnapshot_keeps {client : Client} {src name : String} {opts : SnapshotContainerOpts}
    {record : ContainerRecord} {wasRunning : Bool}
    (hkey : locs (record.snapshotter, record.snapshotKey))
    (hname : locs (record.snapshotter, name)) :
    Keeps (Within (κ := κ) ids locs) (commitSnapshot client src name opts record wasRunning) := by
  exact commitSnapshot_frame (fun _ _ => .of_calm) (commit_within hname hkey)
    (prepareSnapshot_within hkey) (removeSnapshot_within hname)

/-- The snapshots a `snapshot_container` of `src` may change: a name that is taken
stays as it is. -/
def SnapshotLocs (w : World κ) (src name : String) (loc : SnapshotKey) : Prop :=
  loc.2 = snapshotKeyFor src ∨ (loc.2 = name ∧ w.snapshots.lookup loc = none)

theorem commitSnapshot_within (client : Client) (src name : String) (opts : SnapshotContainerOpts)
    {record : ContainerRecord} (wasRunning : Bool) (hkey : record.snapshotKey = snapshotKeyFor src)
    (w : World κ) :
    Within (fun _ => False) (SnapshotLocs w src name) w
      (after (commitSnapshot client src name opts record wasRunning) w) := by
  cases htaken : w.snapshots.lookup (record.snapshotter, name) with
  | none => exact commitSnapshot_keeps (.inl hkey) (.inr ⟨rfl, htaken⟩) w
  | some snap =>
    obtain ⟨code, e, w', hr, hcalm⟩ := commitSnapshot_taken src wasRunning client opts htaken
    rw [after_error hr]
    exact IsTrans.trans _ _ _ (.noted client w _ _) (.of_calm hcalm)

theorem snapshotContainer_within (client : Client) (src name : String)
    (opts : SnapshotContainerOpts) {w : World κ} (h : OwnKeys w) :
    Within (fun _ => False) (SnapshotLocs w src name) w
      (after (snapshotContainer client src name opts) w) := by
  refine snapshotContainer_frame (fun _ _ => .of_calm) fun record wasRunning w₁ hl hs => ?_
  have hlocs : SnapshotLocs w src name = SnapshotLocs w₁ src name := by
    unfold SnapshotLocs
    rw [hs.snapshots]
  rw [hlocs]
  exact commitSnapshot_within client src name opts wasRunning (h src record hl) w₁

theorem writeLayer_within (id : String) (f : κ → κ) {w : World κ} (h : OwnKeys w) :
    Within (fun _ => False) (fun loc => loc.2 = snapshotKeyFor id) w (writeLayer id f w) := by
  unfold writeLayer
  split
  · exact Std.Refl.refl w
  · rename_i record hrecord
    split
    · exact Std.Refl.refl w
    · split
      · refine .of_snapshots rfl fun loc hloc => AList.lookup_insert_ne ?_
        rintro rfl
        exact hloc (h id record hrecord)
      · exact Std.Refl.refl w

/-! ## The footprint of an act -/

def Act.touchesId : Act κ → String → Prop
  | .create _ id _ _ _ | .restore _ _ id _ _ | .clone _ _ id _ _ | .delete _ id _ => (· = id)
  | _ => fun _ => False

def Act.touchesLoc (w : World κ) : Act κ → SnapshotKey → Prop
  | .create _ id _ _ _ | .restore _ _ id _ _ | .delete _ id _ | .reset _ id _ _ | .write id _ =>
    fun loc => loc.2 = snapshotKeyFor id
  | .clone _ src dst _ _ => CloneLocs src dst
  | .snapshot _ src name _ => SnapshotLocs w src name
  | .deleteSnapshot _ name => fun loc => loc.2 = name
  | _ => fun _ => False

/-- **Every act keeps to its footprint**, whatever fails. -/
theorem apply_within {w : World κ} (h : OwnKeys w) {a : Act κ} (ha : a.Proper w) :
    Within a.touchesId (a.touchesLoc w) w (a.apply w) := by
  cases a with
  | create client id name image opts => exact createContainer_within client id name image ha.2 w
  | clone client src dst dstName opts => exact cloneContainer_within client src dst dstName opts h
  | snapshot client src name opts => exact snapshotContainer_within client src name opts h
  | restore client name dst dstName opts =>
      exact restoreContainer_within client name dst dstName opts w
  | reset client id name opts => exact resetToSnapshot_within client id name opts h
  | start client id => exact .of_calm (startContainer_keeps w)
  | stop client id timeout => exact .of_calm (stopContainer_keeps w)
  | delete client id timeout => exact deleteContainer_within client id timeout w
  | deleteSnapshot client name => exact deleteSnapshot_within client name w
  | write id f => exact writeLayer_within id f h

theorem run_ownKeys {w w' : World κ} {acts : List (Act κ)} (h : OwnKeys w)
    (hacts : Along Act.step Act.Proper w acts) (hr : run Act.step w acts = some w') :
    OwnKeys w' := by
  refine run_inv (fun w a w' h ha hs => ?_) h hacts hr
  cases hs
  exact h.within (apply_within h ha)

/-- An act that does not name a container changes neither its record nor its root snapshot. -/
theorem not_locs_of_not_names {w : World κ} {a : Act κ} (ha : a.Proper w) {id : String}
    (hid : (w.containers.lookup id).isSome) (hn : ¬ a.Names id) (snapshotter : String) :
    ¬ a.touchesId id ∧ ¬ a.touchesLoc w (snapshotter, snapshotKeyFor id) := by
  have hnew : ∀ dst, w.containers.lookup dst = none → id ≠ dst := by
    rintro dst hdst rfl
    rw [hdst] at hid
    cases hid
  have hkeys : ∀ {a b}, snapshotKeyFor a = snapshotKeyFor b → a = b :=
    fun h => snapshotKeyFor_injective h
  cases a with
  | create client id' name image opts => exact ⟨hnew id' ha.1, fun h => hnew id' ha.1 (hkeys h)⟩
  | clone client src dst dstName opts =>
    refine ⟨hnew dst ha, ?_⟩
    rintro (h | h | h)
    · exact hn (hkeys h).symm
    · exact snapshotKeyFor_ne_base _ _ h
    · exact hnew dst ha (hkeys h)
  | snapshot client src name opts =>
    refine ⟨nofun, ?_⟩
    rintro (h | ⟨h, -⟩)
    · exact hn (hkeys h).symm
    · exact ha.1 id h.symm
  | restore client name dst dstName opts => exact ⟨hnew dst ha, fun h => hnew dst ha (hkeys h)⟩
  | reset client id' name opts => exact ⟨nofun, fun h => hn (hkeys h).symm⟩
  | start client id' => exact ⟨nofun, nofun⟩
  | stop client id' timeout => exact ⟨nofun, nofun⟩
  | delete client id' timeout => exact ⟨fun h => hn h.symm, fun h => hn (hkeys h).symm⟩
  | deleteSnapshot client name => exact ⟨nofun, fun h => ha.1 id h.symm⟩
  | write id' f => exact ⟨nofun, fun h => hn (hkeys h).symm⟩

/-- An act changes a snapshot under a plain name only if it deletes it. -/
theorem not_locs_of_plain {w : World κ} {a : Act κ} {loc : SnapshotKey} {snap : Snapshot κ}
    (hloc : w.snapshots.lookup loc = some snap) (hplain : PlainName loc.2)
    (hn : ¬ a.Deletes loc.2) :
    ¬ a.touchesLoc w loc := by
  cases a with
  | create client id' name image opts => exact hplain.1 id'
  | clone client src dst dstName opts =>
    rintro (h | h | h)
    · exact hplain.1 src h
    · exact hplain.2 src h
    · exact hplain.1 dst h
  | snapshot client src name opts =>
    rintro (h | ⟨-, h⟩)
    · exact hplain.1 src h
    · rw [hloc] at h
      cases h
  | restore client name dst dstName opts => exact hplain.1 dst
  | reset client id' name opts => exact hplain.1 id'
  | start client id' => exact nofun
  | stop client id' timeout => exact nofun
  | delete client id' timeout => exact hplain.1 id'
  | deleteSnapshot client name => exact fun h => hn h.symm
  | write id' f => exact hplain.1 id'

/-! ## All together -/

theorem seen_within {w w' : World κ} (h : OwnKeys w) {id : String} (hw : Within ids locs w w')
    (hid : ¬ ids id) (hloc : ∀ snapshotter, ¬ locs (snapshotter, snapshotKeyFor id)) :
    seen w' id = seen w id := by
  unfold seen
  rw [hw.records id hid]
  cases hr : w.containers.lookup id with
  | none => rfl
  | some record =>
    have hkey := h id record hr
    rw [Option.bind_some, Option.bind_some, hkey, hw.snapshots _ (hloc _)]

/-- A successful `snapshot_container` leaves what the source saw under the name. -/
theorem snapshotContainer_ok {client : Client} {src name : String} {opts : SnapshotContainerOpts}
    {w w' : World κ} (h : snapshotContainer client src name opts w = .ok () w') :
    ∃ record snap, w.containers.lookup src = some record ∧
      w'.snapshots.lookup (record.snapshotter, name) = some snap ∧ snap.kind = .committed ∧
      seen w src = some snap.content := by
  obtain ⟨⟨record, wasRunning⟩, w₁, hstop, h⟩ := bind_eq_ok h
  have hrecord := stopForSnapshot_record hstop
  have hsnaps := (stopForSnapshot_keeps.ok hstop).snapshots
  dsimp only at h
  unfold commitSnapshot at h
  rcases snapshotRequest_cases client (.commit record.snapshotter name record.snapshotKey)
    (fun snaps => snaps.commit record.snapshotter name record.snapshotKey
        (snapshotLabels record.image opts.description)) w₁ with ⟨snaps, -, hans, hr⟩ | ⟨code, -, hr⟩
  · rw [bind_ok hr] at h
    obtain ⟨hfree, snap, hsnap, -, rfl⟩ := Snapshots.commit_eq_ok hans
    dsimp only at h
    obtain ⟨prepared, w₂, hprep, h⟩ := bind_eq_ok h
    cases prepared with
    | error code =>
      obtain ⟨_, _, -, hthrow⟩ := bind_eq_ok h
      cases hthrow
    | ok _ =>
      have hsame := (restartSource_keeps.ok h).snapshots
      have hkeeps : Keeps (Within (κ := κ) (fun _ => False)
        (· = (record.snapshotter, record.snapshotKey)))
          (prepareSnapshot client record.snapshotter record.snapshotKey name) :=
            prepareSnapshot_within rfl
      have hname := (hkeeps.ok hprep).snapshots _ (Snapshots.name_ne_key hfree hsnap)
      have hlook : w'.snapshots.lookup (record.snapshotter, name) = some { snap with
          kind := .committed, labels := snapshotLabels record.image opts.description } := by
        rw [hsame, hname]
        exact Snapshots.lookup_committed_name
      refine ⟨record, _, hrecord, hlook, rfl, ?_⟩
      rw [seen, hrecord, Option.bind_some, ← hsnaps, hsnap]
      rfl
  · rw [bind_ok hr] at h
    obtain ⟨_, _, -, hthrow⟩ := bind_eq_ok h
    cases hthrow

/-- **Isolation of root filesystems.** In every run, whatever fails: an act changes what a container
sees only if it is a write of its task, a reset, a snapshot or a clone of it, or its deletion; and
what a successful `snapshot_container` left under a name stays there unchanged until a
`delete_snapshot` of that name. -/
theorem rootfs_isolation (w₀ : World κ) (h₀ : OwnKeys w₀) (acts : List (Act κ))
    (hacts : Along Act.step Act.Proper w₀ acts) (w : World κ) (hr : run Act.step w₀ acts = some w) :
    (∀ (a : Act κ) id, a.Proper w → (w.containers.lookup id).isSome →
      seen (a.apply w) id ≠ seen w id →
      a.Names id) ∧
    (∀ client src name opts w₁, PlainName name → snapshotContainer client src name opts w =
      .ok () w₁ →
      ∃ record snap, w.containers.lookup src = some record ∧
        w₁.snapshots.lookup (record.snapshotter, name) = some snap ∧ snap.kind = .committed ∧
        ∀ later w₂, Along Act.step Act.Proper w₁ later → (∀ a ∈ later, ¬ a.Deletes name) →
          run Act.step w₁ later = some w₂ →
          w₂.snapshots.lookup (record.snapshotter, name) = some snap) := by
  have hown := run_ownKeys h₀ hacts hr
  constructor
  · intro a id ha hid hchanged
    by_contra hn
    have hnot := not_locs_of_not_names ha hid hn
    exact hchanged (seen_within hown (apply_within hown ha) (hnot "").1 fun sn => (hnot sn).2)
  · intro client src name opts w₁ hplain hok
    obtain ⟨record, snap, hrecord, hsnap, hkind, -⟩ := snapshotContainer_ok hok
    refine ⟨record, snap, hrecord, hsnap, hkind, fun later w₂ hlater hnot hrun => ?_⟩
    have hown₁ : OwnKeys w₁ := by
      have hstep := hown.within (apply_within hown (a := .snapshot client src name opts) hplain)
      rwa [Act.apply, after_ok hok] at hstep
    clear hok
    induction later generalizing w₁ with
    | nil => cases hrun; exact hsnap
    | cons a later ih =>
      obtain ⟨w', hs, hrun⟩ := run_cons.mp hrun
      cases hs
      have hw := apply_within hown₁ hlater.1
      refine ih _ ?_ (hlater.2 _ rfl) (fun b hb => hnot b (List.mem_cons_of_mem _ hb)) hrun
        (hown₁.within hw)
      rw [hw.snapshots _ (not_locs_of_plain hsnap hplain (hnot a List.mem_cons_self))]
      exact hsnap

/-! ## Two containers of one image -/

theorem plainName_of_last {name : String} {c : Char} (h : name.toList.getLast? = some c)
    (ht : c ≠ 't') (he : c ≠ 'e') : PlainName name := by
  constructor
  · rintro id rfl
    rw [getLast_snapshotKeyFor] at h
    exact ht (Option.some.inj h).symm
  · rintro id rfl
    rw [getLast_cloneBaseFor] at h
    exact he (Option.some.inj h).symm

/-- A store with one image, whose content is 0. -/
def zeroImage : World Nat where
  snapshots := (∅ : Snapshots Nat).insert (defaultSnapshotter, "chain")
    { kind := .committed, parent := "", labels := ∅, content := 0 }
  containers := ∅
  images := oneImage.images
  metadataCache := oneImage.metadataCache

def twoOfImage : List (Act Nat) :=
  [.create {} "c1" "web" "mongo" { network := .host },
    .create {} "c2" "db" "mongo" { network := .host },
    .write "c1" fun _ => 7]

theorem twoOfImage_proper : Along Act.step Act.Proper zeroImage twoOfImage := by
  refine ⟨⟨rfl, rfl⟩, fun w hs => ?_⟩
  cases hs
  refine ⟨⟨by decide +kernel, rfl⟩, fun w hs => ⟨trivial, fun _ _ => trivial⟩⟩

/-- The first container's write is not seen by the second, and a snapshot of it
outlives the next write. -/
theorem two_containers_isolated : ∃ w, run Act.step zeroImage twoOfImage = some w ∧
    seen w "c1" = some 7 ∧ seen w "c2" = some 0 ∧
    seen (Act.apply w (.write "c1" fun _ => 8)) "c2" = seen w "c2" ∧
    ∃ w₁, snapshotContainer {} "c1" "saved" {} w = .ok () w₁ ∧ ∃ record snap,
      w.containers.lookup "c1" = some record ∧
      (Act.apply w₁ (.write "c1" fun _ => 8)).snapshots.lookup (record.snapshotter, "saved") =
        some snap := by
  obtain ⟨w, hr, h1, h2, hok⟩ := run_eval Act.step zeroImage twoOfImage
    (fun w => seen w "c1" = some 7 ∧ seen w "c2" = some 0 ∧
      (result (snapshotContainer {} "c1" "saved" {}) w).toOption = some ()) (by decide +kernel)
  obtain ⟨w₁, hok⟩ := ok_of_result hok
  obtain ⟨hseen, hnamed⟩ := rootfs_isolation zeroImage (fun _ _ h => by cases h) twoOfImage
    twoOfImage_proper w hr
  have hplain : PlainName "saved" :=
    plainName_of_last (c := 'd') (by decide) (by decide) (by decide)
  obtain ⟨record, snap, hrecord, -, -, hlater⟩ := hnamed {} "c1" "saved" {} w₁ hplain hok
  refine ⟨w, hr, h1, h2, ?_, w₁, hok, record, snap, hrecord, ?_⟩
  · by_contra hchanged
    have hsome : (w.containers.lookup "c2").isSome := by
      by_contra hnone
      rw [Option.not_isSome_iff_eq_none] at hnone
      rw [seen, hnone] at h2
      cases h2
    have hnames : "c1" = "c2" := hseen (.write "c1" fun _ => 8) "c2" trivial hsome hchanged
    exact absurd hnames (by decide)
  · exact hlater [.write "c1" fun _ => 8] _ ⟨trivial, fun _ _ => trivial⟩
      (fun a ha => by rw [List.mem_singleton.mp ha]; exact nofun) rfl

end ContainerdManager.System
