import ContainerdManager.Clone.Base
import ContainerdManager.Container.Rollback
import ContainerdManager.Snapshot.Restore
import ContainerdManager.Task.Delete

/-!
# Calls without faults

What the calls do to the store when every request is answered, every builder
succeeds and the host always has a free port. A call then does all it is
asked for or leaves the store as it was (`AllOrNothing`), with two
exceptions: a create that finds no free bridge IP, and a clone that commits
the base of its source.
-/

namespace ContainerdManager.System

open Lib Containerd Container Snapshot Clone ContainerdManager.Task

variable {κ α β : Type}

structure Faultless (client : Client) : Prop where
  requests : ∀ n, client.fault n = none
  builds : ∀ n, client.buildError n = none
  ports : ∀ n, ∃ port, client.freePort n = .port port

/-- The bridge network has no octet left. -/
def Exhausted (w : World κ) : Prop := ∀ octet, 2 ≤ octet → octet ≤ 254 → octet ∈ usedOctets w

/-- The call fails and leaves the store as it was, or succeeds with `Q`. -/
def AllOrNothing (m : Op κ α) (w : World κ) (Q : α → World κ → Prop) : Prop :=
  (∃ e w', m w = .error e w' ∧ SameStore w w') ∨ ∃ a w', m w = .ok a w' ∧ Q a w'

theorem AllOrNothing.mono {m : Op κ α} {w : World κ} {Q Q' : α → World κ → Prop}
    (h : AllOrNothing m w Q) (hQ : ∀ a w', Q a w' → Q' a w') : AllOrNothing m w Q' := by
  rcases h with herror | ⟨a, w', hr, hq⟩
  · exact .inl herror
  · exact .inr ⟨a, w', hr, hQ a w' hq⟩

/-- After a part that changes nothing. -/
theorem AllOrNothing.bind {m : Op κ α} {f : α → Op κ β} {w : World κ} {Q : β → World κ → Prop}
    (hm : Keeps SameStore m)
    (hf : ∀ a w₁, m w = .ok a w₁ → SameStore w w₁ → AllOrNothing (f a) w₁ Q) :
    AllOrNothing (m >>= f) w Q := by
  cases hr : m w with
  | error e w₁ => exact .inl ⟨e, w₁, bind_error hr, hm.error hr⟩
  | ok a w₁ =>
    have hsame := hm.ok hr
    unfold AllOrNothing
    rw [bind_ok hr]
    rcases hf a w₁ hr hsame with ⟨e, w', hr', hs⟩ | hok
    · exact .inl ⟨e, w', hr', IsTrans.trans _ _ _ hsame hs⟩
    · exact .inr hok

/-- Whatever its outcome, the call leaves the store as it was or makes it one with `Q`. -/
def Leaves (m : Op κ α) (w : World κ) (Q : World κ → Prop) : Prop :=
  SameStore w (after m w) ∨ Q (after m w)

theorem Leaves.bind {m : Op κ α} {f : α → Op κ β} {w : World κ} {Q : World κ → Prop}
    (hm : Keeps SameStore m) (hf : ∀ a w₁, m w = .ok a w₁ → SameStore w w₁ → Leaves (f a) w₁ Q) :
    Leaves (m >>= f) w Q := by
  cases hr : m w with
  | error e w₁ =>
    refine .inl ?_
    rw [after_bind_error hr]
    exact hm.error hr
  | ok a w₁ =>
    have hsame := hm.ok hr
    unfold Leaves
    rw [after_bind_ok hr]
    exact (hf a w₁ hr hsame).imp_left fun hs => IsTrans.trans _ _ _ hsame hs

/-- What follows changes nothing. -/
theorem AllOrNothing.leaves {m : Op κ α} {f : α → Op κ β} {w : World κ} {Q : World κ → Prop}
    (hm : AllOrNothing m w fun _ => Q) (hf : ∀ a, Keeps SameStore (f a))
    (hQ : ∀ w₁ w', Q w₁ → SameStore w₁ w' → Q w') : Leaves (m >>= f) w Q := by
  unfold Leaves
  rcases hm with ⟨e, w₁, hr, hs⟩ | ⟨a, w₁, hr, hq⟩
  · rw [after_bind_error hr]
    exact .inl hs
  · rw [after_bind_ok hr]
    exact .inr (hQ _ _ hq (hf a w₁))

/-! ## Create -/

/-- One record more, of a container with the root snapshot `key`. -/
structure Recorded (id key : String) (w w' : World κ) : Prop where
  snapshots : w'.snapshots = w.snapshots
  record : ∃ record : ContainerRecord, record.snapshotter = defaultSnapshotter ∧
    record.snapshotKey = key ∧ w'.containers = w.containers.insert id record

theorem Recorded.of_sameStore {id key : String} {w w₁ w' : World κ} (h : Recorded id key w₁ w')
    (hs : SameStore w w₁) : Recorded id key w w' := by
  obtain ⟨hsnaps, record, hsn, hkey, hconts⟩ := h
  exact ⟨hsnaps.trans hs.snapshots, record, hsn, hkey, by rw [hconts, hs.containers]⟩

section Create

variable {client : Client} (h : Faultless client) (id name image : String)
  {opts : CreateContainerOpts} (metadata : ImageMetadata) {key : String} (wePrepared : Bool)
  {w : World κ}

include h

theorem Faultless.exhausted (hs : SetupFails client opts w) :
    opts.network = .bridge ∧ Exhausted w := by
  have hbuild : ∀ first n, ¬ BuildFails client first n := fun first n ⟨j, _, hj⟩ => hj (h.builds _)
  unfold SetupFails at hs
  split at hs
  · rename_i hmode
    refine ⟨hmode, ?_⟩
    rcases hs with hf | hused | ⟨i, -, hport⟩ | hb
    · exact absurd (h.requests _) hf
    · exact hused
    · obtain ⟨port, hp⟩ := h.ports (w.portPicks + i)
      exact absurd hp (hport port)
    · exact absurd hb (hbuild _ _)
  · exact absurd hs (hbuild _ _)

theorem createRecord_fresh (hid : w.containers.lookup id = none) (record : ContainerRecord) :
    createRecord client id record w = .ok (.ok ())
      { w.noted client (.createContainer id record) none with
        containers := w.containers.insert id record } := by
  have hadv : (w.advance client).containers = w.containers := rfl
  simp only [createRecord, request, outcome, h.requests, hadv, hid]
  rfl

/-- From the root snapshot to the record: only a missing bridge IP stands in the way. -/
theorem setupAndCommit_outcome (opts : CreateContainerOpts) (key : String)
    (hid : w.containers.lookup id = none) :
    (opts.network = .bridge ∧ Exhausted w ∧ ∃ e w',
      (setupAndCommit client id name image opts metadata key wePrepared).run w = .error e w' ∧
      SameStore w w') ∨
    ∃ w', (setupAndCommit client id name image opts metadata key wePrepared).run w = .ok id w' ∧
      Recorded id key w w' := by
  simp only [setupAndCommit, Prog.run_bind]
  rcases setup_run client id name image opts metadata key w with
    ⟨-, bridge, w₁, hok, -⟩ | ⟨hs, e, w₁, hf⟩
  · have hstore := setup_store.ok hok
    refine .inr ⟨{ w₁.noted client (.createContainer id
      (recordOf client id name image opts metadata key bridge)) none with
        containers := w₁.containers.insert id
          (recordOf client id name image opts metadata key bridge) }, ?_, hstore.snapshots, _, rfl,
      rfl, by rw [hstore.containers]⟩
    rw [bind_ok hok]
    simp only [commitRecord, call, Prog.run_bind, Prog.run_atomic]
    rw [bind_ok (createRecord_fresh h id (by rw [hstore.containers]; exact hid) _)]
    rfl
  · obtain ⟨hmode, hused⟩ := h.exhausted hs
    exact .inl ⟨hmode, hused, e, w₁, bind_error hf, setup_store.error hf⟩

/-- The lock changes neither the outcome nor the store. -/
theorem finish_outcome (opts : CreateContainerOpts) (key : String)
    (hid : w.containers.lookup id = none) :
    (opts.network = .bridge ∧ Exhausted w ∧ ∃ e w',
      (if opts.network = .bridge then
          withAllocLock (setupAndCommit client id name image opts metadata key wePrepared)
        else setupAndCommit client id name image opts metadata key wePrepared :
          Proc κ String).run w = .error e w' ∧ SameStore w w') ∨
    ∃ w', (if opts.network = .bridge then
          withAllocLock (setupAndCommit client id name image opts metadata key wePrepared)
        else setupAndCommit client id name image opts metadata key wePrepared :
          Proc κ String).run w = .ok id w' ∧ Recorded id key w w' := by
  split
  · obtain ⟨hok, herror⟩ := withAllocLock_run
      (setupAndCommit client id name image opts metadata key wePrepared) w
    rcases setupAndCommit_outcome h id name image metadata wePrepared
      (w := { w with allocLock := true })
        opts key hid with
      ⟨hmode, hused, e, w', hr, hs⟩ | ⟨w', hr, hrec⟩
    · exact .inl ⟨hmode, hused, e, _, herror e w' hr, ⟨hs.snapshots, hs.containers⟩⟩
    · exact .inr ⟨_, hok id w' hr, ⟨hrec.snapshots, hrec.record⟩⟩
  · exact setupAndCommit_outcome h id name image metadata wePrepared opts key hid

/-- **A create on a snapshot that is there already** only adds the record. -/
theorem createWithId_adopts (hid : w.containers.lookup id = none)
    (hfrom : opts.fromExistingSnapshot = some key) :
    AllOrNothing (createContainerWithId client id name image opts).run w
      fun r w' => r = id ∧ Recorded id key w w' := by
  have hsteps : (prepareContainer (κ := κ) client id name image opts).Steps SameStore :=
    prepareContainer_steps (fun _ _ => Calm.toSameStore)
      (checkName_keeps fun w r => .noted client w _ r) fun hnone => by
        rw [hfrom] at hnone; cases hnone
  simp only [createContainerWithId, Prog.run_bind]
  refine .bind hsteps.keeps fun r w₁ hprep hsame => ?_
  have hkey : r.2.1 = key := by
    have hgiven := (prepareContainer_key.run_ok hprep).1
    rwa [hfrom] at hgiven
  rcases finish_outcome h id name image r.1 r.2.2 opts r.2.1
      (by rw [hsame.containers]; exact hid) with
    ⟨-, -, herror⟩ | ⟨w', hr, hrec⟩
  · exact .inl herror
  · rw [hkey] at hrec
    exact .inr ⟨id, w', hr, rfl, hrec.of_sameStore hsame⟩

end Create

/-- A root snapshot for a new container, and its record. -/
structure NewContainer (id : String) (w w' : World κ) : Prop where
  prepared : ∃ parent, w.snapshots.prepare defaultSnapshotter (snapshotKeyFor id) parent ∅ =
    .ok w'.snapshots
  record : ∃ record : ContainerRecord, record.snapshotter = defaultSnapshotter ∧
    record.snapshotKey = snapshotKeyFor id ∧ w'.containers = w.containers.insert id record

/-- **A create that finds a bridge IP.** -/
theorem createWithId_provides {client : Client} (h : Faultless client) {id name image : String}
    {opts : CreateContainerOpts} {w : World κ} (hid : w.containers.lookup id = none)
    (hfrom : opts.fromExistingSnapshot = none) (hfree : opts.network = .bridge → ¬ Exhausted w) :
    AllOrNothing (createContainerWithId client id name image opts).run w
      fun r w' => r = id ∧ NewContainer id w w' := by
  unfold AllOrNothing
  simp only [createContainerWithId, Prog.run_bind]
  rcases prepareContainer_run client id name image hfrom w with
    ⟨metadata, w₁, hprep, hans, hconts, -⟩ | ⟨e, w₁, hprep, hstore⟩
  · rw [bind_ok hprep]
    rcases finish_outcome h id name image metadata true (w := w₁) opts (snapshotKeyFor id)
        (by rw [hconts]; exact hid) with ⟨hmode, hused, -⟩ |
          ⟨w', hr, hsnaps, record, hsn, hkey, hrec⟩
    · refine absurd ?_ (hfree hmode)
      have hoctets : usedOctets w₁ = usedOctets w := by rw [usedOctets, hconts]; rfl
      unfold Exhausted at hused
      rwa [hoctets] at hused
    · refine .inr ⟨id, w', hr, rfl, ⟨metadata.chainId, ?_⟩, record, hsn, hkey, ?_⟩
      · rw [hans, hsnaps]
      · rw [hrec, hconts]
  · exact .inl ⟨e, w₁, bind_error hprep, hstore⟩

/-! ## Snapshot requests -/

theorem snapshotKeyFor_ne_empty (id : String) : snapshotKeyFor id ≠ "" := by
  intro e
  have hlen := congrArg String.length e
  simp [snapshotKeyFor] at hlen

section Requests

variable {client : Client} (h : Faultless client)

include h

/-- A request to the snapshot service comes to what the service answers. -/
theorem snapshotRequest_answered (call : Call) (answer : Snapshots κ → Except Code (Snapshots κ))
    (w : World κ) :
    (∃ w', answer w.snapshots = .ok w'.snapshots ∧ w'.containers = w.containers ∧
      snapshotRequest client call answer w = .ok (.ok ()) w') ∨
    (∃ code w', answer w.snapshots = .error code ∧ SameStore w w' ∧
      snapshotRequest client call answer w = .ok (.error code) w') := by
  rcases snapshotRequest_cases client call answer w with
    ⟨snaps, -, hans, hr⟩ | ⟨code, hfault | ⟨-, hans⟩, hr⟩
  · exact .inl ⟨{ w.noted client call none with snapshots := snaps }, hans, rfl, hr⟩
  · rw [h.requests] at hfault
    cases hfault
  · exact .inr ⟨code, _, hans, .noted client w _ _, hr⟩

/-- A root snapshot that was prepared for nothing is removed again. -/
theorem removeSnapshot_undoes {id parent : String} {w w₁ w₂ : World κ}
    (hrooted : w.snapshots.Rooted)
    (hprep : w.snapshots.prepare defaultSnapshotter (snapshotKeyFor id) parent ∅ = .ok w₁.snapshots)
    (hconts : w₁.containers = w.containers) (hsame : SameStore w₁ w₂) :
    ∃ answer w', removeSnapshot client defaultSnapshotter (snapshotKeyFor id) w₂ = .ok answer w' ∧
      SameStore w w' := by
  have hremove := hrooted.remove_prepared (snapshotKeyFor_ne_empty id) hprep
  rw [← hsame.snapshots] at hremove
  rcases snapshotRequest_answered h (.remove defaultSnapshotter (snapshotKeyFor id))
      (fun snaps => snaps.remove defaultSnapshotter (snapshotKeyFor id)) w₂ with
    ⟨w', hans, hc, hr⟩ | ⟨code, w', hans, -⟩
  · refine ⟨_, w', hr, ?_, hc.trans (hsame.containers.trans hconts)⟩
    exact Except.ok.inj (hans.symm.trans hremove)
  · cases hans.symm.trans hremove

end Requests

/-! ## Clone and restore -/

theorem Recorded.newContainer {id parent : String} {w w₁ w' : World κ}
    (h : Recorded id (snapshotKeyFor id) w₁ w') (hconts : w₁.containers = w.containers)
    (hprep : w.snapshots.prepare defaultSnapshotter (snapshotKeyFor id) parent ∅ =
      .ok w₁.snapshots) :
    NewContainer id w w' := by
  obtain ⟨hsnaps, record, hsn, hkey, hrec⟩ := h
  refine ⟨⟨parent, ?_⟩, record, hsn, hkey, ?_⟩
  · rw [hprep, hsnaps]
  · rw [hrec, hconts]

theorem NewContainer.of_sameStore {id : String} {w w₁ w' : World κ} (h : NewContainer id w₁ w')
    (hs : SameStore w w₁) : NewContainer id w w' := by
  obtain ⟨⟨parent, hprep⟩, record, hsn, hkey, hconts⟩ := h
  refine ⟨⟨parent, ?_⟩, record, hsn, hkey, ?_⟩
  · rw [← hs.snapshots]
    exact hprep
  · rw [hconts, hs.containers]

theorem NewContainer.then_sameStore {id : String} {w w₁ w' : World κ} (h : NewContainer id w w₁)
    (hs : SameStore w₁ w') : NewContainer id w w' := by
  obtain ⟨hprep, record⟩ := h
  rw [← hs.snapshots] at hprep
  rw [← hs.containers] at record
  exact ⟨hprep, record⟩

section Adopt

variable {client : Client} (h : Faultless client) {w : World κ} (hrooted : w.snapshots.Rooted)

include h

/-- A base that is there is used; without one the source has nothing to commit. -/
theorem ensureCloneBase_finds {snapshotter key base : String}
    (hbase : Active w snapshotter key → (snapshotter, base) ∈ w.snapshots) :
    AllOrNothing (ensureCloneBase client snapshotter key base).run w fun _ w' =>
      SameStore w w' := by
  unfold AllOrNothing
  simp only [ensureCloneBase, call, Prog.run_bind, Prog.run_atomic]
  rcases statSnapshot_cases client w snapshotter base with
    ⟨snap, -, hr⟩ | ⟨code, hfault | ⟨-, rfl, hnone⟩, hr⟩
  · rw [bind_ok hr]
    exact .inr ⟨(), _, rfl, .noted client w _ _⟩
  · rw [h.requests] at hfault
    cases hfault
  · rw [bind_ok hr]
    refine .inl ?_
    have hnot : ¬ Active w snapshotter key := fun hactive =>
      AList.lookup_eq_none.mp hnone (hbase hactive)
    -- the commit fails, and not because of a race
    simp only [if_true, commitCloneBase, call, Prog.run_bind, Prog.run_atomic]
    rcases snapshotRequest_answered h (.commit snapshotter base key)
        (fun snaps => snaps.commit snapshotter base key ∅)
        (w.noted client (.stat snapshotter base) (some .notFound)) with
      ⟨w', hans, -⟩ | ⟨code, w', hans, hs, hr⟩
    · obtain ⟨-, snap, hsnap, hkind, -⟩ := Snapshots.commit_eq_ok hans
      exact absurd ⟨snap, hsnap, hkind⟩ hnot
    · have hcode : code ≠ .alreadyExists := by
        rintro rfl
        rw [noted_snapshots, Snapshots.commit, hnone] at hans
        dsimp only at hans
        split at hans
        · cases hans
        · split at hans <;> cases hans
      rw [commitActive, bind_ok hr]
      simp only [if_neg hcode]
      exact ⟨_, w', rfl, IsTrans.trans _ _ _ (.noted client w _ _) hs⟩

include hrooted

/-- **The record of a clone**, or the removal of its root snapshot. -/
theorem recordClone_outcome {dst parent : String} (dstName : String) (srcInfo : ContainerInfo)
    (opts : CloneContainerOpts) {w₁ : World κ} (hdst : w.containers.lookup dst = none)
    (hprep : w.snapshots.prepare defaultSnapshotter (snapshotKeyFor dst) parent ∅ =
      .ok w₁.snapshots)
    (hconts : w₁.containers = w.containers) :
    (∃ e w', (recordClone client defaultSnapshotter dst dstName srcInfo opts).run w₁ = .error e w' ∧
      SameStore w w') ∨
    ∃ w', (recordClone client defaultSnapshotter dst dstName srcInfo opts).run w₁ = .ok dst w' ∧
      NewContainer dst w w' := by
  have hcreate : AllOrNothing
      (createCloneRecord client dst dstName srcInfo (snapshotKeyFor dst) opts).run w₁
      fun _ w' => Recorded dst (snapshotKeyFor dst) w₁ w' := by
    unfold createCloneRecord
    split
    · exact .inl ⟨_, w₁, rfl, Std.Refl.refl w₁⟩
    · rename_i createOpts hopts
      exact (createWithId_adopts h _ _ _ (by rw [hconts]; exact hdst)
        (cloneOpts_snapshot hopts)).mono fun _ _ hq => hq.2
  simp only [recordClone, Prog.run_bind, Prog.run_attempt]
  rcases hcreate with ⟨e, w₂, hr, hsame⟩ | ⟨r, w₂, hr, hrec⟩
  · obtain ⟨answer, w', hrem, hs⟩ := removeSnapshot_undoes h hrooted hprep hconts hsame
    refine .inl ⟨e, w', ?_, hs⟩
    rw [bind_ok (attempt_error hr)]
    simp only [call, Prog.run_bind, Prog.run_atomic]
    rw [bind_ok hrem]
    rfl
  · refine .inr ⟨w₂, ?_, hrec.newContainer hconts hprep⟩
    rw [bind_ok (attempt_ok hr)]
    rfl

theorem cloneFrom_outcome {src dst : String} (dstName : String) (srcInfo : ContainerInfo)
    (opts : CloneContainerOpts) {record : ContainerRecord} (hdst : w.containers.lookup dst = none)
    (hsn : record.snapshotter = defaultSnapshotter)
    (hbase : Active w defaultSnapshotter record.snapshotKey →
      (defaultSnapshotter, cloneBaseFor src) ∈ w.snapshots) :
    AllOrNothing (cloneFrom client src dst dstName srcInfo opts record).run w
      fun r w' => r = dst ∧ NewContainer dst w w' := by
  unfold AllOrNothing
  simp only [cloneFrom, hsn, Prog.run_bind]
  rcases ensureCloneBase_finds h hbase with ⟨e, w₁, hr, hs⟩ | ⟨_, w₁, hr, hs⟩
  · exact .inl ⟨e, w₁, bind_error hr, hs⟩
  · rw [bind_ok hr]
    simp only [prepareCloneSnapshot, call, Prog.run_bind, Prog.run_atomic, bind_assoc]
    rcases snapshotRequest_answered h
        (.prepare defaultSnapshotter (snapshotKeyFor dst) (cloneBaseFor src))
        (fun snaps => snaps.prepare defaultSnapshotter (snapshotKeyFor dst) (cloneBaseFor src) ∅)
        w₁ with ⟨w₂, hans, hconts, hprep⟩ | ⟨code, w₂, -, hs', hprep⟩
    · rw [prepareSnapshot, bind_ok hprep]
      rw [hs.snapshots] at hans
      rw [hs.containers] at hconts
      rcases recordClone_outcome h hrooted dstName srcInfo opts hdst hans hconts with
        ⟨e, w', hrec, hsame⟩ | ⟨w', hrec, hnew⟩
      · exact .inl ⟨e, w', hrec, hsame⟩
      · exact .inr ⟨dst, w', hrec, rfl, hnew⟩
    · rw [prepareSnapshot, bind_ok hprep]
      exact .inl ⟨_, w₂, rfl, IsTrans.trans _ _ _ hs hs'⟩

/-- **A clone of a source that has its base**, or of one without an active snapshot. -/
theorem cloneContainer_outcome {src dst dstName : String} {opts : CloneContainerOpts}
    (hdst : w.containers.lookup dst = none)
    (hsrc : ∀ record, w.containers.lookup src = some record →
      record.snapshotter = defaultSnapshotter ∧
        (Active w defaultSnapshotter record.snapshotKey →
          (defaultSnapshotter, cloneBaseFor src) ∈ w.snapshots)) :
    AllOrNothing (cloneContainer client src dst dstName opts).run w
      fun r w' => r = dst ∧ NewContainer dst w w' := by
  rcases cloneContainer_run client src dst dstName opts w with
    ⟨-, e, w', hr, hs⟩ | ⟨srcInfo, record, w₁, hfetch, hok, herror⟩
  · exact .inl ⟨e, w', hr, hs.toSameStore⟩
  · obtain ⟨hsn, hbase⟩ := hsrc record (stopAndFetch_record hfetch)
    have hs := (stopAndFetch_calm.keeps.ok hfetch).toSameStore
    have hfrom := cloneFrom_outcome h (w := w₁)
      (by rw [hs.snapshots]; exact hrooted) dstName srcInfo
      opts (by rw [hs.containers]; exact hdst) hsn
        (by unfold Active; rw [hs.snapshots]; exact hbase)
    rcases hfrom with ⟨e, w', hr, hs'⟩ | ⟨r, w', hr, rfl, hnew⟩
    · obtain ⟨w'', hr', hs''⟩ := herror e w' hr
      exact .inl ⟨e, w'', hr', IsTrans.trans _ _ _ hs (IsTrans.trans _ _ _ hs' hs''.toSameStore)⟩
    · obtain ⟨w'', hr', hs''⟩ := hok r w' hr
      exact .inr ⟨r, w'', hr', rfl, (hnew.then_sameStore hs''.toSameStore).of_sameStore hs⟩

/-- **A restore.** -/
theorem restoreContainer_outcome {name dst dstName : String} {opts : RestoreContainerOpts}
    (hdst : w.containers.lookup dst = none) :
    AllOrNothing (restoreContainer client name dst dstName opts).run w
      fun r w' => r = dst ∧ NewContainer dst w w' := by
  unfold restoreContainer
  split
  · exact .inl ⟨_, w, rfl, Std.Refl.refl w⟩
  simp only [call, Prog.run_bind, Prog.run_atomic]
  refine .bind (statManagedSnapshot_keeps (statSnapshot_keeps fun w r => .noted client w _ r))
    fun image w₁ _ hs => ?_
  unfold AllOrNothing
  rcases snapshotRequest_answered h (.prepare defaultSnapshotter (snapshotKeyFor dst) name)
      (fun snaps => snaps.prepare defaultSnapshotter (snapshotKeyFor dst) name ∅)
      w₁ with ⟨w₂, hans, hconts, hprep⟩ | ⟨code, w₂, -, hs', hprep⟩
  · rw [prepareSnapshot, bind_ok hprep]
    simp only [Prog.run_bind, Prog.run_attempt]
    have hnone : w₂.containers.lookup dst = none := by
      rw [hconts, hs.containers]
      exact hdst
    have hfrom : (restoreOpts opts (snapshotKeyFor dst)).fromExistingSnapshot =
        some (snapshotKeyFor dst) := rfl
    rcases createWithId_adopts h dst dstName image hnone hfrom with
      ⟨e, w₃, hr, hsame⟩ | ⟨r, w₃, hr, rfl, hrec⟩
    · obtain ⟨answer, w', hrem, hback⟩ := removeSnapshot_undoes h
        (by rw [hs.snapshots]; exact hrooted) hans hconts hsame
      refine .inl ⟨e, w', ?_, hback⟩
      rw [bind_ok (attempt_error hr)]
      simp only [Prog.run_bind, Prog.run_atomic]
      rw [bind_ok hrem]
      rfl
    · refine .inr ⟨r, w₃, ?_, rfl, (hrec.newContainer hconts hans).of_sameStore hs⟩
      rw [bind_ok (attempt_ok hr)]
      rfl
  · rw [prepareSnapshot, bind_ok hprep]
    exact .inl ⟨_, w₂, rfl, hs'⟩

end Adopt

/-! ## Snapshot, reset and delete of a snapshot -/

/-- The active snapshot of `record` went to `name`, and is there again on top of it. -/
structure Saved (record : ContainerRecord) (name : String) (w w' : World κ) : Prop where
  containers : w'.containers = w.containers
  snapshots : ∃ labels snaps,
    w.snapshots.commit record.snapshotter name record.snapshotKey labels = .ok snaps ∧
    snaps.prepare record.snapshotter record.snapshotKey name ∅ = .ok w'.snapshots

theorem Saved.of_sameStore {record : ContainerRecord} {name : String} {w w₁ w' : World κ}
    (h : Saved record name w₁ w') (hs : SameStore w w₁) : Saved record name w w' := by
  obtain ⟨hconts, hsnaps⟩ := h
  rw [hs.containers] at hconts
  rw [hs.snapshots] at hsnaps
  exact ⟨hconts, hsnaps⟩

/-- The root snapshot of `record` was replaced by one on top of `name`. -/
structure Replaced (record : ContainerRecord) (name : String) (w w' : World κ) : Prop where
  containers : w'.containers = w.containers
  snapshots : ∃ snaps, w.snapshots.remove record.snapshotter record.snapshotKey = .ok snaps ∧
    snaps.prepare record.snapshotter record.snapshotKey name ∅ = .ok w'.snapshots

theorem Replaced.of_sameStore {record : ContainerRecord} {name : String} {w w₁ w' : World κ}
    (h : Replaced record name w₁ w') (hs : SameStore w w₁) : Replaced record name w w' := by
  obtain ⟨hconts, hsnaps⟩ := h
  rw [hs.containers] at hconts
  rw [hs.snapshots] at hsnaps
  exact ⟨hconts, hsnaps⟩

theorem Replaced.then_sameStore {record : ContainerRecord} {name : String} {w w₁ w' : World κ}
    (h : Replaced record name w w₁) (hs : SameStore w₁ w') : Replaced record name w w' := by
  obtain ⟨hconts, hsnaps⟩ := h
  rw [← hs.containers] at hconts
  rw [← hs.snapshots] at hsnaps
  exact ⟨hconts, hsnaps⟩

/-- A named snapshot was removed. -/
structure Unnamed (name : String) (w w' : World κ) : Prop where
  containers : w'.containers = w.containers
  snapshots : w.snapshots.remove defaultSnapshotter name = .ok w'.snapshots
  managed : ∃ snap, w.snapshots.lookup (defaultSnapshotter, name) = some snap ∧
    snap.labels.lookup managedLabel = some "1"

section Snapshots

variable {client : Client} (h : Faultless client) {w : World κ}

include h

theorem commitSnapshot_outcome (src name : String) (opts : SnapshotContainerOpts)
    (record : ContainerRecord) (wasRunning : Bool) :
    AllOrNothing (commitSnapshot client src name opts record wasRunning) w fun _ w' =>
      Saved record name w w' := by
  have hrestart := restartSource_ok (κ := κ) client src (wasRunning && opts.restartSrc)
  unfold commitSnapshot AllOrNothing
  rcases snapshotRequest_answered h (.commit record.snapshotter name record.snapshotKey)
    (fun snaps => snaps.commit record.snapshotter name record.snapshotKey
        (snapshotLabels record.image opts.description)) w with
    ⟨w₁, hans, hconts, hr⟩ | ⟨code, w₁, -, hs, hr⟩
  · rw [bind_ok hr]
    obtain ⟨hfree, snap, hsnap, -, hsnaps⟩ := Snapshots.commit_eq_ok hans
    rcases snapshotRequest_answered h (.prepare record.snapshotter record.snapshotKey name)
        (fun snaps => snaps.prepare record.snapshotter record.snapshotKey name ∅) w₁ with
      ⟨w₂, hans', hconts', hr'⟩ | ⟨code, w₂, hans', -⟩
    · obtain ⟨w₃, hrun, hs⟩ := hrestart w₂
      refine .inr ⟨(), w₃, (bind_ok hr').trans hrun, ?_, _, w₁.snapshots, hans, ?_⟩
      · rw [hs.containers, hconts', hconts]
      · rw [hs.snapshots]
        exact hans'
    · -- the name is committed and the key is free
      obtain ⟨snaps', hok⟩ := Snapshots.prepare_committed hfree hsnap
        (snapshotLabels record.image opts.description) ∅
      rw [hsnaps] at hans'
      cases hans'.symm.trans hok
  · obtain ⟨w₂, hrun, hs'⟩ := hrestart w₁
    exact .inl ⟨_, w₂, (bind_ok hr).trans ((bind_ok hrun).trans rfl), IsTrans.trans _ _ _ hs hs'⟩

/-- **A snapshot of a container.** -/
theorem snapshotContainer_outcome (src name : String) (opts : SnapshotContainerOpts) :
    AllOrNothing (snapshotContainer client src name opts) w fun _ w' =>
      ∃ record, w.containers.lookup src = some record ∧ Saved record name w w' := by
  unfold snapshotContainer
  refine .bind (fun w => (stopForSnapshot_keeps w).toSameStore)
    fun ⟨record, running⟩ w₁ hstop hs => ?_
  refine (commitSnapshot_outcome h src name opts record running).mono fun _ w' hsaved => ?_
  exact ⟨record, stopForSnapshot_record hstop, hsaved.of_sameStore hs⟩

/-- **A delete of a named snapshot.** -/
theorem deleteSnapshot_outcome (name : String) :
    AllOrNothing (Snapshot.deleteSnapshot client name) w fun _ w' => Unnamed name w w' := by
  unfold Snapshot.deleteSnapshot
  refine .bind (statManagedSnapshot_keeps (statSnapshot_keeps fun w r => .noted client w _ r))
    fun image w₁ hstat hs => ?_
  obtain ⟨snap, hsnap, hmanaged, -⟩ := statManagedSnapshot_ok hstat
  unfold AllOrNothing
  rcases snapshotRequest_answered h (.remove defaultSnapshotter name)
      (fun snaps => snaps.remove defaultSnapshotter name) w₁ with
    ⟨w₂, hans, hconts, hr⟩ | ⟨code, w₂, -, hs', hr⟩
  · rw [removeSnapshot, bind_ok hr]
    rw [hs.snapshots] at hans
    exact .inr ⟨(), w₂, rfl, hconts.trans hs.containers, hans, snap, hsnap, hmanaged⟩
  · rw [removeSnapshot, bind_ok hr]
    exact .inl ⟨_, w₂, rfl, hs'⟩

/-- Once the name is committed and the key is free, the first attempt succeeds. -/
theorem prepareActive_ok {snapshotter key name : String} {snap : Snapshot κ}
    (hkey : w.snapshots.lookup (snapshotter, key) = none)
    (hname : w.snapshots.lookup (snapshotter, name) = some snap) (hkind : snap.kind = .committed) :
    ∃ w', replaceActive.prepareActive client snapshotter key name w = .ok () w' ∧
      w'.containers = w.containers ∧
      w.snapshots.prepare snapshotter key name ∅ = .ok w'.snapshots := by
  rcases snapshotRequest_answered h (.prepare snapshotter key name)
      (fun snaps => snaps.prepare snapshotter key name ∅) w with
    ⟨w', hans, hconts, hr⟩ | ⟨code, w', hans, -⟩
  · refine ⟨w', ?_, hconts, hans⟩
    have hattempts : prepareAttempts client snapshotter key name 5 none w = .ok none w' :=
      bind_ok hr
    exact bind_ok hattempts
  · simp [Snapshots.prepare, hkey, hname, hkind] at hans

theorem replaceActive_outcome (record : ContainerRecord) {name : String} {snap : Snapshot κ}
    (hkey : (record.snapshotter, record.snapshotKey) ∈ w.snapshots)
    (hname : w.snapshots.lookup (record.snapshotter, name) = some snap)
    (hkind : snap.kind = .committed) (hne : record.snapshotKey ≠ name) :
    AllOrNothing (replaceActive client record.snapshotter record.snapshotKey name) w fun _ w' =>
      Replaced record name w w' := by
  unfold replaceActive AllOrNothing
  rcases snapshotRequest_answered h (.remove record.snapshotter record.snapshotKey)
      (fun snaps => snaps.remove record.snapshotter record.snapshotKey) w with
    ⟨w₁, hans, hconts, hr⟩ | ⟨code, w₁, hans, hs, hr⟩
  · rw [removeSnapshot, bind_ok hr]
    obtain ⟨-, -, hsnaps⟩ := Snapshots.remove_eq_ok hans
    have hfree : w₁.snapshots.lookup (record.snapshotter, record.snapshotKey) = none := by
      rw [hsnaps, AList.lookup_erase]
    have hname₁ : w₁.snapshots.lookup (record.snapshotter, name) = some snap := by
      rw [hsnaps, AList.lookup_erase_ne fun e => hne (Prod.mk.inj e).2.symm]
      exact hname
    obtain ⟨w₂, hprep, hconts', hsnaps'⟩ := prepareActive_ok h hfree hname₁ hkind
    exact .inr ⟨(), w₂, hprep, hconts'.trans hconts, w₁.snapshots, hans, hsnaps'⟩
  · rw [removeSnapshot, bind_ok hr]
    have hcode : code ≠ .notFound := by
      rintro rfl
      obtain ⟨found, hfound⟩ := Snapshots.mem_iff_lookup.mp hkey
      simp only [Snapshots.remove, hfound] at hans
      split at hans <;> cases hans
    simp only [if_neg hcode]
    exact .inl ⟨_, w₁, rfl, hs⟩

/-- **A reset** of a container whose root snapshot is there, to a committed snapshot. -/
theorem resetToSnapshot_outcome (id name : String) (opts : ResetToSnapshotOpts)
    (hreset : ∀ record, w.containers.lookup id = some record →
      ∀ snap, w.snapshots.lookup (record.snapshotter, name) = some snap →
        snap.kind = .committed ∧ record.snapshotKey ≠ name ∧
          (record.snapshotter, record.snapshotKey) ∈ w.snapshots) :
    Leaves (resetToSnapshot client id name opts) w fun w' =>
      ∃ record, w.containers.lookup id = some record ∧ Replaced record name w w' := by
  unfold resetToSnapshot
  split
  · exact .inl (Std.Refl.refl w)
  refine .bind (fun w => (fetchContainerRecord_keeps w).toSameStore) fun record w₁ hfetch hs₁ => ?_
  have hrecord := fetchContainerRecord_ok hfetch
  refine .bind (statManagedSnapshot_keeps (statSnapshot_keeps fun w r => .noted client w _ r))
    fun image w₂ hstat hs₂ => ?_
  obtain ⟨snap, hsnap, -⟩ := statManagedSnapshot_ok hstat
  rw [hs₁.snapshots] at hsnap
  obtain ⟨hkind, hne, hkey⟩ := hreset record hrecord snap hsnap
  split
  · exact .inl (Std.Refl.refl w₂)
  refine .bind (fun w => (stopContainer_keeps.attempt w).toSameStore) fun _ w₃ _ hs₃ =>
    .bind (fun w => (retryDelete_keeps _ w).toSameStore) fun _ w₄ _ hs₄ => ?_
  -- nothing up to the removal of the root snapshot changed the store
  have hs : SameStore w w₄ :=
    IsTrans.trans _ _ _ (IsTrans.trans _ _ _ hs₁ hs₂) (IsTrans.trans _ _ _ hs₃ hs₄)
  have hreplace := replaceActive_outcome h (w := w₄) record (by rw [hs.snapshots]; exact hkey)
    (by rw [hs.snapshots]; exact hsnap) hkind hne
  refine (hreplace.mono fun _ w' hr => ⟨record, hrecord, hr.of_sameStore hs⟩).leaves (fun _ => ?_)
    fun _ _ ⟨record, hrec, hr⟩ hs' => ⟨record, hrec, hr.then_sameStore hs'⟩
  split
  · exact .bind (fun w => (startContainer_keeps w).toSameStore) fun _ => .pure _
  · exact .pure _

end Snapshots

/-! ## Delete -/

/-- The record of `id` is gone, and the snapshot under its own key if it could be removed. -/
structure Dropped (snapshotter id : String) (w w' : World κ) : Prop where
  gone : w'.containers.lookup id = none
  others : ∀ id', id' ≠ id → w'.containers.lookup id' = w.containers.lookup id'
  snapshots : w.snapshots.remove snapshotter (snapshotKeyFor id) = .ok w'.snapshots ∨
    w'.snapshots = w.snapshots ∧
      ∃ code, w.snapshots.remove snapshotter (snapshotKeyFor id) = .error code

theorem Dropped.of_sameStore {snapshotter id : String} {w w₁ w' : World κ}
    (h : Dropped snapshotter id w₁ w') (hs : SameStore w w₁) : Dropped snapshotter id w w' := by
  obtain ⟨hgone, hothers, hsnaps⟩ := h
  rw [hs.containers] at hothers
  rw [hs.snapshots] at hsnaps
  exact ⟨hgone, hothers, hsnaps⟩

section Delete

variable {client : Client} (h : Faultless client) (id : String)

include h

theorem getContainer_found (w : World κ) : (∃ record, w.containers.lookup id = some record ∧
      getContainer client id w = .ok (.ok record) (w.noted client (.getContainer id) none)) ∨
    (w.containers.lookup id = none ∧ getContainer client id w =
      .ok (.error .notFound) (w.noted client (.getContainer id) (some .notFound))) := by
  rcases getContainer_cases client id w with ⟨record, -, hl, hr⟩ |
    ⟨code, hfault | ⟨-, hnone, rfl⟩, hr⟩
  · exact .inl ⟨record, hl, hr⟩
  · rw [h.requests] at hfault
    cases hfault
  · exact .inr ⟨hnone, hr⟩

/-- A container that cannot be inspected has no record. -/
theorem inspectContainer_error {w w' : World κ} {e : Error}
    (hr : inspectContainer client id w = .error e w') :
    w.containers.lookup id = none ∧ SameStore w w' := by
  refine ⟨?_, (inspectContainer_keeps.error hr).toSameStore⟩
  rcases getContainer_found h id w with ⟨record, -, hget⟩ | ⟨hnone, -⟩
  · obtain ⟨info, w₁, hinspect⟩ := inspectContainer_found hget
    cases hinspect.symm.trans hr
  · exact hnone

theorem deleteRecord_answered (w : World κ) :
    ∃ answer w', deleteRecord client id w = .ok answer w' ∧
    w'.snapshots = w.snapshots ∧ w'.containers.lookup id = none ∧
    ∀ id', id' ≠ id → w'.containers.lookup id' = w.containers.lookup id' := by
  rcases deleteRecord_cases client id w with ⟨record, -, hr⟩ | ⟨code, hfault | hnone, hr⟩
  · exact ⟨_, _, hr, rfl, AList.lookup_erase _ _, fun _ hne => AList.lookup_erase_ne hne⟩
  · rw [h.requests] at hfault
    cases hfault
  · exact ⟨_, _, hr, rfl, hnone, fun _ _ => rfl⟩

/-- From the `Delete` of the record on. -/
theorem dropped_after (snapshotter : String) {f : Except Code Unit → Op κ Unit}
    (hf : ∀ deleted, Keeps SameStore (f deleted)) (w : World κ) :
    Dropped snapshotter id w (after (deleteRecord client id >>= fun deleted =>
      removeSnapshot client snapshotter (snapshotKeyFor id) >>= fun _ => f deleted) w) := by
  obtain ⟨deleted, w₁, hdel, hsnaps, hgone, hothers⟩ := deleteRecord_answered h id w
  rw [after_bind_ok hdel]
  rcases snapshotRequest_answered h (.remove snapshotter (snapshotKeyFor id))
      (fun snaps => snaps.remove snapshotter (snapshotKeyFor id)) w₁ with
    ⟨w₂, hans, hconts, hr⟩ | ⟨code, w₂, hans, hs₂, hr⟩
  · rw [removeSnapshot, after_bind_ok hr]
    have hs := hf deleted w₂
    rw [hsnaps] at hans
    refine ⟨?_, fun id' hne => ?_, .inl ?_⟩
    · rw [hs.containers, hconts]
      exact hgone
    · rw [hs.containers, hconts, hothers id' hne]
    · rw [hs.snapshots]
      exact hans
  · rw [removeSnapshot, after_bind_ok hr]
    have hs := IsTrans.trans _ _ _ hs₂ (hf deleted w₂)
    rw [hsnaps] at hans
    refine ⟨?_, fun id' hne => ?_, .inr ⟨?_, code, hans⟩⟩
    · rw [hs.containers]
      exact hgone
    · rw [hs.containers, hothers id' hne]
    · rw [hs.snapshots, hsnaps]

/-- **A removal** drops the record and then the root snapshot, looked for where the record says. -/
theorem removeContainer_drops (w : World κ) :
    ∃ snapshotter, (∀ record, w.containers.lookup id = some record →
        snapshotter = record.snapshotter) ∧
      (w.containers.lookup id = none → snapshotter = defaultSnapshotter) ∧
      Dropped snapshotter id w (after (removeContainer client id).run w) := by
  simp only [removeContainer, call, Prog.run_bind, Prog.run_atomic]
  have hlast (deleted : Except Code Unit) := fun w : World κ =>
    (cleanupAndReport_keeps client id deleted w).toSameStore
  rcases getContainer_found h id w with ⟨record, hl, hget⟩ | ⟨hl, hget⟩
  · rw [after_bind_ok hget]
    refine ⟨record.snapshotter, fun r hr => ?_, fun hn => ?_,
      (dropped_after h id record.snapshotter hlast _).of_sameStore (.noted client w _ _)⟩
    · rw [hl] at hr
      cases hr
      rfl
    · rw [hl] at hn
      cases hn
  · rw [after_bind_ok hget]
    refine ⟨defaultSnapshotter, fun r hr => ?_, fun _ => rfl,
      (dropped_after h id defaultSnapshotter hlast _).of_sameStore (.noted client w _ _)⟩
    · rw [hl] at hr
      cases hr

/-- The last phase returns only when the record is gone. -/
theorem recordGone_ok {timeoutMsg : String} {rounds : Nat} {w w' : World κ}
    (hr : (recordGone client id timeoutMsg rounds).run w = .ok () w') :
    w'.containers.lookup id = none := by
  induction rounds generalizing w with
  | zero => cases hr
  | succ rounds ih =>
    simp only [recordGone, call, Prog.run_bind, Prog.run_atomic] at hr
    obtain ⟨late, w₁, -, hr⟩ := bind_eq_ok hr
    cases late with
    | true => cases hr
    | false =>
      simp only [Bool.false_eq_true, if_false, Prog.run_bind, Prog.run_atomic] at hr
      obtain ⟨answer, w₂, hinspect, hr⟩ := bind_eq_ok hr
      cases answer with
      | ok info =>
        simp only [Prog.run_bind] at hr
        obtain ⟨_, w₃, -, hr⟩ := bind_eq_ok hr
        exact ih hr
      | error e =>
        obtain ⟨hnone, hs⟩ := inspectContainer_error h id (attempt_eq_error hinspect)
        cases e <;> first | exact ih hr | (cases hr; rw [hs.containers]; exact hnone)

/-- **A delete that succeeds** leaves no record. -/
theorem deleteContainer_gone {timeout : Nat} {w w' : World κ}
    (hr : (deleteContainer client id timeout).run w = .ok () w') :
    w'.containers.lookup id = none := by
  have hstop (w : World κ) : (call (stopManagedTailer client id)).run w =
      .ok () { w with tailers := w.tailers.erase (nsKey client id) } := rfl
  cases htask : (deleteContainerTask client id timeout).run w with
  | error e w₁ =>
    rw [deleteContainer, Prog.run_ensuring_error htask (hstop w₁)] at hr
    cases hr
  | ok _ w₁ =>
    rw [deleteContainer, Prog.run_ensuring_ok htask (hstop w₁)] at hr
    cases hr
    show w₁.containers.lookup id = none
    simp only [deleteContainerTask, call, Prog.run_bind, Prog.run_atomic, Prog.run_attempt] at htask
    obtain ⟨_, _, -, htask⟩ := bind_eq_ok htask
    obtain ⟨_, _, -, htask⟩ := bind_eq_ok htask
    obtain ⟨_, _, -, htask⟩ := bind_eq_ok htask
    obtain ⟨_, _, -, htask⟩ := bind_eq_ok htask
    exact recordGone_ok h id htask

end Delete

end ContainerdManager.System
