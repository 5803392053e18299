import ContainerdManager.Container.Setup

/-!
# What a failed create leaves behind

`create_container` prepares the root snapshot before it allocates the bridge
IP and the ports and builds hooks and spec, and removes it again only when
the record cannot be written. When a step in between fails (`SetupFails`),
and only then, a failed call leaves the snapshot in the store.
-/

namespace ContainerdManager.Container

open Lib Containerd ContainerdManager.Task

variable {κ : Type}

/-! ## Up to the root snapshot -/

/-- What `prepareRootfs` does when it prepares the snapshot itself. -/
theorem prepareRootfs_run (client : Client) (id name chainId : String) {opts : CreateContainerOpts}
    (hfrom : opts.fromExistingSnapshot = none) (w : World κ) :
    (∃ snaps, w.snapshots.prepare defaultSnapshotter (snapshotKeyFor id) chainId ∅ = .ok snaps ∧
      (prepareRootfs client id name chainId opts).run w = .ok (snapshotKeyFor id, true)
        { w.noted client (.prepare defaultSnapshotter (snapshotKeyFor id) chainId) none with
          snapshots := snaps }) ∨
    (∃ e code, (prepareRootfs client id name chainId opts).run w = .error e
      (w.noted client (.prepare defaultSnapshotter (snapshotKeyFor id) chainId) (some code))) := by
  simp only [prepareRootfs, hfrom, call, Prog.run_bind, Prog.run_atomic]
  rcases snapshotRequest_cases client (.prepare defaultSnapshotter (snapshotKeyFor id) chainId)
      (fun snaps => snaps.prepare defaultSnapshotter (snapshotKeyFor id) chainId ∅) w with
    ⟨snaps, -, hans, hr⟩ | ⟨code, -, hr⟩
  · exact .inl ⟨snaps, hans, bind_ok hr⟩
  · exact .inr ⟨_, code, bind_ok hr⟩

/-- **Up to the root snapshot**: a failure leaves the store as it was, a success prepares the root
snapshot and does nothing else. -/
theorem prepareContainer_run (client : Client) (id name image : String) {opts : CreateContainerOpts}
    (hfrom : opts.fromExistingSnapshot = none) (w : World κ) :
    (∃ metadata w', (prepareContainer client id name image opts).run w =
        .ok (metadata, snapshotKeyFor id, true) w' ∧
      w.snapshots.prepare defaultSnapshotter (snapshotKeyFor id) metadata.chainId ∅ =
        .ok w'.snapshots ∧
      w'.containers = w.containers ∧ Grows w w') ∨
    (∃ e w', (prepareContainer client id name image opts).run w = .error e w' ∧
      SameStore w w') := by
  unfold prepareContainer
  cases validateIdentifier name with
  | error e => exact .inr ⟨e, w, rfl, Std.Refl.refl w⟩
  | ok _ =>
    simp only [call, Prog.run_bind, Prog.run_atomic, Prog.run_pure]
    rcases checkName_cases client w name with ⟨-, -, hname⟩ | ⟨e, r, hname⟩
    · rw [bind_ok hname]
      have hread : Keeps Calm (getImage client image >>= fun digest =>
          (getImageMetadata client digest).run : Op κ ImageMetadata) :=
        .bind getImage_keeps fun _ => getImageMetadata_calm.keeps
      rw [← bind_assoc]
      cases hmeta : (getImage client image >>= fun digest => (getImageMetadata client digest).run :
          Op κ ImageMetadata) (w.noted client (.listNamed name) none) with
      | error e w' =>
        exact .inr ⟨e, w', bind_error hmeta,
          IsTrans.trans _ _ _ (.noted client w _ none) (hread.error hmeta).toSameStore⟩
      | ok metadata w2 =>
        rw [bind_ok hmeta]
        have hcalm := hread.ok hmeta
        have hsnaps : w2.snapshots = w.snapshots := hcalm.snapshots
        have hconts : w2.containers = w.containers := hcalm.containers
        have hgrows : Grows w w2 := IsTrans.trans _ _ _ (.noted client w _ none) hcalm.grows
        rcases prepareRootfs_run client id name metadata.chainId hfrom w2 with
          ⟨snaps, hans, hprep⟩ | ⟨e, code, hprep⟩
        · rw [hsnaps] at hans
          exact .inl ⟨metadata, _, bind_ok hprep, hans, hconts,
            IsTrans.trans _ _ _ hgrows (.noted client w2 _ none)⟩
        · exact .inr ⟨e, _, bind_error hprep, ⟨hsnaps, hconts⟩⟩
    · exact .inr ⟨e, _, bind_error hname, ⟨rfl, rfl⟩⟩

/-! ## From the root snapshot to the record -/

/-- A failed commit of the record changes nothing but the snapshot it removes, unless that fails. -/
theorem commitRecord_run (client : Client) (id name key : String) (record : ContainerRecord)
    (w : World κ) :
    (∃ w', (commitRecord client id name key true record).run w = .ok id w') ∨
    (∃ e w', (commitRecord client id name key true record).run w = .error e w' ∧
      w'.containers = w.containers ∧
      (w'.snapshots = w.snapshots.erase (defaultSnapshotter, key) ∨
        ∃ code, (.remove defaultSnapshotter key, some code) ∈ w'.trace.drop w.trace.length)) := by
  simp only [commitRecord, call, Prog.run_bind, Prog.run_atomic]
  rcases createRecord_cases client w id record with ⟨-, -, hr⟩ | ⟨code, hr⟩
  · exact .inl ⟨_, bind_ok hr⟩
  · refine .inr ?_
    rw [bind_ok hr]
    simp only [if_true, Prog.run_bind, Prog.run_atomic]
    rcases removeSnapshot_cases client (w.noted client (.createContainer id record) (some code))
      defaultSnapshotter key with ⟨-, -, -, hrem⟩ | ⟨code', -, hrem⟩
    · exact ⟨_, _, bind_ok hrem, rfl, .inl rfl⟩
    · exact ⟨_, _, bind_ok hrem, rfl, .inr ⟨code', by simp⟩⟩

/-- What the steps from the root snapshot under `key` to the record come to: a failure of the setup
leaves the store as it was, a later failure removes the snapshot if the `Remove` succeeds. -/
def Finishes (client : Client) (id key : String) (opts : CreateContainerOpts) (m : Op κ String)
    (w : World κ) : Prop :=
  (SetupFails client opts w ∧ ∃ e w', m w = .error e w' ∧ SameStore w w') ∨
  (¬ SetupFails client opts w ∧
    ((∃ w', m w = .ok id w') ∨
    ∃ e w', m w = .error e w' ∧ w'.containers = w.containers ∧
      (w'.snapshots = w.snapshots.erase (defaultSnapshotter, key) ∨
        ∃ code, (.remove defaultSnapshotter key, some code) ∈ w'.trace.drop w.trace.length)))

theorem setupAndCommit_finishes (client : Client) (id name image : String)
    (opts : CreateContainerOpts) (metadata : ImageMetadata) (key : String) (w : World κ) :
    Finishes client id key opts
      (setupAndCommit client id name image opts metadata key true).run w := by
  unfold Finishes
  simp only [setupAndCommit, Prog.run_bind]
  rcases setup_run client id name image opts metadata key w with ⟨hn, bridge, w1, hok, -⟩ |
    ⟨hs, e, w1, hf⟩
  · refine .inr ⟨hn, ?_⟩
    rw [bind_ok hok]
    have hstore := setup_store.ok hok
    obtain ⟨new, hnew⟩ := setup_grows.ok hok
    rcases commitRecord_run client id name key
        (recordOf client id name image opts metadata key bridge) w1 with
      ⟨w', hr⟩ | ⟨e, w', hr, hconts, hsnaps⟩
    · exact .inl ⟨w', hr⟩
    · refine .inr ⟨e, w', hr, hconts.trans hstore.containers, hsnaps.imp ?_ ?_⟩
      · rw [hstore.snapshots]
        exact fun h => h
      · rintro ⟨code, hmem⟩
        refine ⟨code, List.drop_subset_drop_left _ ?_ hmem⟩
        rw [← hnew, List.length_append]
        omega
  · exact .inl ⟨hs, e, w1, bind_error hf, setup_store.error hf⟩

theorem Finishes.withAllocLock {client : Client} {id key : String} {opts : CreateContainerOpts}
    {p : Proc κ String} {w : World κ}
    (h : Finishes client id key opts p.run { w with allocLock := true }) :
    Finishes client id key opts (withAllocLock p).run w := by
  obtain ⟨hok, herr⟩ := withAllocLock_run p w
  rcases h with ⟨hs, e, w', hr, hstore⟩ | ⟨hn, ⟨w', hr⟩ | ⟨e, w', hr, hconts, hsnaps⟩⟩
  · exact .inl ⟨hs, e, _, herr _ _ hr, ⟨hstore.snapshots, hstore.containers⟩⟩
  · exact .inr ⟨hn, .inl ⟨_, hok _ _ hr⟩⟩
  · exact .inr ⟨hn, .inr ⟨e, _, herr _ _ hr, hconts, hsnaps⟩⟩

/-- **When a failed create leaves nothing behind.** A call whose rollback `Remove`, if
issued, succeeds restores the store on every failure if and only if no step between the root
snapshot and the record fails. -/
theorem create_failure_restores_iff (client : Client) (id name image : String)
    (opts : CreateContainerOpts) (hfrom : opts.fromExistingSnapshot = none) (w : World κ)
    (hremove : ∀ e w', (createContainer client id name image opts).run w = .error e w' →
      ∀ code, (.remove defaultSnapshotter (snapshotKeyFor id), some code) ∉
        w'.trace.drop w.trace.length) :
    (∀ e w', (createContainer client id name image opts).run w = .error e w' → SameStore w w') ↔
      ∀ r w₁, (prepareContainer client id name image opts).run w = .ok r w₁ →
        ¬ SetupFails client opts w₁ := by
  cases hval : validateIdentifier name with
  | error e =>
    have hcreate : (createContainer client id name image opts).run w = .error e w := by
      simp only [createContainer, hval]
      rfl
    have hprep : (prepareContainer client id name image opts).run w = .error e w := by
      simp only [prepareContainer, hval]
      rfl
    rw [forall_error_of_error hcreate]
    refine ⟨fun _ r w₁ h => ?_, fun _ => Std.Refl.refl w⟩
    rw [hprep] at h
    cases h
  | ok _ =>
    have hcreate : (createContainer client id name image opts).run =
        (prepareContainer client id name image opts).run >>= fun r =>
          (if opts.network = .bridge then
            withAllocLock (setupAndCommit client id name image opts r.1 r.2.1 r.2.2)
          else setupAndCommit client id name image opts r.1 r.2.1 r.2.2 : Proc κ String).run := by
      simp only [createContainer, hval, createContainerWithId, Prog.run_bind]
    rw [hcreate] at hremove ⊢
    rcases prepareContainer_run client id name image hfrom w with
      ⟨metadata, w₁, hprep, hans, hconts, new, hnew⟩ | ⟨e, w₁, hprep, hstore⟩
    · rw [bind_ok hprep] at hremove ⊢
      obtain ⟨hfree, base, -, -, hsnaps⟩ := Snapshots.prepare_eq_ok hans
      have hcond : (∀ r w', (prepareContainer client id name image opts).run w = .ok r w' →
          ¬ SetupFails client opts w') ↔ ¬ SetupFails client opts w₁ := by
        rw [hprep]
        constructor
        · exact fun h => h _ _ rfl
        · intro h r w' hr
          cases hr
          exact h
      rw [hcond]
      -- the lock is held or not: the outcome is of the same kind
      have hfin : Finishes client id (snapshotKeyFor id) opts
          (if opts.network = .bridge then
            withAllocLock (setupAndCommit client id name image opts metadata
              (snapshotKeyFor id) true)
          else setupAndCommit client id name image opts metadata (snapshotKeyFor id) true :
            Proc κ String).run w₁ := by
        split
        · exact .withAllocLock (setupAndCommit_finishes client id name image opts metadata _ _)
        · exact setupAndCommit_finishes client id name image opts metadata _ _
      rcases hfin with ⟨hs, e, w', hr, hstore⟩ | ⟨hn, ⟨w', hr⟩ | ⟨e, w', hr, hconts', hsnaps'⟩⟩
      · rw [forall_error_of_error hr]
        refine ⟨fun hsame => ?_, fun h => absurd hs h⟩
        -- the snapshot prepared for the container is still there
        have hin : w'.snapshots.lookup (defaultSnapshotter, snapshotKeyFor id) ≠ none := by
          rw [hstore.snapshots, hsnaps, AList.lookup_insert]
          exact Option.some_ne_none _
        rw [hsame.snapshots] at hin
        exact absurd hfree hin
      · exact ⟨fun _ => hn, fun _ => forall_error_of_ok hr⟩
      · rw [forall_error_of_error hr]
        refine ⟨fun _ => hn, fun _ => ⟨?_, hconts'.trans hconts⟩⟩
        rcases hsnaps' with hs | ⟨code, hmem⟩
        · rw [hs, hsnaps, Snapshots.erase_insert_of_free _ hfree]
        · refine absurd (List.drop_subset_drop_left _ ?_ hmem) (hremove e w' hr code)
          rw [← hnew, List.length_append]
          omega
    · rw [forall_error_of_error (bind_error hprep)]
      refine ⟨fun _ r w' h => ?_, fun _ => hstore⟩
      rw [hprep] at h
      cases h

/-- The eleventh step, the `containers.create` of a container in host mode, fails. -/
def createFails : Client where
  fault n := if n = 10 then some .unavailable else none

/-- A failed `containers.create` is rolled back. -/
theorem create_failure_restored : ∃ e w',
    (createContainer createFails "c1" "db" "mongo" { network := .host }).run oneImage =
      .error e w' ∧
      (.remove defaultSnapshotter (snapshotKeyFor "c1"), none) ∈ w'.trace ∧
        SameStore oneImage w' := by
  have hremoved : ∀ entry ∈ (after (createContainer createFails "c1" "db" "mongo"
      { network := .host }).run oneImage).trace,
      entry.1 = .remove defaultSnapshotter (snapshotKeyFor "c1") → entry.2 = none := by
    decide +kernel
  have hrestore := (create_failure_restores_iff createFails "c1" "db" "mongo"
    { network := .host } rfl
    oneImage fun e w' hr code hmem => ?_).mpr fun r w₁ _ hfails => ?_
  · refine ⟨_, _, rfl, ?_, hrestore _ _ rfl⟩
    decide +kernel
  · rw [after_error hr] at hremoved
    cases hremoved _ (List.mem_of_mem_drop hmem) rfl
  · obtain ⟨j, -, hj⟩ := hfails
    exact hj rfl

/-- The fourth step, the list of the containers for a bridge IP, fails. -/
def listFails : Client where
  fault n := if n = 3 then some .unavailable else none

/-- A create that cannot allocate its bridge IP leaves its snapshot behind. -/
theorem create_failure_leaves_snapshot :
    ¬ ∀ (client : Client) (id name image : String) (opts : CreateContainerOpts) (w : World Unit),
      opts.fromExistingSnapshot = none →
      (∀ e w', (createContainer client id name image opts).run w = .error e w' →
        ∀ code, (.remove defaultSnapshotter (snapshotKeyFor id), some code) ∉
          w'.trace.drop w.trace.length) →
      ∀ e w', (createContainer client id name image opts).run w = .error e w' → SameStore w w' := by
  intro h
  have hremoved : ∀ entry ∈
      (after (createContainer listFails "c1" "db" "mongo" {}).run oneImage).trace,
      entry.1 ≠ .remove defaultSnapshotter (snapshotKeyFor "c1") := by
    decide +kernel
  have hleft : (after (createContainer listFails "c1" "db" "mongo" {}).run
      oneImage).snapshots.lookup
      (defaultSnapshotter, snapshotKeyFor "c1") ≠ none := by
    decide +kernel
  obtain ⟨e, w', hr⟩ : Fails (createContainer listFails "c1" "db" "mongo" {}).run oneImage :=
    ⟨_, _, rfl⟩
  rw [after_error hr] at hremoved hleft
  have hsame := h listFails "c1" "db" "mongo" {} oneImage rfl (fun e' w'' hr' code hmem => by
    rw [hr] at hr'
    cases hr'
    exact hremoved _ (List.mem_of_mem_drop hmem) rfl) e w' hr
  refine hleft ?_
  rw [hsame.snapshots]
  rfl

end ContainerdManager.Container
