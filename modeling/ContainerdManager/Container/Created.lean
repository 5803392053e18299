import ContainerdManager.Container.Rollback
import ContainerdManager.Task.Lifecycle

/-!
# What a successful create did

`CreatedAs` says what is known after `create_container_with_id` returned: the
image was read, the id was free, and the record is the one built for the
bridge IP and the ports that were drawn in this call. Later modules read the
labels and the spec of a new container off it.
-/

namespace ContainerdManager.Container

open Lib Containerd ContainerdManager.Task

variable {κ : Type}

/-! ## Images -/

/-- Images, their content and what is cached of them are as they were. -/
structure SameImages (w w' : World κ) : Prop where
  images : w'.images = w.images
  blobs : w'.blobs = w.blobs
  cache : w'.metadataCache = w.metadataCache

instance : Std.Refl (SameImages (κ := κ)) := ⟨fun _ => ⟨rfl, rfl, rfl⟩⟩

instance : IsTrans (World κ) SameImages :=
  ⟨fun _ _ _ h h' => ⟨h'.images.trans h.images, h'.blobs.trans h.blobs, h'.cache.trans h.cache⟩⟩

theorem SameImages.noted (client : Client) (w : World κ) (call : Call) (outcome : Option Code) :
    SameImages w (w.noted client call outcome) := ⟨rfl, rfl, rfl⟩

theorem query_images {α : Type} {client : Client} {call : Call} {answer : World κ → Except Code α} :
    Keeps SameImages (query client call answer) := fun w => by
  rw [after_ok (query_eq client call answer w)]
  exact .noted client w call _

/-- `metadata` is read for `image` with the images of `w`. -/
def ReadsMetadata (client : Client) (w : World κ) (image : String) (metadata : ImageMetadata) :
    Prop :=
  ∃ digest w₁ w₂, w.images.lookup image = some (some digest) ∧ SameImages w w₁ ∧
    (getImageMetadata client digest).run w₁ = .ok metadata w₂

theorem ReadsMetadata.of_sameImages {client : Client} {w w' : World κ} {image : String}
    {metadata : ImageMetadata} (h : ReadsMetadata client w' image metadata)
    (hs : SameImages w w') : ReadsMetadata client w image metadata := by
  obtain ⟨digest, w₁, w₂, hl, hw₁, hr⟩ := h
  exact ⟨digest, w₁, w₂, hs.images ▸ hl, IsTrans.trans _ _ _ hs hw₁, hr⟩

/-- What a create reads is as it was: the records, the images and the ports drawn so far. -/
structure SameInputs (w w' : World κ) : Prop extends SameImages w w' where
  containers : w'.containers = w.containers
  portPicks : w'.portPicks = w.portPicks

instance : Std.Refl (SameInputs (κ := κ)) := ⟨fun _ => ⟨⟨rfl, rfl, rfl⟩, rfl, rfl⟩⟩

instance : IsTrans (World κ) SameInputs where
  trans _ _ _ h h' := ⟨IsTrans.trans _ _ _ h.toSameImages h'.toSameImages,
    h'.containers.trans h.containers, h'.portPicks.trans h.portPicks⟩

theorem SameInputs.noted (client : Client) (w : World κ) (call : Call) (outcome : Option Code) :
    SameInputs w (w.noted client call outcome) := ⟨.noted client w call outcome, rfl, rfl⟩

theorem query_inputs {α : Type} {client : Client} {call : Call} {answer : World κ → Except Code α} :
    Keeps SameInputs (query client call answer) := fun w => by
  rw [after_ok (query_eq client call answer w)]
  exact .noted client w call _

theorem isLate_inputs {client : Client} : Keeps SameInputs (isLate (κ := κ) client) := fun _ =>
  ⟨⟨rfl, rfl, rfl⟩, rfl, rfl⟩

theorem deleteTask_inputs {client : Client} {id : String} :
    Keeps SameInputs (deleteTask (κ := κ) client id) := by
  have hforget : Keeps SameInputs (forgetTaskStart (κ := κ) client id) :=
    fun _ => ⟨⟨rfl, rfl, rfl⟩, rfl, rfl⟩
  refine .bind (fun w => ?_) fun answer => ?_
  · rcases taskRequest_cases client (.deleteTask id) (deleteAnswer id) w with
      ⟨tasks, -, -, hr⟩ | ⟨code, -, hr⟩
    · rw [after_ok hr]
      exact ⟨⟨rfl, rfl, rfl⟩, rfl, rfl⟩
    · rw [after_ok hr]
      exact .noted client w _ _
  · cases answer with
    | ok => exact hforget
    | error code => cases code <;> first | exact hforget | exact .throw _

theorem snapshotRequest_inputs {client : Client} {call : Call}
    {answer : Snapshots κ → Except Code (Snapshots κ)} :
    Keeps SameInputs (snapshotRequest client call answer) := fun w => by
  rcases snapshotRequest_cases client call answer w with ⟨snaps, -, -, hr⟩ | ⟨code, -, hr⟩
  · rw [after_ok hr]
    exact ⟨⟨rfl, rfl, rfl⟩, rfl, rfl⟩
  · rw [after_ok hr]
    exact .noted client w _ _

/-- What is cached is read. -/
theorem ReadsMetadata.cached {client : Client} {w : World κ} {image digest : String}
    {metadata cached : ImageMetadata} (h : ReadsMetadata client w image metadata)
    (hl : w.images.lookup image = some (some digest))
    (hc : w.metadataCache.lookup digest = some cached) : metadata = cached := by
  obtain ⟨digest', w₁, w₂, hl', hs, hr⟩ := h
  cases hl.symm.trans hl'
  have hrun : (getImageMetadata client digest).run w₁ = .ok cached w₁ := by
    have hcached : (EStateM.get >>= fun w : World κ => pure (w.metadataCache.lookup digest) :
        Op κ _) w₁ = .ok (some cached) w₁ := by
      rw [← hc, ← hs.cache]
      rfl
    rw [getImageMetadata, Prog.run_bind, call, Prog.run_atomic, bind_ok hcached]
    rfl
  cases hr.symm.trans hrun
  rfl

/-- The digest `getImage` returns is that of the image's target. -/
theorem getImage_ok {client : Client} {image digest : String} {w w' : World κ}
    (h : getImage client image w = .ok digest w') :
    w.images.lookup image = some (some digest) ∧ SameImages w w' := by
  obtain ⟨answer, w₁, hq, h⟩ := bind_eq_ok h
  have hkeep := query_images.ok hq
  rcases query_lookup_cases client (.getImage image) (fun w => w.images.lookup image)
      (fun target => target) w with ⟨target, -, hl, hr⟩ | ⟨code, -, hr⟩
  · cases hq.symm.trans hr
    cases target with
    | none => cases h
    | some found =>
      cases h
      exact ⟨hl, hkeep⟩
  · cases hq.symm.trans hr
    cases h

/-- No free port was asked for. -/
def SamePicks (w w' : World κ) : Prop := w'.portPicks = w.portPicks

instance : Std.Refl (SamePicks (κ := κ)) := ⟨fun _ => rfl⟩

instance : IsTrans (World κ) SamePicks := ⟨fun _ _ _ h h' => Eq.trans h' h⟩

theorem query_picks {α : Type} {client : Client} {call : Call} {answer : World κ → Except Code α} :
    Keeps SamePicks (query client call answer) := by
  intro w
  rw [after_ok (query_eq client call answer w)]
  rfl

theorem prepareRootfs_picks {client : Client} {id name chainId : String}
    {opts : CreateContainerOpts} :
    (prepareRootfs (κ := κ) client id name chainId opts).Steps SamePicks := by
  unfold prepareRootfs
  split
  · trivial
  · refine .bind (.atomic fun w => ?_) fun answer => ?_
    · rcases prepareSnapshot_cases client w defaultSnapshotter (snapshotKeyFor id) chainId with
        ⟨base, -, -, -, -, hr⟩ | ⟨code, -, hr⟩
      · rw [after_ok hr]
        rfl
      · rw [after_ok hr]
        rfl
    · cases answer <;> trivial

theorem prepareContainer_picks {client : Client} {id name image : String}
    {opts : CreateContainerOpts} :
    (prepareContainer (κ := κ) client id name image opts).Steps SamePicks := by
  unfold prepareContainer
  cases validateIdentifier name with
  | error e => trivial
  | ok _ =>
    refine .bind (.atomic fun w => ?_) fun _ => .bind (.atomic (.bind query_picks fun answer => ?_))
      fun digest => .bind (getImageMetadata_steps (fun _ _ _ _ => query_picks) fun _ _ => rfl)
      fun metadata => .bind prepareRootfs_picks fun _ => trivial
    · rcases checkName_cases client w name with ⟨-, -, hr⟩ | ⟨e, r, hr⟩
      · rw [after_ok hr]
        rfl
      · rw [after_error hr]
        rfl
    · rcases answer with code | _ | digest
      · exact .throw _
      · exact .throw _
      · exact .pure _

/-- What is known once the root snapshot is there. -/
structure Prepared (client : Client) (image : String) (opts : CreateContainerOpts)
    (metadata : ImageMetadata) (w w' : World κ) : Prop where
  reads : ReadsMetadata client w image metadata
  containers : w'.containers = w.containers
  octets : w'.octets = w.octets
  portPicks : w'.portPicks = w.portPicks
  adopted : ∀ key, opts.fromExistingSnapshot = some key → w'.snapshots = w.snapshots

theorem prepareRootfs_records {client : Client} {id name chainId : String}
    {opts : CreateContainerOpts} {r : String × Bool} {w w' : World κ}
    (h : (prepareRootfs client id name chainId opts).run w = .ok r w') :
    w'.containers = w.containers ∧ w'.octets = w.octets ∧
      ∀ key, opts.fromExistingSnapshot = some key → w'.snapshots = w.snapshots := by
  cases hfrom : opts.fromExistingSnapshot with
  | some key =>
    rw [prepareRootfs, hfrom] at h
    cases h
    exact ⟨rfl, rfl, fun _ _ => rfl⟩
  | none =>
    rcases prepareRootfs_run client id name chainId hfrom w with ⟨snaps, -, hr⟩ | ⟨e, code, hr⟩
    · cases h.symm.trans hr
      exact ⟨rfl, rfl, fun _ hkey => by cases hkey⟩
    · cases h.symm.trans hr

theorem prepareContainer_ok {client : Client} {id name image : String} {opts : CreateContainerOpts}
    {r : ImageMetadata × String × Bool} {w w' : World κ}
    (h : (prepareContainer client id name image opts).run w = .ok r w') :
    Prepared client image opts r.1 w w' := by
  have hpicks : w'.portPicks = w.portPicks := prepareContainer_picks.keeps.ok h
  unfold prepareContainer at h
  cases hval : validateIdentifier name with
  | error e =>
    rw [hval] at h
    cases h
  | ok =>
    rw [hval] at h
    simp only [call, Prog.run_bind, Prog.run_atomic, Prog.run_pure] at h
    obtain ⟨_, w₁, hname, h⟩ := bind_eq_ok h
    obtain ⟨digest, w₂, hget, h⟩ := bind_eq_ok h
    obtain ⟨metadata, w₃, hmeta, h⟩ := bind_eq_ok h
    obtain ⟨⟨key, wePrepared⟩, w₄, hroot, h⟩ := bind_eq_ok h
    cases h
    have hw₁ : SameImages w w₁ := (checkName_keeps fun w r => .noted client w _ r).ok hname
    have hcalm : Calm w₁ w₃ :=
      IsTrans.trans _ _ _ (getImage_keeps.ok hget) (getImageMetadata_calm.keeps.ok hmeta)
    obtain ⟨hl, hw₂⟩ := getImage_ok hget
    obtain ⟨hconts, hoctets, hsnaps⟩ := prepareRootfs_records hroot
    have hstore : SameStore w w₁ := (checkName_keeps fun w r => .noted client w _ r).ok hname
    have ho₁ : w₁.octets = w.octets :=
      (checkName_keeps (R := fun w w' => w'.octets = w.octets) fun _ _ => rfl).ok hname
    refine ⟨⟨digest, w₂, w₃, hw₁.images ▸ hl, IsTrans.trans _ _ _ hw₁ hw₂, hmeta⟩,
      hconts.trans (hcalm.containers.trans hstore.containers),
      hoctets.trans (hcalm.octets.trans ho₁), hpicks, fun key hkey => ?_⟩
    exact (hsnaps key hkey).trans (hcalm.snapshots.trans hstore.snapshots)

/-! ## The setup -/

/-- The bridge of a new container: an IP drawn between `w` and `w'`, and a free port for every
container port. -/
structure BridgeDrawn (client : Client) (opts : CreateContainerOpts)
    (bridge : Option (String × List (UInt16 × UInt16))) (w w' : World κ) : Prop where
  drawn : opts.network = .bridge → ∃ octet ports, bridge = some (bridgeIp octet, ports) ∧
    w'.octets = w.octets ++ [octet] ∧ ports.map Prod.fst = bridgePorts opts ∧
    ∀ i < (bridgePorts opts).length,
      ∃ q ∈ ports[i]?, client.freePort (w.portPicks + i) = .port q.2
  none : opts.network ≠ .bridge → bridge = none

theorem setup_ok {client : Client} {id name image key : String} {opts : CreateContainerOpts}
    {metadata : ImageMetadata} {record : ContainerRecord} {w w' : World κ}
    (h : (setup client id name image opts metadata key).run w = .ok record w') :
    ∃ bridge, record = recordOf client id name image opts metadata key bridge ∧
      BridgeDrawn client opts bridge w w' := by
  have hbuilt : ∀ {bridge w₁}, (buildRecord client id name image opts metadata key bridge).run w₁ =
      .ok record w' → record = recordOf client id name image opts metadata key bridge ∧
        w'.octets = w₁.octets := fun hr =>
    ⟨(buildRecord_returns client id name image opts metadata key _).run_ok hr,
      ((buildRecord_calm _).keeps.ok hr).octets⟩
  by_cases hmode : opts.network = .bridge
  · simp only [setup, hmode, call, Prog.run_bind, Prog.run_atomic] at h
    obtain ⟨ip, w₁, halloc, h⟩ := bind_eq_ok h
    obtain ⟨ports, w₂, hpick, h⟩ := bind_eq_ok h
    obtain ⟨hrecord, hoctets⟩ := hbuilt h
    refine ⟨some (ip, ports), hrecord, ⟨fun _ => ?_, fun hne => absurd hmode hne⟩⟩
    rcases allocBridgeIp_cases client w with ⟨octet, -, -, hr⟩ | ⟨e, r, -, hr⟩
    · cases halloc.symm.trans hr
      rcases pickPorts_run client (bridgePorts opts)
          { w.noted client .listContainers none with octets := w.octets ++ [octet] } with
        ⟨picked, hok, hfst, hall⟩ | ⟨-, e, w₃, hfail⟩
      · cases hpick.symm.trans hok
        exact ⟨octet, ports, rfl, hoctets, hfst, hall⟩
      · cases hpick.symm.trans hfail
    · cases halloc.symm.trans hr
  · unfold setup at h
    split at h
    · contradiction
    · exact ⟨none, (hbuilt h).1, ⟨fun hbridge => absurd hbridge hmode, fun _ => rfl⟩⟩

/-! ## The record -/

theorem commitRecord_ok {client : Client} {id name key r : String} {wePrepared : Bool}
    {record : ContainerRecord} {w w' : World κ}
    (h : (commitRecord client id name key wePrepared record).run w = .ok r w') :
    r = id ∧ w.containers.lookup id = none ∧
      w'.containers = w.containers.insert id record ∧ w'.snapshots = w.snapshots ∧
      w'.octets = w.octets := by
  simp only [commitRecord, call, Prog.run_bind, Prog.run_atomic] at h
  rcases createRecord_cases client w id record with ⟨-, hfree, hr⟩ | ⟨code, hr⟩
  · rw [bind_ok hr] at h
    cases h
    exact ⟨rfl, hfree, rfl, rfl, rfl⟩
  · rw [bind_ok hr] at h
    cases wePrepared with
    | false => cases h
    | true =>
      simp only [if_true, Prog.run_bind, Prog.run_atomic] at h
      obtain ⟨_, _, -, hthrow⟩ := bind_eq_ok h
      cases hthrow

/-- **What a successful create did.** -/
structure CreatedAs (client : Client) (id name image : String) (opts : CreateContainerOpts)
    (metadata : ImageMetadata) (bridge : Option (String × List (UInt16 × UInt16)))
    (w w' : World κ) : Prop where
  reads : ReadsMetadata client w image metadata
  fresh : w.containers.lookup id = none
  containers : w'.containers = w.containers.insert id (recordOf client id name image opts metadata
    (opts.fromExistingSnapshot.getD (snapshotKeyFor id)) bridge)
  adopted : ∀ key, opts.fromExistingSnapshot = some key → w'.snapshots = w.snapshots
  bridge : BridgeDrawn client opts bridge w w'

theorem CreatedAs.record {client : Client} {id name image : String} {opts : CreateContainerOpts}
    {metadata : ImageMetadata} {bridge : Option (String × List (UInt16 × UInt16))}
    {w w' : World κ} (h : CreatedAs client id name image opts metadata bridge w w') :
    w'.containers.lookup id = some (recordOf client id name image opts metadata
      (opts.fromExistingSnapshot.getD (snapshotKeyFor id)) bridge) := by
  rw [h.containers]
  exact AList.lookup_insert _

theorem setupAndCommit_created {client : Client} {id name image key r : String}
    {opts : CreateContainerOpts} {metadata : ImageMetadata} {wePrepared : Bool} {w w' : World κ}
    (h : (setupAndCommit client id name image opts metadata key wePrepared).run w = .ok r w') :
    r = id ∧ w.containers.lookup id = none ∧ w'.snapshots = w.snapshots ∧
      ∃ bridge, w'.containers = w.containers.insert id
          (recordOf client id name image opts metadata key bridge) ∧
        BridgeDrawn client opts bridge w w' := by
  simp only [setupAndCommit, Prog.run_bind] at h
  obtain ⟨record, w₁, hsetup, hcommit⟩ := bind_eq_ok h
  have hstore := setup_store.ok hsetup
  obtain ⟨bridge, rfl, hdrawn, hnone⟩ := setup_ok hsetup
  obtain ⟨rfl, hfree, hconts, hsnaps, hoctets⟩ := commitRecord_ok hcommit
  rw [hstore.containers] at hfree hconts
  refine ⟨rfl, hfree, hsnaps.trans hstore.snapshots, bridge, hconts, ⟨fun hmode => ?_, hnone⟩⟩
  obtain ⟨octet, ports, hb, ho, hrest⟩ := hdrawn hmode
  exact ⟨octet, ports, hb, hoctets.trans ho, hrest⟩

theorem createContainerWithId_ok {client : Client} {id name image r : String}
    {opts : CreateContainerOpts} {w w' : World κ}
    (h : (createContainerWithId client id name image opts).run w = .ok r w') :
    r = id ∧ ∃ metadata bridge, CreatedAs client id name image opts metadata bridge w w' := by
  simp only [createContainerWithId, Prog.run_bind] at h
  obtain ⟨⟨metadata, key, wePrepared⟩, w₁, hprep, hrest⟩ := bind_eq_ok h
  have hp := prepareContainer_ok hprep
  have hkey : key = opts.fromExistingSnapshot.getD (snapshotKeyFor id) :=
    (prepareContainer_key.run_ok hprep).1
  dsimp only at hrest
  have hfinish : r = id ∧ w₁.containers.lookup id = none ∧ w'.snapshots = w₁.snapshots ∧
      ∃ bridge, w'.containers = w₁.containers.insert id
          (recordOf client id name image opts metadata key bridge) ∧
        BridgeDrawn client opts bridge w₁ w' := by
    split at hrest
    · obtain ⟨hok, herror⟩ := withAllocLock_run
        (setupAndCommit client id name image opts metadata key wePrepared) w₁
      cases hrun : (setupAndCommit client id name image opts metadata key wePrepared).run
          { w₁ with allocLock := true } with
      | ok a w₂ =>
        cases (hok a w₂ hrun).symm.trans hrest
        obtain ⟨hr, hfree, hsnaps, bridge, hconts, hdrawn, hnone⟩ := setupAndCommit_created hrun
        exact ⟨hr, hfree, hsnaps, bridge, hconts, ⟨hdrawn, hnone⟩⟩
      | error e w₂ => cases (herror e w₂ hrun).symm.trans hrest
    · exact setupAndCommit_created hrest
  obtain ⟨hr, hfree, hsnaps, bridge, hconts, hdrawn, hnone⟩ := hfinish
  rw [hp.containers] at hfree hconts
  rw [hp.octets, hp.portPicks] at hdrawn
  rw [hkey] at hconts
  exact ⟨hr, metadata, bridge, hp.reads, hfree, hconts,
    fun key hfrom => hsnaps.trans (hp.adopted key hfrom), ⟨hdrawn, hnone⟩⟩

theorem createContainer_created {client : Client} {id name image r : String}
    {opts : CreateContainerOpts} {w w' : World κ}
    (h : (createContainer client id name image opts).run w = .ok r w') :
    r = id ∧ ∃ metadata bridge, CreatedAs client id name image opts metadata bridge w w' := by
  unfold createContainer at h
  split at h
  · cases h
  · exact createContainerWithId_ok h

/-- The record a `create_container` that returned wrote. -/
theorem createContainer_record {client : Client} {id name image r : String}
    {opts : CreateContainerOpts} {w w' : World κ} {record : ContainerRecord}
    (h : (createContainer client id name image opts).run w = .ok r w')
    (hrecord : w'.containers.lookup id = some record) :
    ∃ metadata bridge, ReadsMetadata client w image metadata ∧
      BridgeDrawn client opts bridge w w' ∧ record = recordOf client id name image opts metadata
        (opts.fromExistingSnapshot.getD (snapshotKeyFor id)) bridge := by
  obtain ⟨-, metadata, bridge, hcreated⟩ := createContainer_created h
  cases hcreated.record.symm.trans hrecord
  exact ⟨metadata, bridge, hcreated.reads, hcreated.bridge, rfl⟩

/-! ## A create that adopts a snapshot and fails -/

theorem createContainerWithId_grows {client : Client} {id name image : String}
    {opts : CreateContainerOpts} :
    (createContainerWithId (κ := κ) client id name image opts).Steps Grows := by
  have hsnapshot : ∀ (call : Call) (answer : Snapshots κ → Except Code (Snapshots κ)),
      Keeps Grows (snapshotRequest client call answer) := fun call answer w => by
    rcases snapshotRequest_cases client call answer w with ⟨snaps, -, -, hr⟩ | ⟨code, -, hr⟩
    · rw [after_ok hr]
      exact Grows.noted client w call none
    · rw [after_ok hr]
      exact Grows.noted client w call (some code)
  refine createContainerWithId_steps (fun _ _ h => h.grows)
    (checkName_keeps fun w r => .noted client w _ r) (fun _ _ => hsnapshot _ _)
    (allocBridgeIp_keeps fun w r _ => Grows.noted client w _ r) (fun _ _ => List.prefix_refl _)
    (fun record _ _ w => ?_) fun _ => hsnapshot _ _
  rcases createRecord_cases client w id record with ⟨-, -, hr⟩ | ⟨code, hr⟩
  · rw [after_ok hr]
    exact Grows.noted client w _ none
  · rw [after_ok hr]
    exact Grows.noted client w _ (some code)

theorem setupAndCommit_error {client : Client} {id name image key : String}
    {opts : CreateContainerOpts} {metadata : ImageMetadata} {w w' : World κ} {e : Error}
    (h : (setupAndCommit client id name image opts metadata key false).run w = .error e w') :
    SameStore w w' := by
  simp only [setupAndCommit, Prog.run_bind] at h
  cases hsetup : (setup client id name image opts metadata key).run w with
  | error e' w₁ =>
    cases (bind_error hsetup).symm.trans h
    exact setup_store.error hsetup
  | ok record w₁ =>
    rw [bind_ok hsetup] at h
    simp only [commitRecord, call, Prog.run_bind, Prog.run_atomic] at h
    rcases createRecord_cases client w₁ id record with ⟨-, -, hr⟩ | ⟨code, hr⟩
    · rw [bind_ok hr] at h
      cases h
    · rw [bind_ok hr] at h
      cases h
      exact IsTrans.trans _ _ _ (setup_store.ok hsetup) (.noted client w₁ _ _)

/-- **A create on an adopted snapshot that fails changes nothing**: the snapshot is not its
own to remove. -/
theorem createContainerWithId_error {client : Client} {id name image key : String}
    {opts : CreateContainerOpts} (hfrom : opts.fromExistingSnapshot = some key) {w w' : World κ}
    {e : Error} (h : (createContainerWithId client id name image opts).run w = .error e w') :
    SameStore w w' := by
  have hsteps : (prepareContainer (κ := κ) client id name image opts).Steps SameStore :=
    prepareContainer_steps (fun _ _ => Calm.toSameStore)
      (checkName_keeps fun w r => .noted client w _ r) fun hnone => by
        rw [hfrom] at hnone
        cases hnone
  simp only [createContainerWithId, Prog.run_bind] at h
  cases hprep : (prepareContainer client id name image opts).run w with
  | error e' w₁ =>
    cases (bind_error hprep).symm.trans h
    exact hsteps.keeps.error hprep
  | ok r w₁ =>
    rw [bind_ok hprep] at h
    have hsame := hsteps.keeps.ok hprep
    have hwe : r.2.2 = false := by
      have hiff := (prepareContainer_key.run_ok hprep).2
      rw [hfrom] at hiff
      simpa using hiff
    rw [hwe] at h
    refine IsTrans.trans _ _ _ hsame ?_
    split at h
    · obtain ⟨hok, herror⟩ := withAllocLock_run
        (setupAndCommit client id name image opts r.1 r.2.1 false) w₁
      cases hrun : (setupAndCommit client id name image opts r.1 r.2.1 false).run
          { w₁ with allocLock := true } with
      | ok a w₂ => cases (hok a w₂ hrun).symm.trans h
      | error e' w₂ =>
        cases (herror e' w₂ hrun).symm.trans h
        have hs := setupAndCommit_error hrun
        exact ⟨hs.snapshots, hs.containers⟩
    · exact setupAndCommit_error h

end ContainerdManager.Container
