import ContainerdManager.Container.Hooks
import ContainerdManager.Container.Image
import ContainerdManager.Task.Inspect
import Mathlib.Data.List.Dedup

/-!
# Creating a container

`create_container` of `src/container.rs` with the bridge allocation of
`src/bridge.rs`, request by request: name check, image, root snapshot
(`prepareContainer`), then bridge IP, ports, hooks and spec (`setup`), and
last the record (`commitRecord`). In bridge mode everything from the
allocation of the IP on runs under `ALLOC_LOCK`.
-/

namespace ContainerdManager.Container

open Lib Containerd ContainerdManager.Task

variable {κ : Type}

/-! ## Requests -/

/-- `snapshots.Prepare`. -/
def prepareSnapshot (client : Client) (snapshotter key parent : String) : Op κ (Except Code Unit) :=
  snapshotRequest client (.prepare snapshotter key parent) fun snaps =>
    snaps.prepare snapshotter key parent ∅

/-- `snapshots.Remove`. -/
def removeSnapshot (client : Client) (snapshotter key : String) : Op κ (Except Code Unit) :=
  snapshotRequest client (.remove snapshotter key) fun snaps => snaps.remove snapshotter key

/-- `snapshots.Commit`. -/
def commitActive (client : Client) (snapshotter name key : String) : Op κ (Except Code Unit) :=
  snapshotRequest client (.commit snapshotter name key) fun snaps =>
    snaps.commit snapshotter name key ∅

/-- `snapshots.Stat`, as far as the crate reads its answer: the labels. -/
def statSnapshot (client : Client) (snapshotter key : String) : Op κ (Except Code Labels) :=
  query client (.stat snapshotter key) fun w =>
    (w.snapshots.lookup (snapshotter, key)).elim (.error .notFound) fun snap => .ok snap.labels

/-- `containers.Create`. -/
def createRecord (client : Client) (id : String) (record : ContainerRecord) :
    Op κ (Except Code Unit) :=
  request client (.createContainer id record) fun w =>
    match w.containers.lookup id with
    | some _ => .error .alreadyExists
    | none => .ok ((), { w with containers := w.containers.insert id record })

/-! ## Bridge IPs and ports -/

/-- The octets in use, by the labels of all records of the namespace. -/
def usedOctets (w : World κ) : List Nat :=
  (w.containers.entries.filterMap fun e =>
    (e.2.labels.lookup bridgeIpLabel).bind parseOctet).dedup

/-- `2..=254` without the octets in use. -/
def freeOctets (used : List Nat) : List Nat := (List.range' 2 253).filter (· ∉ used)

/-- `pick_free_octet` with the given random choice. -/
def pickFreeOctet (random : Nat) (used : List Nat) : Except Error Nat :=
  match (freeOctets used)[random % (freeOctets used).length]? with
  | some octet => .ok octet
  | none =>
    .error (.resourceExhausted ("no free bridge IPs in " ++ containerSubnet ++ ".0/24 (" ++
      toString used.length ++ " octets in use)"))

/-- `alloc_bridge_ip` under the lock: list the containers and choose a free octet. -/
def allocBridgeIp (client : Client) : Op κ String := do
  match ← query client .listContainers fun w => .ok (usedOctets w) with
  | .error code => throw (.containerd "list_containers" code)
  | .ok used => fun w =>
    match pickFreeOctet (client.random w.octets.length) used with
    | .error e => .error e w
    | .ok octet => .ok (bridgeIp octet) { w with octets := w.octets ++ [octet] }

def pickFreePort (client : Client) : Op κ UInt16 := fun w =>
  let w' := { w with portPicks := w.portPicks + 1 }
  match client.freePort w.portPicks with
  | .port port => .ok port w'
  | .bindError e => .error (.resourceExhausted ("could not bind ephemeral host port: " ++ e)) w'
  | .addrError e => .error
      (.resourceExhausted ("could not read ephemeral port local_addr: " ++ e)) w'

/-- A free host port for every container port, as `(container_port, host_port)`. -/
def pickPorts (client : Client) : List UInt16 → Proc κ (List (UInt16 × UInt16))
  | [] => pure []
  | containerPort :: rest => do
    let hostPort ← call (pickFreePort client)
    let ports ← pickPorts client rest
    return (containerPort, hostPort) :: ports

/-- The container ports of a bridge container. -/
def bridgePorts (opts : CreateContainerOpts) : List UInt16 :=
  if opts.portBindings.isEmpty then [27017] else opts.portBindings.map Prod.snd

/-! ## Hooks and spec -/

/-- A builder or serialiser that may fail. -/
def build (client : Client) (what : String) : Op κ Unit := fun w =>
  match client.buildError w.steps with
  | some e => .error (.invalidArgument (what ++ e)) (w.advance client)
  | none => .ok () (w.advance client)

def buildAll (client : Client) : List String → Proc κ Unit
  | [] => pure ()
  | what :: rest => do
    call (build client what)
    buildAll client rest

def hookBuilds : List String := ["build hook: ", "build hook: ", "build hook: ", "build hooks: "]

def buildBridgeHooks (client : Client) (id ip : String) (ports pairs : List (UInt16 × UInt16)) :
    Proc κ Hooks := do
  buildAll client hookBuilds
  return {
    prestart := [shHook (prestartHookScript ip id client.namespace_ pairs)]
    poststart := [shHook (poststartHookScript id ip ports)]
    poststop := [shHook (poststopHookScript id client.namespace_ ports)] }

def specBuilds : List String :=
  ["build capabilities: ", "build user spec: ", "build process spec: ", "build root spec: ",
    "build linux spec: ", "build OCI spec: ", "serialize OCI spec: "]

/-- `build_oci_spec` and `spec_to_any`. -/
def buildOciSpec (client : Client) (image : ImageConfiguration) (opts : CreateContainerOpts)
    (hooks : Option Hooks) : Proc κ OciSpec := do
  buildAll client specBuilds
  return ociSpec image opts hooks

/-! ## Before the record -/

/-- Names are unique per namespace by contract. -/
def checkName (client : Client) (name : String) : Op κ Unit := do
  match ← query client (.listNamed name) fun w => .ok (namedContainers name w) with
  | .error code => throw (.containerd "list_containers_for_name_check" code)
  | .ok existing => if existing.isEmpty then return () else throw (.containerAlreadyExists name)

/-- The snapshot key, and whether it was prepared here. -/
def prepareRootfs (client : Client) (id name chainId : String) (opts : CreateContainerOpts) :
    Proc κ (String × Bool) :=
  match opts.fromExistingSnapshot with
  | some key => pure (key, false)
  | none => do
    match ← call (prepareSnapshot client defaultSnapshotter (snapshotKeyFor id) chainId) with
    | .ok () => return (snapshotKeyFor id, true)
    | .error code =>
      throw (if code = .alreadyExists then .containerAlreadyExists name
        else .containerd "prepare_snapshot" code)

/-- Up to the root snapshot. -/
def prepareContainer (client : Client) (id name image : String) (opts : CreateContainerOpts) :
    Proc κ (ImageMetadata × String × Bool) :=
  match validateIdentifier name with
  | .error e => throw e
  | .ok () => do
    call (checkName client name)
    let digest ← call (getImage client image)
    let metadata ← getImageMetadata client digest
    let (key, wePrepared) ← prepareRootfs client id name metadata.chainId opts
    return (metadata, key, wePrepared)

/-- The `(host_port, container_port)` pairs of a record, from the `(container_port, host_port)`
pairs of a bridge container. -/
def hostContainerPairs (opts : CreateContainerOpts)
    (bridge : Option (String × List (UInt16 × UInt16))) : List (UInt16 × UInt16) :=
  match bridge with
  | some (_, ports) => ports.map Prod.swap
  | none => opts.portBindings

def recordHooks (client : Client) (id : String) (opts : CreateContainerOpts) :
    Option (String × List (UInt16 × UInt16)) → Proc κ (Option Hooks)
  | some (ip, ports) => do
    let hooks ← buildBridgeHooks client id ip ports (hostContainerPairs opts (some (ip, ports)))
    return some hooks
  | none => pure none

def buildRecord (client : Client) (id name image : String) (opts : CreateContainerOpts)
    (metadata : ImageMetadata) (key : String) (bridge : Option (String × List (UInt16 × UInt16))) :
    Proc κ ContainerRecord := do
  let hooks ← recordHooks client id opts bridge
  let spec ← buildOciSpec client metadata.config opts hooks
  return {
    image := image
    snapshotter := defaultSnapshotter
    snapshotKey := key
    labels := containerLabels client.namespace_ name metadata.config opts (bridge.map Prod.fst)
      (hostContainerPairs opts bridge)
    spec := some spec }

/-- Bridge IP, ports, hooks and spec. -/
def setup (client : Client) (id name image : String) (opts : CreateContainerOpts)
    (metadata : ImageMetadata) (key : String) : Proc κ ContainerRecord :=
  match opts.network with
  | .bridge => do
    let ip ← call (allocBridgeIp client)
    let ports ← pickPorts client (bridgePorts opts)
    buildRecord client id name image opts metadata key (some (ip, ports))
  | _ => buildRecord client id name image opts metadata key none

/-! ## The record -/

/-- Write the record; on failure remove the snapshot that was prepared for it. -/
def commitRecord (client : Client) (id name key : String) (wePrepared : Bool)
    (record : ContainerRecord) : Proc κ String := do
  match ← call (createRecord client id record) with
  | .ok () => return id
  | .error code =>
    let err := if code = .alreadyExists then Error.containerAlreadyExists name
      else .containerd "create_container" code
    if wePrepared then do
      let _ ← call (removeSnapshot client defaultSnapshotter key)
      throw err
    else throw err

/-- Run `p` with `ALLOC_LOCK` held. -/
def withAllocLock {α : Type} (p : Proc κ α) : Proc κ α := do
  .await (fun w => !w.allocLock) fun w => { w with allocLock := true }
  p.ensuring (.await (fun _ => true) fun w => { w with allocLock := false })

/-- From the root snapshot to the record. -/
def setupAndCommit (client : Client) (id name image : String) (opts : CreateContainerOpts)
    (metadata : ImageMetadata) (key : String) (wePrepared : Bool) : Proc κ String := do
  let record ← setup client id name image opts metadata key
  commitRecord client id name key wePrepared record

/-- `create_container_with_id`. -/
def createContainerWithId (client : Client) (id name image : String) (opts : CreateContainerOpts) :
    Proc κ String := do
  let (metadata, key, wePrepared) ← prepareContainer client id name image opts
  if opts.network = .bridge then
    withAllocLock (setupAndCommit client id name image opts metadata key wePrepared)
  else setupAndCommit client id name image opts metadata key wePrepared

/-- `create_container`; `id` is the generated one. -/
def createContainer (client : Client) (id name image : String) (opts : CreateContainerOpts) :
    Proc κ String :=
  match validateIdentifier name with
  | .error e => throw e
  | .ok () => createContainerWithId client id name image opts

/-! ## What each step does -/

section Steps

variable (client : Client) (w : World κ)

theorem prepareSnapshot_cases (snapshotter key parent : String) :
    (∃ base, client.fault w.steps = none ∧ w.snapshots.lookup (snapshotter, key) = none ∧
      w.snapshots.lookup (snapshotter, parent) = some base ∧ base.kind = .committed ∧
      prepareSnapshot client snapshotter key parent w = .ok (.ok ())
        { w.noted client (.prepare snapshotter key parent) none with
          snapshots := w.snapshots.insert (snapshotter, key)
            { kind := .active, parent := parent, labels := ∅, content := base.content } }) ∨
    (∃ code, (client.fault w.steps = some code ∨
        client.fault w.steps = none ∧ w.snapshots.prepare snapshotter key parent ∅ = .error code) ∧
      prepareSnapshot client snapshotter key parent w =
        .ok (.error code) (w.noted client (.prepare snapshotter key parent) (some code))) := by
  rcases snapshotRequest_cases client (.prepare snapshotter key parent)
      (fun snaps => snaps.prepare snapshotter key parent ∅) w with
    ⟨snaps, hf, hans, hr⟩ | hfail
  · obtain ⟨hfree, base, hbase, hkind, rfl⟩ := Snapshots.prepare_eq_ok hans
    exact .inl ⟨base, hf, hfree, hbase, hkind, hr⟩
  · exact .inr hfail

theorem commitActive_cases (snapshotter name key : String) :
    (∃ snap, client.fault w.steps = none ∧ w.snapshots.lookup (snapshotter, name) = none ∧
      w.snapshots.lookup (snapshotter, key) = some snap ∧ snap.kind = .active ∧
      commitActive client snapshotter name key w = .ok (.ok ())
        { w.noted client (.commit snapshotter name key) none with
          snapshots := w.snapshots.committed snapshotter name key snap ∅ }) ∨
    (∃ code, (client.fault w.steps = some code ∨
        client.fault w.steps = none ∧ w.snapshots.commit snapshotter name key ∅ = .error code) ∧
      commitActive client snapshotter name key w =
        .ok (.error code) (w.noted client (.commit snapshotter name key) (some code))) := by
  rcases snapshotRequest_cases client (.commit snapshotter name key)
      (fun snaps => snaps.commit snapshotter name key ∅) w with
    ⟨snaps, hf, hans, hr⟩ | hfail
  · obtain ⟨hfree, snap, hsnap, hkind, rfl⟩ := Snapshots.commit_eq_ok hans
    exact .inl ⟨snap, hf, hfree, hsnap, hkind, hr⟩
  · exact .inr hfail

theorem removeSnapshot_cases (snapshotter key : String) :
    (client.fault w.steps = none ∧ (∃ snap, w.snapshots.lookup (snapshotter, key) = some snap) ∧
      ¬ w.snapshots.HasChild snapshotter key ∧
      removeSnapshot client snapshotter key w = .ok (.ok ())
        { w.noted client (.remove snapshotter key) none with
          snapshots := w.snapshots.erase (snapshotter, key) }) ∨
    (∃ code, (client.fault w.steps = some code ∨
        client.fault w.steps = none ∧ w.snapshots.remove snapshotter key = .error code) ∧
      removeSnapshot client snapshotter key w =
        .ok (.error code) (w.noted client (.remove snapshotter key) (some code))) := by
  rcases snapshotRequest_cases client (.remove snapshotter key)
      (fun snaps => snaps.remove snapshotter key) w with
    ⟨snaps, hf, hans, hr⟩ | hfail
  · obtain ⟨hsnap, hchild, rfl⟩ := Snapshots.remove_eq_ok hans
    exact .inl ⟨hf, hsnap, hchild, hr⟩
  · exact .inr hfail

theorem createRecord_cases (id : String) (record : ContainerRecord) :
    (client.fault w.steps = none ∧ w.containers.lookup id = none ∧
      createRecord client id record w = .ok (.ok ())
        { w.noted client (.createContainer id record) none with
          containers := w.containers.insert id record }) ∨
    (∃ code, createRecord client id record w =
      .ok (.error code) (w.noted client (.createContainer id record) (some code))) := by
  unfold createRecord
  rcases request_cases client (.createContainer id record) (fun w : World κ =>
      match w.containers.lookup id with
      | some _ => .error .alreadyExists
      | none => .ok ((), { w with containers := w.containers.insert id record })) w with
    ⟨a, w', hf, ha, hr⟩ | ⟨code, -, hr⟩
  · have hadv : (w.advance client).containers = w.containers := rfl
    rw [hadv] at ha
    cases hl : w.containers.lookup id with
    | some r => rw [hl] at ha; cases ha
    | none =>
      rw [hl] at ha
      cases ha
      exact .inl ⟨hf, rfl, hr⟩
  · exact .inr ⟨code, hr⟩

theorem statSnapshot_cases (snapshotter key : String) :
    (∃ snap, w.snapshots.lookup (snapshotter, key) = some snap ∧
      statSnapshot client snapshotter key w =
        .ok (.ok snap.labels) (w.noted client (.stat snapshotter key) none)) ∨
    (∃ code, (client.fault w.steps = some code ∨ client.fault w.steps = none ∧ code = .notFound ∧
        w.snapshots.lookup (snapshotter, key) = none) ∧
      statSnapshot client snapshotter key w =
        .ok (.error code) (w.noted client (.stat snapshotter key) (some code))) := by
  rcases query_lookup_cases client (.stat snapshotter key)
      (fun w => w.snapshots.lookup (snapshotter, key)) Snapshot.labels w with
    ⟨snap, -, hl, hr⟩ | ⟨code, hf | ⟨hf, hnone, hcode⟩, hr⟩
  · exact .inl ⟨snap, hl, hr⟩
  · exact .inr ⟨code, .inl hf, hr⟩
  · exact .inr ⟨code, .inr ⟨hf, hcode, hnone⟩, hr⟩

theorem checkName_cases (name : String) :
    (client.fault w.steps = none ∧ namedContainers name w = [] ∧
      checkName client name w = .ok () (w.noted client (.listNamed name) none)) ∨
    (∃ e r, checkName client name w = .error e (w.noted client (.listNamed name) r)) := by
  rcases query_cases client (.listNamed name) (fun w => .ok (namedContainers name w)) w with
    ⟨a, hf, ha, hr⟩ | ⟨code, -, hr⟩
  · cases ha
    have hrun : checkName client name w = _ := bind_ok hr
    cases hnamed : namedContainers name w with
    | nil =>
      refine .inl ⟨hf, rfl, hrun.trans ?_⟩
      show (if (namedContainers name w).isEmpty then _ else _ : Op κ Unit) _ = _
      rw [hnamed]
      rfl
    | cons x xs =>
      refine .inr ⟨.containerAlreadyExists name, none, hrun.trans ?_⟩
      show (if (namedContainers name w).isEmpty then _ else _ : Op κ Unit) _ = _
      rw [hnamed]
      rfl
  · exact .inr ⟨.containerd "list_containers_for_name_check" code, some code, bind_ok hr⟩

theorem allocBridgeIp_cases :
    (∃ octet, client.fault w.steps = none ∧
      pickFreeOctet (client.random w.octets.length) (usedOctets w) = .ok octet ∧
      allocBridgeIp client w = .ok (bridgeIp octet)
        { w.noted client .listContainers none with octets := w.octets ++ [octet] }) ∨
    (∃ e r, ((∃ code, client.fault w.steps = some code ∧ e = .containerd "list_containers" code) ∨
        client.fault w.steps = none ∧
          pickFreeOctet (client.random w.octets.length) (usedOctets w) = .error e) ∧
      allocBridgeIp client w = .error e (w.noted client .listContainers r)) := by
  rcases query_cases client .listContainers (fun w => .ok (usedOctets w)) w with
    ⟨a, hf, ha, hr⟩ | ⟨code, hc, hr⟩
  · cases ha
    have hrun : allocBridgeIp client w = _ := bind_ok hr
    cases hpick : pickFreeOctet (client.random w.octets.length) (usedOctets w) with
    | ok octet =>
      refine .inl ⟨octet, hf, rfl, hrun.trans ?_⟩
      show (match pickFreeOctet (client.random w.octets.length) (usedOctets w) with
        | .error e => _ | .ok octet => _ : EStateM.Result _ _ _) = _
      rw [hpick]
      rfl
    | error e =>
      refine .inr ⟨e, none, .inr ⟨hf, rfl⟩, hrun.trans ?_⟩
      show (match pickFreeOctet (client.random w.octets.length) (usedOctets w) with
        | .error e => _ | .ok octet => _ : EStateM.Result _ _ _) = _
      simp only [hpick]
  · refine .inr ⟨.containerd "list_containers" code, some code, .inl ⟨code, ?_, rfl⟩, bind_ok hr⟩
    rcases hc with h | ⟨-, h⟩
    · exact h
    · cases h

end Steps

/-! ## Octets -/

theorem mem_freeOctets {used : List Nat} {octet : Nat} :
    octet ∈ freeOctets used ↔ (2 ≤ octet ∧ octet ≤ 254) ∧ octet ∉ used := by
  simp only [freeOctets, List.mem_filter, List.mem_range'_1, decide_not, Bool.not_eq_true',
    decide_eq_false_iff_not]
  constructor
  · rintro ⟨h, hn⟩
    exact ⟨by omega, hn⟩
  · rintro ⟨h, hn⟩
    exact ⟨by omega, hn⟩

theorem pickFreeOctet_ok {random octet : Nat} {used : List Nat}
    (h : pickFreeOctet random used = .ok octet) : (2 ≤ octet ∧ octet ≤ 254) ∧ octet ∉ used := by
  unfold pickFreeOctet at h
  split at h
  · rename_i o ho
    cases h
    exact mem_freeOctets.mp (List.mem_of_getElem? ho)
  · cases h

theorem pickFreeOctet_error {random : Nat} {used : List Nat} {e : Error}
    (h : pickFreeOctet random used = .error e) : ∃ message, e = .resourceExhausted message := by
  unfold pickFreeOctet at h
  split at h
  · cases h
  · cases h
    exact ⟨_, rfl⟩

/-- A choice fails only when every octet is taken, whatever the random number. -/
theorem pickFreeOctet_error_iff (random : Nat) (used : List Nat) :
    (∃ e, pickFreeOctet random used = .error e) ↔ ∀ octet, 2 ≤ octet → octet ≤ 254 →
      octet ∈ used := by
  have hempty : freeOctets used = [] ↔ ∀ octet, 2 ≤ octet → octet ≤ 254 → octet ∈ used := by
    rw [List.eq_nil_iff_forall_not_mem]
    simp only [mem_freeOctets, not_and, not_not]
    exact ⟨fun h o h1 h2 => h o ⟨h1, h2⟩, fun h o ho => h o ho.1 ho.2⟩
  rw [← hempty]
  unfold pickFreeOctet
  constructor
  · rintro ⟨e, h⟩
    split at h
    · cases h
    · rename_i hnone
      by_contra hne
      have hpos : 0 < (freeOctets used).length := List.length_pos_iff.mpr hne
      rw [List.getElem?_eq_getElem (Nat.mod_lt _ hpos)] at hnone
      cases hnone
  · intro h
    rw [h]
    exact ⟨_, rfl⟩

theorem mem_usedOctets {w : World κ} {octet : Nat} :
    octet ∈ usedOctets w ↔ ∃ id record ip, w.containers.lookup id = some record ∧
      record.labels.lookup bridgeIpLabel = some ip ∧ parseOctet ip = some octet := by
  unfold usedOctets
  rw [List.mem_dedup, List.mem_filterMap]
  constructor
  · rintro ⟨⟨id, record⟩, hmem, h⟩
    obtain ⟨ip, hip, hp⟩ := Option.bind_eq_some_iff.mp h
    exact ⟨id, record, ip, AList.mem_lookup_iff.mpr hmem, hip, hp⟩
  · rintro ⟨id, record, ip, hl, hip, hp⟩
    exact ⟨⟨id, record⟩, AList.mem_lookup_iff.mp hl, Option.bind_eq_some_iff.mpr ⟨ip, hip, hp⟩⟩

/-! ## Frames -/

theorem pickFreePort_keeps {client : Client} : Keeps Calm (pickFreePort (κ := κ) client) := by
  intro w
  unfold after pickFreePort
  cases client.freePort w.portPicks <;> exact .of_trace_eq ⟨rfl, rfl⟩ rfl rfl rfl

theorem pickPorts_calm {client : Client} (ports : List UInt16) :
    (pickPorts (κ := κ) client ports).Steps Calm := by
  induction ports with
  | nil => trivial
  | cons port ports ih =>
    exact .bind (.atomic pickFreePort_keeps) fun _ => .bind ih fun _ => trivial

theorem buildAll_calm {client : Client} (whats : List String) :
    (buildAll (κ := κ) client whats).Steps Calm := by
  induction whats with
  | nil => trivial
  | cons what whats ih =>
    refine .bind (.atomic fun w => ?_) fun _ => ih
    unfold after build
    cases client.buildError w.steps <;> exact Calm.advance client w

theorem recordHooks_calm {client : Client} {id : String} {opts : CreateContainerOpts}
    (bridge : Option (String × List (UInt16 × UInt16))) :
    (recordHooks (κ := κ) client id opts bridge).Steps Calm := by
  rcases bridge with _ | ⟨ip, ports⟩
  · trivial
  · exact .bind (.bind (buildAll_calm _) fun _ => trivial) fun _ => trivial

theorem buildRecord_calm {client : Client} {id name image : String} {opts : CreateContainerOpts}
    {metadata : ImageMetadata} {key : String} (bridge : Option (String × List (UInt16 × UInt16))) :
    (buildRecord (κ := κ) client id name image opts metadata key bridge).Steps Calm :=
  .bind (recordHooks_calm bridge) fun _ => .bind (.bind (buildAll_calm _) fun _ => trivial) fun _ =>
    trivial

/-- Everything in the setup but the allocation of the IP is calm. -/
theorem setup_steps {R : World κ → World κ → Prop} {client : Client} {id name image : String}
    {opts : CreateContainerOpts} {metadata : ImageMetadata} {key : String}
    (hcalm : ∀ w w', Calm w w' → R w w') (halloc : Keeps R (allocBridgeIp (κ := κ) client)) :
    (setup client id name image opts metadata key).Steps R := by
  unfold setup
  split
  · exact .bind (.atomic halloc) fun ip => .bind ((pickPorts_calm _).mono hcalm) fun ports =>
      (buildRecord_calm _).mono hcalm
  · exact (buildRecord_calm _).mono hcalm

/-- Up to the root snapshot only the name check and the `Prepare` are not calm. -/
theorem prepareContainer_steps {R : World κ → World κ → Prop} {client : Client}
    {id name image : String} {opts : CreateContainerOpts} (hcalm : ∀ w w', Calm w w' → R w w')
    (hname : Keeps R (checkName (κ := κ) client name))
    (hprep : opts.fromExistingSnapshot = none → ∀ chainId,
      Keeps R (prepareSnapshot (κ := κ) client defaultSnapshotter (snapshotKeyFor id) chainId)) :
    (prepareContainer client id name image opts).Steps R := by
  unfold prepareContainer
  cases validateIdentifier name with
  | error e => trivial
  | ok _ =>
    refine .bind (.atomic hname) fun _ => .bind (.atomic fun w => hcalm _ _ (getImage_keeps w))
      fun digest => .bind (getImageMetadata_calm.mono hcalm) fun metadata => .bind ?_ fun _ =>
        trivial
    unfold prepareRootfs
    split
    · trivial
    · rename_i hnone
      refine .bind (.atomic (hprep hnone _)) fun answer => ?_
      cases answer <;> trivial

theorem commitRecord_steps {R : World κ → World κ → Prop} {client : Client} {id name key : String}
    {wePrepared : Bool} {record : ContainerRecord}
    (hcreate : Keeps R (createRecord client id record))
    (hremove : wePrepared = true → Keeps R (removeSnapshot client defaultSnapshotter key)) :
    (commitRecord client id name key wePrepared record).Steps R := by
  refine .bind (.atomic hcreate) fun answer => ?_
  cases answer with
  | ok _ => trivial
  | error code =>
    simp only
    split
    · rename_i hwe
      exact .bind (.atomic (hremove hwe)) fun _ => trivial
    · trivial

theorem withAllocLock_steps {α : Type} {R : World κ → World κ → Prop} {p : Proc κ α}
    (hlock : ∀ (w : World κ) held, R w { w with allocLock := held }) (hp : p.Steps R) :
    (withAllocLock p).Steps R :=
  .bind (.await fun w => hlock w true) fun _ => .ensuring hp (.await fun w => hlock w false)

/-- The key a container gets is that of its own snapshot, or the one it was given. -/
theorem prepareContainer_key {client : Client} {id name image : String}
    {opts : CreateContainerOpts} :
    (prepareContainer (κ := κ) client id name image opts).Returns fun r =>
      r.2.1 = opts.fromExistingSnapshot.getD (snapshotKeyFor id) ∧
        (r.2.2 = true ↔ opts.fromExistingSnapshot = none) := by
  unfold prepareContainer
  cases validateIdentifier name with
  | error e => trivial
  | ok _ =>
    refine .bind (.any _) fun _ _ => .bind (.any _) fun _ _ => .bind (.any _) fun metadata _ => ?_
    refine .bind (φ := fun r : String × Bool =>
      r.1 = opts.fromExistingSnapshot.getD (snapshotKeyFor id) ∧
      (r.2 = true ↔ opts.fromExistingSnapshot = none)) ?_ fun ⟨_, _⟩ hr => hr
    unfold prepareRootfs
    cases opts.fromExistingSnapshot with
    | some key => exact ⟨rfl, by simp⟩
    | none =>
      refine .bind (.any _) fun answer _ => ?_
      cases answer with
      | ok _ => exact ⟨rfl, by simp⟩
      | error code => trivial

theorem allocBridgeIp_keeps {client : Client} {R : World κ → World κ → Prop}
    (h : ∀ w r octets, R w { w.noted client .listContainers r with octets := octets }) :
    Keeps R (allocBridgeIp client) := by
  intro w
  rcases allocBridgeIp_cases client w with ⟨octet, -, -, hr⟩ | ⟨e, r, -, hr⟩
  · rw [after_ok hr]
    exact h w none _
  · rw [after_error hr]
    exact h w r w.octets

theorem checkName_keeps {client : Client} {name : String} {R : World κ → World κ → Prop}
    (h : ∀ w r, R w (w.noted client (.listNamed name) r)) : Keeps R (checkName client name) := by
  intro w
  rcases checkName_cases client w name with ⟨-, -, hr⟩ | ⟨e, r, hr⟩
  · rw [after_ok hr]
    exact h w none
  · rw [after_error hr]
    exact h w r

theorem statSnapshot_keeps {client : Client} {snapshotter key : String}
    {R : World κ → World κ → Prop} (h : ∀ w r, R w (w.noted client (.stat snapshotter key) r)) :
    Keeps R (statSnapshot client snapshotter key) := by
  intro w
  rcases statSnapshot_cases client w snapshotter key with ⟨snap, -, hr⟩ | ⟨code, -, hr⟩
  · rw [after_ok hr]
    exact h w none
  · rw [after_ok hr]
    exact h w (some code)

/-- The record that is built names the default snapshotter and the key it was given. -/
theorem setup_key {client : Client} {id name image key : String} {opts : CreateContainerOpts}
    {metadata : ImageMetadata} :
    (setup (κ := κ) client id name image opts metadata key).Returns fun record =>
      record.snapshotter = defaultSnapshotter ∧ record.snapshotKey = key := by
  have hbuild : ∀ bridge,
      (buildRecord (κ := κ) client id name image opts metadata key bridge).Returns
      fun record => record.snapshotter = defaultSnapshotter ∧ record.snapshotKey = key :=
    fun _ => .bind (.any _) fun _ _ => .bind (.any _) fun _ _ => Prog.Returns.pure ⟨rfl, rfl⟩
  unfold setup
  split
  · exact .bind (.any _) fun _ _ => .bind (.any _) fun _ _ => hbuild _
  · exact hbuild _

/-- **The frame of a create**: its calm steps and the six that are not. -/
theorem createContainerWithId_steps {R : World κ → World κ → Prop} {client : Client}
    {id name image : String} {opts : CreateContainerOpts} (hcalm : ∀ w w', Calm w w' → R w w')
    (hname : Keeps R (checkName (κ := κ) client name))
    (hprep : opts.fromExistingSnapshot = none → ∀ chainId,
      Keeps R (prepareSnapshot (κ := κ) client defaultSnapshotter (snapshotKeyFor id) chainId))
    (halloc : Keeps R (allocBridgeIp (κ := κ) client))
    (hlock : ∀ (w : World κ) held, R w { w with allocLock := held })
    (hcreate : ∀ record, record.snapshotter = defaultSnapshotter →
      record.snapshotKey = opts.fromExistingSnapshot.getD (snapshotKeyFor id) →
      Keeps R (createRecord (κ := κ) client id record))
    (hremove : opts.fromExistingSnapshot = none →
      Keeps R (removeSnapshot (κ := κ) client defaultSnapshotter (snapshotKeyFor id))) :
    (createContainerWithId client id name image opts).Steps R := by
  refine .bindReturns (prepareContainer_steps hcalm hname hprep) prepareContainer_key
    fun ⟨metadata, key, wePrepared⟩ ⟨hkey, hwe⟩ => ?_
  have hfinish : (setupAndCommit client id name image opts metadata key wePrepared).Steps R := by
    refine .bindReturns (setup_steps hcalm halloc) setup_key fun record ⟨hsnapshotter, hrecord⟩ =>
      commitRecord_steps (hcreate record hsnapshotter (hrecord.trans hkey)) fun h => ?_
    have hnone := hwe.mp h
    rw [hnone] at hkey
    cases hkey
    exact hremove hnone
  dsimp only
  split
  · exact withAllocLock_steps hlock hfinish
  · exact hfinish

theorem createContainer_steps {R : World κ → World κ → Prop} {client : Client}
    {id name image : String} {opts : CreateContainerOpts}
    (h : (createContainerWithId client id name image opts).Steps R) :
    (createContainer client id name image opts).Steps R := by
  unfold createContainer
  split
  · trivial
  · exact h

end ContainerdManager.Container
