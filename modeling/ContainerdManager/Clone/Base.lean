import ContainerdManager.Clone.Container
import ContainerdManager.Lib.Runs

/-!
# The clone base over successive clones

`ensure_clone_base` is done as soon as a `Stat` finds the base. When an
earlier call committed the base and could not prepare the source's active
snapshot again, every later call takes this shortcut and the source stays
without a root filesystem. `CommitLost` names the calls that bring this
about; in a run without them the base is committed and the source active
whenever `ensure_clone_base` returns.
-/

namespace ContainerdManager.Clone

open Lib Containerd Container Snapshot ContainerdManager.Task

variable {κ : Type}

/-- The key is an active snapshot. -/
def Active (w : World κ) (snapshotter key : String) : Prop :=
  ∃ snap, w.snapshots.lookup (snapshotter, key) = some snap ∧ snap.kind = .active

/-- The key is a committed snapshot. -/
def IsCommitted (w : World κ) (snapshotter key : String) : Prop :=
  ∃ snap, w.snapshots.lookup (snapshotter, key) = some snap ∧ snap.kind = .committed

/-- From `w` on, `ensure_clone_base` reaches the `Commit` of a missing base, and then
the `Commit` is taken to be lost to a race that no one won, or it goes through and the
second `Prepare` does not. -/
structure CommitLost (client : Client) (snapshotter base : String) (w : World κ) : Prop where
  missing : w.snapshots.lookup (snapshotter, base) = none
  reached : client.fault w.steps = none ∨ client.fault w.steps = some .notFound
  lost : client.fault (w.steps + 1) = some .alreadyExists ∨
    client.fault (w.steps + 1) = none ∧ client.fault (w.steps + 2) ≠ none

/-- The source as a clone needs it: its record, its active snapshot, and a base that is missing or
committed. -/
structure SourceReady (src : String) (record : ContainerRecord) (w : World κ) : Prop where
  found : w.containers.lookup src = some record
  active : Active w record.snapshotter record.snapshotKey
  base : ∀ snap, w.snapshots.lookup (record.snapshotter, cloneBaseFor src) = some snap →
    snap.kind = .committed

theorem SourceReady.of_sameStore {src : String} {record : ContainerRecord} {w w' : World κ}
    (h : SourceReady src record w) (hs : SameStore w w') : SourceReady src record w' := by
  obtain ⟨hrec, hact, hbase⟩ := h
  refine ⟨?_, ?_, ?_⟩
  · rw [hs.containers]
    exact hrec
  · unfold Active
    rw [hs.snapshots]
    exact hact
  · rw [hs.snapshots]
    exact hbase

/-! ## One call of `ensure_clone_base` -/

/-- The second `Prepare` on a base that is there. -/
theorem reprepareSource_run {client : Client} {snapshotter key base : String} {w : World κ}
    {snap : Snapshot κ} (hbase : w.snapshots.lookup (snapshotter, base) = some snap)
    (hkind : snap.kind = .committed) (hkey : w.snapshots.lookup (snapshotter, key) = none)
    (hf : client.fault w.steps = none) :
    ∃ w', (reprepareSource client snapshotter key base).run w = .ok () w' ∧
      w'.containers = w.containers ∧
      w'.snapshots = w.snapshots.insert (snapshotter, key)
        { kind := .active, parent := base, labels := ∅, content := snap.content } := by
  simp only [reprepareSource, call, Prog.run_bind, Prog.run_atomic]
  rcases prepareSnapshot_cases client w snapshotter key base with
    ⟨b, -, -, hb, -, hr⟩ | ⟨code, hc, hr⟩
  · rw [hbase] at hb
    cases hb
    exact ⟨_, bind_ok hr, rfl, rfl⟩
  · rcases hc with hc | ⟨-, hc⟩
    · rw [hf] at hc
      cases hc
    · simp [Snapshots.prepare, hkey, hbase, hkind] at hc

/-- The `Commit` of the base and what follows it. -/
theorem commitCloneBase_run {client : Client} {src : String} {record : ContainerRecord}
    {w : World κ} (h : SourceReady src record w)
    (hlost : w.snapshots.lookup (record.snapshotter, cloneBaseFor src) = none →
      client.fault w.steps ≠ some .alreadyExists ∧
        (client.fault w.steps = none → client.fault (w.steps + 1) = none)) :
    (∃ w', (commitCloneBase client record.snapshotter record.snapshotKey (cloneBaseFor src)).run w =
        .ok () w' ∧ SourceReady src record w' ∧
          IsCommitted w' record.snapshotter (cloneBaseFor src)) ∨
    (∃ e w', (commitCloneBase client record.snapshotter record.snapshotKey
      (cloneBaseFor src)).run w =
        .error e w' ∧ SourceReady src record w') := by
  obtain ⟨hrec, ⟨snap, hsnap, hkind⟩, hbase⟩ := h
  simp only [commitCloneBase, call, Prog.run_bind, Prog.run_atomic]
  rcases commitActive_cases client w record.snapshotter (cloneBaseFor src) record.snapshotKey with
    ⟨snap', hf, hnone, hsnap', -, hr⟩ | ⟨code, hc, hr⟩
  · -- the base is new: the source's key is free until it is prepared again
    rw [bind_ok hr]
    obtain ⟨w', hrun, hconts, hsnaps⟩ := reprepareSource_run
      (w := { w.noted client
        (.commit record.snapshotter (cloneBaseFor src) record.snapshotKey) none with
        snapshots := w.snapshots.committed record.snapshotter (cloneBaseFor src) record.snapshotKey
          snap' ∅ })
      Snapshots.lookup_committed_name rfl (Snapshots.lookup_committed_key hnone hsnap')
      ((hlost hnone).2 hf)
    have hne := Snapshots.name_ne_key hnone hsnap'
    have hcommitted : w'.snapshots.lookup (record.snapshotter, cloneBaseFor src) =
        some { snap' with kind := .committed, labels := ∅ } := by
      rw [hsnaps, AList.lookup_insert_ne hne]
      exact Snapshots.lookup_committed_name
    refine .inl ⟨w', hrun, ⟨?_, ⟨_, by rw [hsnaps]; exact AList.lookup_insert _, rfl⟩, ?_⟩,
      _, hcommitted, rfl⟩
    · rw [hconts]
      exact hrec
    · intro b hb
      rw [hcommitted] at hb
      cases hb
      rfl
  · rw [bind_ok hr]
    have hready : SourceReady src record (w.noted client
        (.commit record.snapshotter (cloneBaseFor src) record.snapshotKey) (some code)) :=
      SourceReady.of_sameStore ⟨hrec, ⟨snap, hsnap, hkind⟩, hbase⟩ (.noted client w _ _)
    dsimp only
    split
    · rename_i hcode
      refine .inl ⟨_, rfl, hready, ?_⟩
      cases hb : w.snapshots.lookup (record.snapshotter, cloneBaseFor src) with
      | some b => exact ⟨b, hb, hbase b hb⟩
      | none =>
        rcases hc with hc | ⟨-, hc⟩
        · exact absurd (hcode ▸ hc) (hlost hb).1
        · rw [Snapshots.commit_of_free hb hsnap hkind] at hc
          cases hc
    · exact .inr ⟨_, _, rfl, hready⟩

/-- **One call**: unless its commit is lost, the source stays as it has to be, and when the call
returns `Ok` the base is committed. -/
theorem ensureCloneBase_run {client : Client} {src : String} {record : ContainerRecord}
    {w : World κ} (h : SourceReady src record w)
    (hlost : ¬ CommitLost client record.snapshotter (cloneBaseFor src) w) :
    (∃ w', (ensureCloneBase client record.snapshotter record.snapshotKey (cloneBaseFor src)).run w =
        .ok () w' ∧ SourceReady src record w' ∧
          IsCommitted w' record.snapshotter (cloneBaseFor src)) ∨
    (∃ e w', (ensureCloneBase client record.snapshotter record.snapshotKey
      (cloneBaseFor src)).run w =
        .error e w' ∧ SourceReady src record w') := by
  simp only [ensureCloneBase, call, Prog.run_bind, Prog.run_atomic]
  rcases statSnapshot_cases client w record.snapshotter (cloneBaseFor src) with
    ⟨snap, hsnap, hr⟩ | ⟨code, hc, hr⟩
  · rw [bind_ok hr]
    exact .inl ⟨_, rfl, h.of_sameStore (.noted client w _ none), snap, hsnap, h.base snap hsnap⟩
  · rw [bind_ok hr]
    dsimp only
    split
    · rename_i hcode
      refine commitCloneBase_run (h.of_sameStore (.noted client w _ _)) fun hnone => ?_
      have hreached : client.fault w.steps = none ∨ client.fault w.steps = some .notFound := by
        rcases hc with hc | ⟨hc, -⟩
        · exact .inr (hcode ▸ hc)
        · exact .inl hc
      constructor
      · exact fun hex => hlost ⟨hnone, hreached, .inl hex⟩
      · intro hf
        by_contra hprep
        exact hlost ⟨hnone, hreached, .inr ⟨hf, hprep⟩⟩
    · exact .inr ⟨_, _, rfl, h.of_sameStore (.noted client w _ _)⟩

/-! ## The rest of a clone -/

/-- Only the snapshot `loc` may have changed, and every record is still there. -/
structure AddsAt (loc : SnapshotKey) (w w' : World κ) : Prop where
  snapshots : ∀ l, l ≠ loc → w'.snapshots.lookup l = w.snapshots.lookup l
  records : ∀ id record, w.containers.lookup id = some record →
    w'.containers.lookup id = some record

instance (loc : SnapshotKey) :
    Std.Refl (AddsAt (κ := κ) loc) := ⟨fun _ => ⟨fun _ _ => rfl, fun _ _ h => h⟩⟩

instance (loc : SnapshotKey) : IsTrans (World κ) (AddsAt loc) :=
  ⟨fun _ _ _ h h' => ⟨fun l hl => (h'.snapshots l hl).trans (h.snapshots l hl),
    fun id r hr => h'.records id r (h.records id r hr)⟩⟩

theorem AddsAt.of_sameStore {loc : SnapshotKey} {w w' : World κ} (h : SameStore w w') :
    AddsAt loc w w' :=
  ⟨fun l _ => by rw [h.snapshots], fun id r hr => by rw [h.containers]; exact hr⟩

theorem createRecord_addsAt {loc : SnapshotKey} {client : Client} {id : String}
    {record : ContainerRecord} :
    Keeps (AddsAt loc) (createRecord (κ := κ) client id record) := by
  intro w
  rcases createRecord_cases client w id record with ⟨-, hfree, hr⟩ | ⟨code, hr⟩
  · rw [after_ok hr]
    refine ⟨fun l _ => rfl, fun id' r h => ?_⟩
    have hne : id' ≠ id := by
      rintro rfl
      rw [hfree] at h
      cases h
    exact (AList.lookup_insert_ne hne).trans h
  · rw [after_ok hr]
    exact AddsAt.of_sameStore (.noted client w _ _)

theorem snapshotRequest_addsAt {client : Client} {call : Call} {snapshotter key : String}
    {answer : Snapshots κ → Except Code (Snapshots κ)}
    (h : ∀ snaps snaps', answer snaps = .ok snaps' →
      ∀ l, l ≠ (snapshotter, key) → snaps'.lookup l = snaps.lookup l) :
    Keeps (AddsAt (snapshotter, key)) (snapshotRequest client call answer) := by
  intro w
  rcases snapshotRequest_cases client call answer w with ⟨snaps, -, ha, hr⟩ | ⟨code, -, hr⟩
  · rw [after_ok hr]
    exact ⟨h _ _ ha, fun _ _ hr => hr⟩
  · rw [after_ok hr]
    exact AddsAt.of_sameStore (.noted client w _ _)

theorem prepareSnapshot_addsAt {client : Client} {snapshotter key parent : String} :
    Keeps (AddsAt (snapshotter, key)) (prepareSnapshot (κ := κ) client snapshotter key parent) := by
  refine snapshotRequest_addsAt fun snaps snaps' ha l hl => ?_
  obtain ⟨-, base, -, -, rfl⟩ := Snapshots.prepare_eq_ok ha
  exact AList.lookup_insert_ne hl

theorem removeSnapshot_addsAt {client : Client} {snapshotter key : String} :
    Keeps (AddsAt (snapshotter, key)) (removeSnapshot (κ := κ) client snapshotter key) := by
  refine snapshotRequest_addsAt fun snaps snaps' ha l hl => ?_
  obtain ⟨-, -, rfl⟩ := Snapshots.remove_eq_ok ha
  exact AList.lookup_erase_ne hl

theorem recordClone_addsAt {client : Client} {snapshotter dst dstName : String}
    {srcInfo : ContainerInfo} {opts : CloneContainerOpts} :
    (recordClone (κ := κ) client snapshotter dst dstName srcInfo opts).Steps
      (AddsAt (snapshotter, snapshotKeyFor dst)) := by
  refine recordClone_steps (fun image createOpts hfrom => ?_) removeSnapshot_addsAt
  exact createContainerWithId_steps (fun _ _ h => .of_sameStore h.toSameStore)
    (checkName_keeps fun w _ => .of_sameStore (.noted client w _ _))
    (fun h => by rw [hfrom] at h; cases h)
    (allocBridgeIp_keeps fun _ _ _ => .of_sameStore ⟨rfl, rfl⟩)
    (fun _ _ => .of_sameStore ⟨rfl, rfl⟩) (fun _ _ _ => createRecord_addsAt)
    (fun h => by rw [hfrom] at h; cases h)

theorem SourceReady.of_addsAt {src : String} {record : ContainerRecord} {loc : SnapshotKey}
    {w w' : World κ} (h : SourceReady src record w) (hadds : AddsAt loc w w')
    (hkey : loc ≠ (record.snapshotter, record.snapshotKey))
    (hbase : loc ≠ (record.snapshotter, cloneBaseFor src)) : SourceReady src record w' := by
  obtain ⟨hrec, ⟨snap, hsnap, hkind⟩, hb⟩ := h
  refine ⟨hadds.records _ _ hrec, ⟨snap, ?_, hkind⟩, fun b hlook => hb b ?_⟩
  · rw [hadds.snapshots _ hkey.symm]
    exact hsnap
  · rwa [hadds.snapshots _ hbase.symm] at hlook

/-- Once the base is there, nothing in the rest of a clone touches it or the source. -/
theorem prepareAndRecord_ready {client : Client} {src dst dstName : String}
    {srcInfo : ContainerInfo} {opts : CloneContainerOpts} {record : ContainerRecord} {w : World κ}
    (h : SourceReady src record w)
    (hbase : IsCommitted w record.snapshotter (cloneBaseFor src)) :
    SourceReady src record
      (after (prepareCloneSnapshot client record.snapshotter (snapshotKeyFor dst)
      (cloneBaseFor src) dstName >>= fun _ =>
        recordClone client record.snapshotter dst dstName srcInfo opts).run w) := by
  have hkeeps : Keeps (AddsAt (record.snapshotter, snapshotKeyFor dst))
      (prepareCloneSnapshot client record.snapshotter (snapshotKeyFor dst)
        (cloneBaseFor src) dstName >>=
        fun _ => recordClone client record.snapshotter dst dstName srcInfo opts :
          Proc κ String).run :=
    Prog.Steps.keeps (.bind (prepareCloneSnapshot_steps prepareSnapshot_addsAt) fun _ =>
      recordClone_addsAt)
  have hadds := hkeeps w
  obtain ⟨-, ⟨snap, hsnap, -⟩, -⟩ := id h
  obtain ⟨b, hb, -⟩ := hbase
  by_cases hfree : w.snapshots.lookup (record.snapshotter, snapshotKeyFor dst) = none
  · refine h.of_addsAt hadds ?_ ?_
    · intro heq
      rw [heq, hsnap] at hfree
      cases hfree
    · intro heq
      rw [heq, hb] at hfree
      cases hfree
  · -- the key is taken: the `Prepare` fails and that is all
    simp only [prepareCloneSnapshot, call, Prog.run_bind, Prog.run_atomic, bind_assoc]
    rcases prepareSnapshot_cases client w record.snapshotter (snapshotKeyFor dst)
      (cloneBaseFor src) with
      ⟨snap, -, hnone, -⟩ | ⟨code, -, hr⟩
    · exact absurd hnone hfree
    · rw [after_bind_ok hr]
      exact h.of_sameStore (.noted client w _ _)

theorem cloneFrom_ready {client : Client} {src dst dstName : String} {srcInfo : ContainerInfo}
    {opts : CloneContainerOpts} {record : ContainerRecord} {w : World κ}
    (h : SourceReady src record w)
    (hlost : ¬ CommitLost client record.snapshotter (cloneBaseFor src) w) :
    SourceReady src record
      (after (cloneFrom client src dst dstName srcInfo opts record).run w) := by
  rw [cloneFrom, Prog.run_bind]
  rcases ensureCloneBase_run h hlost with ⟨w1, hr, hready, hbase⟩ | ⟨e, w1, hr, hready⟩
  · rw [after_bind_ok hr]
    exact prepareAndRecord_ready hready hbase
  · rw [after_bind_error hr]
    exact hready

/-! ## Successive clones -/

/-- A clone up to the record of its source. -/
def stopAndFetch (client : Client) (src : String) : Proc κ (ContainerInfo × ContainerRecord) := do
  let srcInfo ← call (inspectContainer client src)
  stopSource client src (srcInfo.task.any fun t => t.status = .running)
  let record ← call (fetchContainerRecord client src)
  return (srcInfo, record)

/-- A clone up to the return of `ensure_clone_base`. -/
def cloneToBase (client : Client) (src : String) : Proc κ Unit := do
  let (_, record) ← stopAndFetch client src
  ensureCloneBase client record.snapshotter record.snapshotKey (cloneBaseFor src)

theorem stopAndFetch_calm {client : Client} {src : String} :
    (stopAndFetch (κ := κ) client src).Steps Calm :=
  .bind (.atomic inspectContainer_keeps) fun _ => .bind stopSource_calm fun _ =>
    .bind (.atomic fetchContainerRecord_keeps) fun _ => trivial

/-- The record read is the one in the store. -/
theorem stopAndFetch_record {client : Client} {src : String} {w w' : World κ}
    {srcInfo : ContainerInfo}
    {record : ContainerRecord} (h : (stopAndFetch client src).run w = .ok (srcInfo, record) w') :
    w.containers.lookup src = some record := by
  simp only [stopAndFetch, call, Prog.run_bind, Prog.run_atomic] at h
  obtain ⟨info, w1, h1, h⟩ := bind_eq_ok h
  obtain ⟨_, w2, h2, h⟩ := bind_eq_ok h
  obtain ⟨found, w3, h3, h⟩ := bind_eq_ok h
  cases h
  rw [← (inspectContainer_keeps.ok h1).containers, ← (stopSource_calm.keeps.ok h2).containers]
  exact fetchContainerRecord_ok h3

/-- **A clone call** fails before it has the record and changes nothing, or goes on from there; a
restart of the source changes neither the outcome nor the store. -/
theorem cloneContainer_run (client : Client) (src dst dstName : String) (opts : CloneContainerOpts)
    (w : World κ) :
    (Fails (stopAndFetch client src).run w ∧
      ∃ e w', (cloneContainer client src dst dstName opts).run w = .error e w' ∧ Calm w w') ∨
    ∃ srcInfo record w₁, (stopAndFetch client src).run w = .ok (srcInfo, record) w₁ ∧
      (∀ r w', (cloneFrom client src dst dstName srcInfo opts record).run w₁ = .ok r w' →
        ∃ w'', (cloneContainer client src dst dstName opts).run w = .ok r w'' ∧ Calm w' w'') ∧
      (∀ e w', (cloneFrom client src dst dstName srcInfo opts record).run w₁ = .error e w' →
        ∃ w'', (cloneContainer client src dst dstName opts).run w = .error e w'' ∧
          Calm w' w'') := by
  simp only [cloneContainer, stopAndFetch, call, Prog.run_bind, Prog.run_atomic]
  cases h1 : inspectContainer client src w with
  | error e w1 =>
    exact .inl ⟨⟨e, w1, bind_error h1⟩, e, w1, bind_error h1, inspectContainer_keeps.error h1⟩
  | ok srcInfo w1 =>
    rw [bind_ok h1, bind_ok h1]
    have hs1 := inspectContainer_keeps.ok h1
    cases h2 : (stopSource client src (srcInfo.task.any fun t => t.status = .running)).run w1 with
    | error e w2 =>
      exact .inl ⟨⟨e, w2, (bind_ok h1).trans (bind_error h2)⟩, e, w2, bind_error h2,
        IsTrans.trans _ _ _ hs1 (stopSource_calm.keeps.error h2)⟩
    | ok _ w2 =>
      rw [bind_ok h2, bind_ok h2]
      have hs2 := IsTrans.trans _ _ _ hs1 (stopSource_calm.keeps.ok h2)
      have hrestart (w' : World κ) : ∃ w'', (Prog.atomic (restartSource client src
          ((srcInfo.task.any fun t => t.status = .running) && opts.restartSrc))).run w' =
            .ok () w'' ∧
          Calm w' w'' := by
        obtain ⟨w'', hr, -⟩ := restartSource_ok client src
          ((srcInfo.task.any fun t => t.status = .running) && opts.restartSrc) w'
        rw [Prog.run_atomic]
        exact ⟨w'', hr, restartSource_keeps.ok hr⟩
      cases h3 : fetchContainerRecord client src w2 with
      | error e w3 =>
        have hinner : (cloneInner client src dst dstName srcInfo opts).run w2 = .error e w3 := by
          rw [cloneInner, Prog.run_bind, call, Prog.run_atomic, bind_error h3]
        obtain ⟨w4, hr, hs4⟩ := hrestart w3
        refine .inl ⟨⟨e, w3, (bind_ok h1).trans ((bind_ok h2).trans (bind_error h3))⟩, e, w4,
          Prog.run_ensuring_error hinner hr, ?_⟩
        exact IsTrans.trans _ _ _
          (IsTrans.trans _ _ _ hs2 (fetchContainerRecord_keeps.error h3)) hs4
      | ok record w3 =>
        have hinner : (cloneInner client src dst dstName srcInfo opts).run w2 =
            (cloneFrom client src dst dstName srcInfo opts record).run w3 := by
          rw [cloneInner, Prog.run_bind, call, Prog.run_atomic, bind_ok h3]
        refine .inr ⟨srcInfo, record, w3, bind_ok h3, fun r w' hr => ?_, fun e w' hr => ?_⟩
        · obtain ⟨w4, hq, hs4⟩ := hrestart w'
          exact ⟨w4, Prog.run_ensuring_ok (hinner.trans hr) hq, hs4⟩
        · obtain ⟨w4, hq, hs4⟩ := hrestart w'
          exact ⟨w4, Prog.run_ensuring_error (hinner.trans hr) hq, hs4⟩

theorem cloneContainer_after (client : Client) (src dst dstName : String)
    (opts : CloneContainerOpts) (w : World κ) :
    (Fails (stopAndFetch client src).run w ∧
      Calm w (after (cloneContainer client src dst dstName opts).run w)) ∨
    ∃ srcInfo record w₁, (stopAndFetch client src).run w = .ok (srcInfo, record) w₁ ∧
      Calm (after (cloneFrom client src dst dstName srcInfo opts record).run w₁)
        (after (cloneContainer client src dst dstName opts).run w) := by
  rcases cloneContainer_run client src dst dstName opts w with
    ⟨hfails, e, w', hr, hs⟩ | ⟨srcInfo, record, w₁, hfetch, hok, herror⟩
  · rw [after_error hr]
    exact .inl ⟨hfails, hs⟩
  · refine .inr ⟨srcInfo, record, w₁, hfetch, ?_⟩
    cases hfrom : (cloneFrom client src dst dstName srcInfo opts record).run w₁ with
    | ok r w' =>
      obtain ⟨w'', hr, hs⟩ := hok r w' hfrom
      rwa [after_ok hfrom, after_ok hr]
    | error e w' =>
      obtain ⟨w'', hr, hs⟩ := herror e w' hfrom
      rwa [after_error hfrom, after_error hr]

/-- The frame of a clone, for the record its source has. -/
theorem cloneContainer_frame {R : World κ → World κ → Prop} [Std.Refl R] [IsTrans (World κ) R]
    {client : Client} {src dst dstName : String} {opts : CloneContainerOpts} {w : World κ}
    (hcalm : ∀ w w', Calm w w' → R w w')
    (h : ∀ srcInfo record, w.containers.lookup src = some record →
      (cloneFrom client src dst dstName srcInfo opts record).Steps R) :
    R w (after (cloneContainer client src dst dstName opts).run w) := by
  rcases cloneContainer_after client src dst dstName opts w with
    ⟨-, hsame⟩ | ⟨srcInfo, record, w₁, hrun, hsame⟩
  · exact hcalm _ _ hsame
  · have hfrom := (h srcInfo record (stopAndFetch_record hrun)).keeps w₁
    exact IsTrans.trans _ _ _ (hcalm _ _ (stopAndFetch_calm.keeps.ok hrun))
      (IsTrans.trans _ _ _ hfrom (hcalm _ _ hsame))

/-- The arguments of one call; `dst` is the generated id. -/
structure CloneCall where
  client : Client
  dst : String
  dstName : String
  opts : CloneContainerOpts := {}

/-- The store after a call, whatever its outcome. -/
def clone (src : String) (w : World κ) (c : CloneCall) : Option (World κ) :=
  some (after (cloneContainer c.client src c.dst c.dstName c.opts).run w)

/-- The call does not lose its commit. -/
def KeepsCommit (src : String) (w : World κ) (c : CloneCall) : Prop :=
  ∀ srcInfo record w₁, (stopAndFetch c.client src).run w = .ok (srcInfo, record) w₁ →
    ¬ CommitLost c.client record.snapshotter (cloneBaseFor src) w₁

theorem clone_ready {src : String} {record : ContainerRecord} {w w' : World κ} {c : CloneCall}
    (h : SourceReady src record w) (hkeep : KeepsCommit src w c) (hs : clone src w c = some w') :
    SourceReady src record w' := by
  cases hs
  rcases cloneContainer_after c.client src c.dst c.dstName c.opts w with
    ⟨-, hsame⟩ | ⟨srcInfo, found, w₁, hrun, hsame⟩
  · exact h.of_sameStore hsame.toSameStore
  · obtain rfl : found = record := Option.some.inj ((stopAndFetch_record hrun).symm.trans h.found)
    have hready := h.of_sameStore (stopAndFetch_calm.keeps.ok hrun).toSameStore
    exact (cloneFrom_ready hready (hkeep _ _ _ hrun)).of_sameStore hsame.toSameStore

/-- **The base over successive clones.** In every run of clone calls on one source, none
of which loses its commit, whenever `ensure_clone_base` returns `Ok` the base is committed
and the source's key is active. -/
theorem base_over_clones (src : String) (record : ContainerRecord) (w₀ : World κ)
    (hfound : w₀.containers.lookup src = some record)
    (hactive : Active w₀ record.snapshotter record.snapshotKey)
    (hbase : ∀ snap, w₀.snapshots.lookup (record.snapshotter, cloneBaseFor src) = some snap →
      snap.kind = .committed)
    (calls : List CloneCall) (hcalls : Along (clone src) (KeepsCommit src) w₀ calls) (w : World κ)
    (hrun : run (clone src) w₀ calls = some w) (c : CloneCall) (hc : KeepsCommit src w c)
    (w' : World κ) (hok : (cloneToBase c.client src).run w = .ok () w') :
    IsCommitted w' record.snapshotter (cloneBaseFor src) ∧
      Active w' record.snapshotter record.snapshotKey := by
  have hready : SourceReady src record w :=
    run_inv (fun w c w' h hk hs => clone_ready h hk hs) ⟨hfound, hactive, hbase⟩ hcalls hrun
  rw [cloneToBase, Prog.run_bind] at hok
  obtain ⟨⟨srcInfo, found⟩, w₁, hfetch, hensure⟩ := bind_eq_ok hok
  obtain rfl : found = record :=
    Option.some.inj ((stopAndFetch_record hfetch).symm.trans hready.found)
  have hready₁ := hready.of_sameStore (stopAndFetch_calm.keeps.ok hfetch).toSameStore
  rcases ensureCloneBase_run hready₁ (hc _ _ _ hfetch) with ⟨w₂, hr, hready₂, hcommitted⟩ |
    ⟨e, w₂, hr, -⟩
  · dsimp only at hensure
    rw [hr] at hensure
    cases hensure
    exact ⟨hcommitted, hready₂.active⟩
  · dsimp only at hensure
    rw [hr] at hensure
    cases hensure

/-! ## A source without a task -/

def sourceRecord : ContainerRecord :=
  { image := "mongo", snapshotter := "overlayfs", snapshotKey := "web-snapshot" }

def sourceWorld : World Unit where
  snapshots := (∅ : Snapshots Unit).insert ("overlayfs", "web-snapshot")
    { kind := .active, parent := "", labels := ∅, content := () }
  containers := (∅ : AList fun _ : String => ContainerRecord).insert "web" sourceRecord

/-- The sixth step, the second `Prepare` of a first clone, fails. -/
def flakyPrepare : Client where
  fault n := if n = 5 then some .unavailable else none

theorem sourceWorld_active : Active sourceWorld "overlayfs" "web-snapshot" :=
  ⟨_, AList.lookup_insert _, rfl⟩

/-- Without faults a second clone finds the base and the source in place. -/
theorem base_over_two_clones :
    ∃ w w', run (clone "web") sourceWorld [⟨{}, "c2", "copy", {}⟩] = some w ∧
    (cloneToBase {} "web").run w = .ok () w' ∧ IsCommitted w' "overlayfs" (cloneBaseFor "web") ∧
      Active w' "overlayfs" "web-snapshot" := by
  have hkeep : ∀ (w : World Unit) (c : CloneCall), c.client.fault = (fun _ => none) →
      KeepsCommit "web" w c := by
    rintro w c hc info record w₁ - ⟨-, -, hlost⟩
    rw [hc] at hlost
    rcases hlost with h | ⟨-, h⟩
    · cases h
    · exact h rfl
  obtain ⟨w', hok⟩ := ok_of_result (m := (cloneToBase {} "web").run)
    (s := after (cloneContainer {} "web" "c2" "copy" {}).run sourceWorld) (a := ())
      (by decide +kernel)
  refine ⟨_, w', rfl, hok, ?_⟩
  exact base_over_clones "web" sourceRecord sourceWorld (AList.lookup_insert _) sourceWorld_active
    (fun snap h => by cases h) [⟨{}, "c2", "copy", {}⟩] ⟨hkeep _ _ rfl, fun _ _ => trivial⟩ _ rfl
    ⟨{}, "c3", "copy2", {}⟩ (hkeep _ _ rfl) w' hok

/-- A retry after a failure between `Commit` and `Prepare` reports success, with the source gone. -/
theorem retry_leaves_source_gone :
    ¬ ∀ (src : String) (record : ContainerRecord) (w₀ : World Unit),
      w₀.containers.lookup src = some record → Active w₀ record.snapshotter record.snapshotKey →
      (∀ snap, w₀.snapshots.lookup (record.snapshotter, cloneBaseFor src) = some snap →
        snap.kind = .committed) →
      ∀ (calls : List CloneCall) (w : World Unit), run (clone src) w₀ calls = some w →
      ∀ (c : CloneCall) (w' : World Unit), (cloneToBase c.client src).run w = .ok () w' →
        IsCommitted w' record.snapshotter (cloneBaseFor src) ∧
          Active w' record.snapshotter record.snapshotKey := by
  intro h
  obtain ⟨w', hok⟩ := ok_of_result (m := (cloneToBase flakyPrepare "web").run)
    (s := after (cloneContainer flakyPrepare "web" "c2" "copy" {}).run sourceWorld) (a := ())
    (by decide +kernel)
  obtain ⟨-, snap, hsnap, -⟩ := h "web" sourceRecord sourceWorld (AList.lookup_insert _)
    sourceWorld_active (fun snap h => by cases h) [⟨flakyPrepare, "c2", "copy", {}⟩] _ rfl
    ⟨flakyPrepare, "c2", "copy", {}⟩ w' hok
  have hgone : (after (cloneToBase flakyPrepare "web").run
      (after (cloneContainer flakyPrepare "web" "c2" "copy" {}).run sourceWorld)).snapshots.lookup
        ("overlayfs", "web-snapshot") = none := by
    decide +kernel
  rw [after_ok hok] at hgone
  cases hgone.symm.trans hsnap

end ContainerdManager.Clone
