import ContainerdManager.Task.Lifecycle

/-!
# Snapshotting a container

`snapshot_container` of `src/snapshot.rs`: stop the source, commit its
active snapshot under a name, prepare the active snapshot again on top, and
restart the source. `stopForSnapshot` is the part before the `Commit`,
`commitSnapshot` the rest. When the second `Prepare` fails, the rollback
removes the committed snapshot, which by then is the only one that holds
the source's writable layer.
-/

namespace ContainerdManager.Snapshot

open Lib Containerd ContainerdManager.Task

variable {κ : Type}

/-- Grace period of an operation that stops the source task. -/
def snapshotOpStopTimeout : Nat := 10000 * ms

def imageLabel : String := "containerd-manager.snapshot.image"

def managedLabel : String := "containerd-manager.snapshot.managed"

def descriptionLabel : String := "containerd-manager.snapshot.description"

structure SnapshotContainerOpts where
  restartSrc : Bool := false
  description : Option String := none
  deriving DecidableEq, Repr

/-- The labels of a named snapshot. -/
def snapshotLabels (image : String) (description : Option String) : Labels :=
  let labels := ((∅ : Labels).insert imageLabel image).insert managedLabel "1"
  match description with
  | some desc => labels.insert descriptionLabel desc
  | none => labels

/-- Up to the `Commit`: the source is stopped, its task deleted and its record read. -/
def stopForSnapshot (client : Client) (src name : String) : Op κ (ContainerRecord × Bool) :=
  if name.isEmpty then throw (.invalidArgument "snapshot name must not be empty")
  else do
    let srcInfo ← inspectContainer client src
    let wasRunning := srcInfo.task.any fun t => t.status = .running
    if wasRunning then do
      stopContainer client src snapshotOpStopTimeout
      retryDeleteTask client src snapshotOpStopTimeout
      let record ← fetchContainerRecord client src
      return (record, wasRunning)
    else do
      let record ← fetchContainerRecord client src
      return (record, wasRunning)

/-- A best-effort restart of the source. -/
def restartSource (client : Client) (src : String) (restart : Bool) : Op κ Unit :=
  if restart then do
    let _ ← attempt (startContainer client src)
    return ()
  else pure ()

/-- From the `Commit` on. -/
def commitSnapshot (client : Client) (src name : String) (opts : SnapshotContainerOpts)
    (record : ContainerRecord) (wasRunning : Bool) : Op κ Unit := do
  let restart := wasRunning && opts.restartSrc
  match ← snapshotRequest client (.commit record.snapshotter name record.snapshotKey) fun snaps =>
      snaps.commit record.snapshotter name record.snapshotKey
        (snapshotLabels record.image opts.description) with
  | .error code => do
    restartSource client src restart
    throw (if code = .alreadyExists then .snapshotAlreadyExists name
      else .containerd "snapshot_commit" code)
  | .ok () =>
    match ← snapshotRequest client
      (.prepare record.snapshotter record.snapshotKey name) fun snaps =>
        snaps.prepare record.snapshotter record.snapshotKey name ∅ with
    | .error code => do
      -- roll back the snapshot; the outcome is ignored
      let _ ← snapshotRequest client (.remove record.snapshotter name) fun snaps =>
        snaps.remove record.snapshotter name
      throw (.containerd "snapshot_reprepare_src" code)
    | .ok () => restartSource client src restart

def snapshotContainer (client : Client) (src name : String) (opts : SnapshotContainerOpts) :
    Op κ Unit := do
  let (record, wasRunning) ← stopForSnapshot client src name
  commitSnapshot client src name opts record wasRunning

/-! ## Up to the commit -/

theorem stopForSnapshot_keeps {client : Client} {src name : String} :
    Keeps Calm (stopForSnapshot (κ := κ) client src name) := by
  unfold stopForSnapshot
  split
  · exact .throw _
  · refine .bind inspectContainer_keeps fun info => ?_
    dsimp only
    split
    · exact .bind stopContainer_keeps fun _ => .bind (retryDelete_keeps _) fun _ =>
        .bind fetchContainerRecord_keeps fun _ => .pure _
    · exact .bind fetchContainerRecord_keeps fun _ => .pure _

/-- The record read is the one in the store. -/
theorem stopForSnapshot_record {client : Client} {src name : String} {w w' : World κ}
    {record : ContainerRecord} {wasRunning : Bool}
    (h : stopForSnapshot client src name w = .ok (record, wasRunning) w') :
    w.containers.lookup src = some record := by
  unfold stopForSnapshot at h
  split at h
  · cases h
  · obtain ⟨info, w1, h1, h⟩ := bind_eq_ok h
    dsimp only at h
    split at h
    · obtain ⟨_, w2, h2, h⟩ := bind_eq_ok h
      obtain ⟨_, w3, h3, h⟩ := bind_eq_ok h
      obtain ⟨found, w4, h4, h⟩ := bind_eq_ok h
      cases h
      rw [← (inspectContainer_keeps.ok h1).containers, ← (stopContainer_keeps.ok h2).containers,
        ← ((retryDelete_keeps _).ok h3).containers]
      exact fetchContainerRecord_ok h4
    · obtain ⟨found, w4, h4, h⟩ := bind_eq_ok h
      cases h
      rw [← (inspectContainer_keeps.ok h1).containers]
      exact fetchContainerRecord_ok h4

/-! ## Frames -/

theorem restartSource_keeps {client : Client} {src : String} {restart : Bool} :
    Keeps Calm (restartSource (κ := κ) client src restart) := by
  unfold restartSource
  split
  · exact .bind startContainer_keeps.attempt fun _ => .pure _
  · exact .pure _

section Frames

variable {R : World κ → World κ → Prop} [Std.Refl R] [IsTrans (World κ) R] {client : Client}
  {src name : String} {opts : SnapshotContainerOpts} (hcalm : ∀ w w', Calm w w' → R w w')

include hcalm

theorem commitSnapshot_frame {record : ContainerRecord} {wasRunning : Bool}
    (hcommit : Keeps R (snapshotRequest client
      (.commit record.snapshotter name record.snapshotKey) fun snaps =>
        snaps.commit record.snapshotter name record.snapshotKey
          (snapshotLabels record.image opts.description)))
    (hprep : Keeps R (snapshotRequest client
      (.prepare record.snapshotter record.snapshotKey name) fun snaps =>
        snaps.prepare record.snapshotter record.snapshotKey name ∅))
    (hremove : Keeps R (snapshotRequest client (.remove record.snapshotter name) fun snaps =>
      snaps.remove record.snapshotter name)) :
    Keeps R (commitSnapshot client src name opts record wasRunning) := by
  have hrestart (restart : Bool) : Keeps R (restartSource client src restart) :=
    fun w => hcalm _ _ (restartSource_keeps w)
  refine .bind hcommit fun committed => ?_
  cases committed with
  | error code => exact .bind (hrestart _) fun _ => .throw _
  | ok _ =>
    refine .bind hprep fun prepared => ?_
    cases prepared with
    | error code => exact .bind hremove fun _ => .throw _
    | ok _ => exact hrestart _

omit [Std.Refl R] in
/-- **The frame of a snapshot**: its part from the record on, in a world with the same store. -/
theorem snapshotContainer_frame {w : World κ}
    (h : ∀ record wasRunning w₁, w.containers.lookup src = some record → SameStore w w₁ →
      R w₁ (after (commitSnapshot client src name opts record wasRunning) w₁)) :
    R w (after (snapshotContainer client src name opts) w) := by
  unfold snapshotContainer
  cases hstop : stopForSnapshot client src name w with
  | error e w₁ =>
    rw [after_bind_error hstop]
    exact hcalm _ _ (stopForSnapshot_keeps.error hstop)
  | ok found w₁ =>
    have hw₁ := stopForSnapshot_keeps.ok hstop
    rw [after_bind_ok hstop]
    exact IsTrans.trans _ _ _ (hcalm _ _ hw₁)
      (h found.1 found.2 w₁ (stopForSnapshot_record hstop) hw₁.toSameStore)

end Frames

/-! ## From the commit on -/

/-- With the store `snaps` and the `Commit` as the `n`-th step, the `Commit` goes through, the
second `Prepare` fails and the rollback removes the only committed snapshot with the content `x`. -/
structure RollbackDestroys (client : Client) (name : String) (record : ContainerRecord)
    (snaps : Snapshots κ) (x : κ) (n : Nat) : Prop where
  committed : client.fault n = none
  free : snaps.lookup (record.snapshotter, name) = none
  notPrepared : client.fault (n + 1) ≠ none
  removed : client.fault (n + 2) = none
  childless : ¬ snaps.HasChild record.snapshotter name
  only : ¬ snaps.Committed x

/-- A best-effort restart never fails. -/
theorem restartSource_ok (client : Client) (src : String) (restart : Bool) (w : World κ) :
    ∃ w', restartSource client src restart w = .ok () w' ∧ SameStore w w' := by
  unfold restartSource
  split
  · obtain ⟨r, ha⟩ := attempt_eq (startContainer (κ := κ) client src) w
    exact ⟨_, bind_ok ha, (startContainer_keeps w).toSameStore⟩
  · exact ⟨w, rfl, ⟨rfl, rfl⟩⟩

section Commit

variable {client : Client} (src : String) {name : String} {opts : SnapshotContainerOpts}
  {record : ContainerRecord} (wasRunning : Bool) {w : World κ} {snap : Snapshot κ}

theorem commitOutcome_error {code : Code} (h : snapshotOutcome client (fun snaps =>
      snaps.commit record.snapshotter name record.snapshotKey
        (snapshotLabels record.image opts.description)) w = .error code) :
    ∃ e w', commitSnapshot client src name opts record wasRunning w = .error e w' ∧
      SameStore w w' := by
  obtain ⟨w1, h1, hs1, -⟩ := snapshotRequest_error
    (.commit record.snapshotter name record.snapshotKey) h
  obtain ⟨w2, h2, hs2⟩ := restartSource_ok client src (wasRunning && opts.restartSrc) w1
  refine ⟨_, w2, (bind_ok h1).trans ((bind_ok h2).trans rfl), IsTrans.trans _ _ _ hs1 hs2⟩

/-- A name that is taken fails the `Commit`, and what follows is calm. -/
theorem commitSnapshot_taken (client : Client) (opts : SnapshotContainerOpts)
    (htaken : w.snapshots.lookup (record.snapshotter, name) = some snap) :
    ∃ code e w', commitSnapshot client src name opts record wasRunning w = .error e w' ∧
      Calm (w.noted client (.commit record.snapshotter name record.snapshotKey) (some code))
        w' := by
  rcases snapshotRequest_cases client (.commit record.snapshotter name record.snapshotKey)
      (fun snaps => snaps.commit record.snapshotter name record.snapshotKey
        (snapshotLabels record.image opts.description)) w with
    ⟨snaps, -, hans, -⟩ | ⟨code, -, hr⟩
  · obtain ⟨hfree, -⟩ := Snapshots.commit_eq_ok hans
    cases hfree.symm.trans htaken
  · obtain ⟨w2, h2, -⟩ :=
      restartSource_ok client src (wasRunning && opts.restartSrc) (w.noted client
      (.commit record.snapshotter name record.snapshotKey) (some code))
    exact ⟨code, _, w2, (bind_ok hr).trans ((bind_ok h2).trans rfl), restartSource_keeps.ok h2⟩

/-- When the `Commit` and the second `Prepare` go through, the operation succeeds. -/
theorem commitSnapshot_ok {snaps snaps' : Snapshots κ} (hc : snapshotOutcome client (fun snaps =>
      snaps.commit record.snapshotter name record.snapshotKey
        (snapshotLabels record.image opts.description)) w = .ok snaps)
    (hp : client.fault (w.steps + 1) = none)
    (hprep : snaps.prepare record.snapshotter record.snapshotKey name ∅ = .ok snaps') :
    ∃ w', commitSnapshot client src name opts record wasRunning w = .ok () w' := by
  obtain ⟨w1, h1, hw1, -, hst1⟩ := snapshotRequest_ok
    (.commit record.snapshotter name record.snapshotKey) hc
  have ho : snapshotOutcome client (fun snaps =>
      snaps.prepare record.snapshotter record.snapshotKey name ∅) w1 = .ok snaps' := by
    rw [snapshotOutcome, hst1, hp, hw1]
    exact hprep
  obtain ⟨w2, h2, -⟩ := snapshotRequest_ok
    (.prepare record.snapshotter record.snapshotKey name) ho
  obtain ⟨w3, h3, -⟩ := restartSource_ok client src (wasRunning && opts.restartSrc) w2
  exact ⟨w3, (bind_ok h1).trans ((bind_ok h2).trans h3)⟩

/-- When the second `Prepare` fails, the store is left to the rollback. -/
theorem commitSnapshot_rollback {snaps : Snapshots κ} {code : Code}
    (hc : snapshotOutcome client (fun snaps =>
      snaps.commit record.snapshotter name record.snapshotKey
        (snapshotLabels record.image opts.description)) w = .ok snaps)
    (hp : client.fault (w.steps + 1) = some code) :
    ∃ e w', commitSnapshot client src name opts record wasRunning w = .error e w' ∧
      w'.snapshots =
        match client.fault (w.steps + 2), snaps.remove record.snapshotter name with
        | none, .ok removed => removed
        | _, _ => snaps := by
  obtain ⟨w1, h1, hw1, -, hst1⟩ := snapshotRequest_ok
    (.commit record.snapshotter name record.snapshotKey) hc
  have ho : snapshotOutcome client (fun snaps =>
      snaps.prepare record.snapshotter record.snapshotKey name ∅) w1 = .error code := by
    rw [snapshotOutcome, hst1, hp]
  obtain ⟨w2, h2, hs2, hst2⟩ := snapshotRequest_error
    (.prepare record.snapshotter record.snapshotKey name) ho
  have hw2 : w2.snapshots = snaps := hs2.snapshots.trans hw1
  have hst : w2.steps = w.steps + 2 := by omega
  cases hr : snapshotOutcome client (fun snaps => snaps.remove record.snapshotter name) w2 with
  | error code' =>
    obtain ⟨w3, h3, hs3, -⟩ := snapshotRequest_error (.remove record.snapshotter name) hr
    refine ⟨_, w3, (bind_ok h1).trans ((bind_ok h2).trans ((bind_ok h3).trans rfl)), ?_⟩
    rw [hs3.snapshots, hw2]
    rw [snapshotOutcome, hst, hw2] at hr
    split
    · rename_i hf hrem
      rw [hf, hrem] at hr
      cases hr
    · rfl
  | ok removed =>
    obtain ⟨w3, h3, hw3, -, -⟩ := snapshotRequest_ok (.remove record.snapshotter name) hr
    refine ⟨_, w3, (bind_ok h1).trans ((bind_ok h2).trans ((bind_ok h3).trans rfl)), ?_⟩
    rw [snapshotOutcome, hst, hw2] at hr
    rw [hw3]
    cases hf : client.fault (w.steps + 2) with
    | some code' => rw [hf] at hr; cases hr
    | none =>
      rw [hf] at hr
      have hrem : snaps.remove record.snapshotter name = .ok removed := hr
      rw [hrem]

theorem commitOutcome_ok
    (hsnap : w.snapshots.lookup (record.snapshotter, record.snapshotKey) = some snap)
    (hkind : snap.kind = .active) {labels : Labels} {snaps : Snapshots κ}
    (h : snapshotOutcome client (fun snaps =>
      snaps.commit record.snapshotter name record.snapshotKey labels) w = .ok snaps) :
    client.fault w.steps = none ∧ w.snapshots.lookup (record.snapshotter, name) = none ∧
      snaps = w.snapshots.committed record.snapshotter name record.snapshotKey snap labels := by
  unfold snapshotOutcome at h
  cases hf : client.fault w.steps with
  | some code => rw [hf] at h; cases h
  | none =>
    rw [hf] at h
    have hc : w.snapshots.commit record.snapshotter name record.snapshotKey labels = .ok snaps := h
    cases hn : w.snapshots.lookup (record.snapshotter, name) with
    | some other => simp [Snapshots.commit, hn] at hc
    | none =>
      rw [Snapshots.commit_of_free hn hsnap hkind] at hc
      cases hc
      exact ⟨rfl, rfl, rfl⟩

/-- The rollback, by the outcome of its `Remove`. -/
theorem rollback_holds_iff {labels : Labels} {snaps : Snapshots κ}
    (hsnap : w.snapshots.lookup (record.snapshotter, record.snapshotKey) = some snap)
    (hkind : snap.kind = .active) (hf : client.fault w.steps = none)
    (hname : w.snapshots.lookup (record.snapshotter, name) = none)
    (hp : client.fault (w.steps + 1) ≠ none)
    (hsnaps : snaps =
      match client.fault (w.steps + 2), (w.snapshots.committed record.snapshotter name
          record.snapshotKey snap labels).remove record.snapshotter name with
      | none, .ok removed => removed
      | _, _ => w.snapshots.committed record.snapshotter name record.snapshotKey snap labels) :
    snaps.Holds (record.snapshotter, record.snapshotKey) snap.content ↔
      ¬ RollbackDestroys client name record w.snapshots snap.content w.steps := by
  rw [Snapshots.remove_committed hname hsnap] at hsnaps
  cases hr : client.fault (w.steps + 2) with
  | some code =>
    rw [hr] at hsnaps
    subst hsnaps
    constructor
    · intro _ hd
      have hnone := hd.removed
      rw [hr] at hnone
      cases hnone
    · exact fun _ => Snapshots.holds_committed _
  | none =>
    by_cases hchild : w.snapshots.HasChild record.snapshotter name
    · rw [hr, if_pos hchild] at hsnaps
      subst hsnaps
      exact ⟨fun _ hd => hd.childless hchild, fun _ => Snapshots.holds_committed _⟩
    · rw [hr, if_neg hchild] at hsnaps
      subst hsnaps
      rw [Snapshots.holds_rolledBack hname hsnap hkind]
      constructor
      · exact fun h hd => hd.only h
      · intro hd
        by_contra honly
        exact hd ⟨hf, hname, hp, hr, hchild, honly⟩

/-- **Whether the writable layer survives a failure from the commit on.** -/
theorem commitSnapshot_holds_iff
    (hsnap : w.snapshots.lookup (record.snapshotter, record.snapshotKey) = some snap)
    (hkind : snap.kind = .active) :
    (∀ e w', commitSnapshot client src name opts record wasRunning w = .error e w' →
        w'.snapshots.Holds (record.snapshotter, record.snapshotKey) snap.content) ↔
      ¬ RollbackDestroys client name record w.snapshots snap.content w.steps := by
  cases hc : snapshotOutcome client (fun snaps =>
      snaps.commit record.snapshotter name record.snapshotKey
        (snapshotLabels record.image opts.description)) w with
  | error code =>
    obtain ⟨e, w', hrun, hs⟩ := commitOutcome_error src wasRunning hc
    rw [forall_error_of_error hrun]
    constructor
    · intro _ hd
      rw [snapshotOutcome, hd.committed] at hc
      rw [show Snapshots.commit _ _ _ _ _ = .ok _ from
        Snapshots.commit_of_free hd.free hsnap hkind] at hc
      cases hc
    · exact fun _ => .inl ⟨snap, by rw [hs.snapshots]; exact hsnap, hkind, rfl⟩
  | ok snaps =>
    obtain ⟨hf, hname, rfl⟩ := commitOutcome_ok hsnap hkind hc
    cases hp : client.fault (w.steps + 1) with
    | none =>
      obtain ⟨snaps', hprep⟩ := Snapshots.prepare_committed hname hsnap
        (snapshotLabels record.image opts.description) ∅
      obtain ⟨w', hrun⟩ := commitSnapshot_ok src wasRunning hc hp hprep
      exact ⟨fun _ hd => hd.notPrepared hp, fun _ => forall_error_of_ok hrun⟩
    | some code =>
      obtain ⟨e, w', hrun, hw'⟩ := commitSnapshot_rollback src wasRunning hc hp
      rw [forall_error_of_error hrun]
      exact rollback_holds_iff hsnap hkind hf hname (by simp [hp]) hw'

end Commit

/-- **When a failed snapshot keeps the source's writable layer**: for every store in which the
source's active snapshot has some content and every outcome of the requests, a failing
`snapshot_container` leaves that content in the store if and only if the `Commit`, when it is
reached, is not followed by a failing `Prepare` and a `Remove` of its only holder. -/
theorem snapshotContainer_holds_iff (client : Client) (src name : String)
    (opts : SnapshotContainerOpts) (w : World κ) (record : ContainerRecord) (snap : Snapshot κ)
    (hrec : w.containers.lookup src = some record)
    (hsnap : w.snapshots.lookup (record.snapshotter, record.snapshotKey) = some snap)
    (hkind : snap.kind = .active) :
    (∀ e w', snapshotContainer client src name opts w = .error e w' →
        w'.snapshots.Holds (record.snapshotter, record.snapshotKey) snap.content) ↔
      ∀ wasRunning w1, stopForSnapshot client src name w = .ok (record, wasRunning) w1 →
        ¬ RollbackDestroys client name record w.snapshots snap.content w1.steps := by
  have hkeeps : Keeps Calm (stopForSnapshot client src name) := stopForSnapshot_keeps (κ := κ)
  cases hstop : stopForSnapshot client src name w with
  | error e w1 =>
    have hrun : snapshotContainer client src name opts w = .error e w1 := bind_error hstop
    rw [forall_error_of_error hrun]
    constructor
    · intro _ wasRunning w' h
      cases h
    · exact fun _ => .inl ⟨snap, by rw [(hkeeps.error hstop).snapshots]; exact hsnap, hkind, rfl⟩
  | ok p w1 =>
    obtain ⟨record', wasRunning⟩ := p
    obtain rfl : record' = record :=
      Option.some.inj ((stopForSnapshot_record hstop).symm.trans hrec)
    have hrun : snapshotContainer client src name opts w =
        commitSnapshot client src name opts record' wasRunning w1 := bind_ok hstop
    rw [hrun, commitSnapshot_holds_iff src wasRunning
      (by rw [(hkeeps.ok hstop).snapshots]; exact hsnap) hkind,
      (hkeeps.ok hstop).snapshots]
    constructor
    · rintro h _ _ ⟨⟩
      exact h
    · exact fun h => h _ _ rfl

/-! ## A source without a task -/

def webRecord : ContainerRecord :=
  { image := "nginx", snapshotter := "overlayfs", snapshotKey := "web" }

def webLayer : Snapshot Nat :=
  { kind := .active, parent := "", labels := ∅, content := 7 }

/-- One container, its active snapshot and no task. -/
def webWorld : World Nat where
  snapshots := (∅ : Snapshots Nat).insert ("overlayfs", "web") webLayer
  containers := (∅ : AList fun _ : String => ContainerRecord).insert "web" webRecord

/-- Containerd goes away with the second `Prepare`. -/
def goneClient : Client where
  fault n := if 4 ≤ n then some .unavailable else none

/-- Only the second `Prepare` fails. -/
def flakyClient : Client where
  fault n := if n = 4 then some .unavailable else none

/-- A rollback that fails too leaves the layer in the committed snapshot. -/
theorem snapshotContainer_gone :
    webWorld.containers.lookup "web" = some webRecord ∧
      webWorld.snapshots.lookup ("overlayfs", "web") = some webLayer ∧
      ∀ e w', snapshotContainer goneClient "web" "v1" {} webWorld = .error e w' →
        w'.snapshots.Holds ("overlayfs", "web") 7 := by
  have hrec : webWorld.containers.lookup "web" = some webRecord := AList.lookup_insert _
  have hsnap : webWorld.snapshots.lookup ("overlayfs", "web") = some webLayer :=
    AList.lookup_insert _
  refine ⟨hrec, hsnap, ?_⟩
  refine (snapshotContainer_holds_iff goneClient "web" "v1" {} webWorld webRecord webLayer
    hrec hsnap rfl).2 fun _ w1 _ hd => ?_
  have hnot := hd.notPrepared
  have hrem := hd.removed
  simp only [goneClient, ne_eq, ite_eq_right_iff, reduceCtorEq, imp_false, not_le]
    at hnot hrem
  omega

/-- The failing run and what it leaves in the store. -/
theorem flaky_run :
    (match snapshotContainer flakyClient "web" "v1" {} webWorld with
      | .error _ w' => w'.snapshots.entries.isEmpty
      | .ok _ _ => false) = true := by
  decide +kernel

/-- The rollback deletes the only snapshot with the source's writable layer. -/
theorem snapshotContainer_destroys :
    webWorld.containers.lookup "web" = some webRecord ∧
      webWorld.snapshots.lookup ("overlayfs", "web") = some webLayer ∧ webLayer.kind = .active ∧
      ¬ ∀ e w', snapshotContainer flakyClient "web" "v1" {} webWorld = .error e w' →
        w'.snapshots.Holds ("overlayfs", "web") webLayer.content := by
  refine ⟨AList.lookup_insert _, AList.lookup_insert _, rfl, fun h => ?_⟩
  have hrun := flaky_run
  cases hres : snapshotContainer flakyClient "web" "v1" {} webWorld with
  | ok _ w' => rw [hres] at hrun; cases hrun
  | error e w' =>
    rw [hres] at hrun
    have hempty : w'.snapshots.entries = [] := List.isEmpty_iff.mp hrun
    have hnone (loc) : w'.snapshots.lookup loc = none := by
      rw [AList.lookup, hempty]
      rfl
    rcases h e w' hres with ⟨snap, hl, -⟩ | ⟨loc, snap, hl, -⟩
    · rw [hnone] at hl; cases hl
    · rw [hnone] at hl; cases hl

end ContainerdManager.Snapshot
