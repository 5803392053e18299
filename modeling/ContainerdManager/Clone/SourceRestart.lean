import ContainerdManager.Clone.Base

/-!
# Whether a stopped source is started again

`snapshot_container` and `clone_container` with the start of the source as a
parameter, to say that it is what they do last. A clone tries it whatever
its inner part came to; a snapshot has two ways out that pass it by:
`restart_attempted_iff`.
-/

namespace ContainerdManager.Clone

open Lib Containerd Container Snapshot ContainerdManager.Task

variable {κ : Type}

/-! ## The calls, by how they start the source -/

def restartWith (start : Op κ TaskId) (restart : Bool) : Op κ Unit :=
  if restart then do
    let _ ← attempt start
    return ()
  else pure ()

def commitSnapshotWith (start : Op κ TaskId) (client : Client) (name : String)
    (opts : SnapshotContainerOpts) (record : ContainerRecord) (wasRunning : Bool) : Op κ Unit := do
  let restart := wasRunning && opts.restartSrc
  match ← snapshotRequest client (.commit record.snapshotter name record.snapshotKey) fun snaps =>
      snaps.commit record.snapshotter name record.snapshotKey
        (snapshotLabels record.image opts.description) with
  | .error code => do
    restartWith start restart
    throw (if code = .alreadyExists then .snapshotAlreadyExists name
      else .containerd "snapshot_commit" code)
  | .ok () =>
    match ← snapshotRequest client
      (.prepare record.snapshotter record.snapshotKey name) fun snaps =>
        snaps.prepare record.snapshotter record.snapshotKey name ∅ with
    | .error code => do
      let _ ← snapshotRequest client (.remove record.snapshotter name) fun snaps =>
        snaps.remove record.snapshotter name
      throw (.containerd "snapshot_reprepare_src" code)
    | .ok () => restartWith start restart

def snapshotContainerWith (start : Op κ TaskId) (client : Client) (src name : String)
    (opts : SnapshotContainerOpts) : Op κ Unit := do
  let (record, wasRunning) ← stopForSnapshot client src name
  commitSnapshotWith start client name opts record wasRunning

def cloneContainerWith (start : Op κ TaskId) (client : Client) (src dst dstName : String)
    (opts : CloneContainerOpts) : Proc κ String := do
  let srcInfo ← call (inspectContainer client src)
  let wasRunning := srcInfo.task.any fun t => t.status = .running
  stopSource client src wasRunning
  (cloneInner client src dst dstName srcInfo opts).ensuring
    (call (restartWith start (wasRunning && opts.restartSrc)))

theorem snapshotContainerWith_startContainer (client : Client) (src name : String)
    (opts : SnapshotContainerOpts) :
    snapshotContainerWith (κ := κ) (startContainer client src) client
      src name opts = snapshotContainer client src name opts := rfl

theorem cloneContainerWith_startContainer (client : Client) (src dst dstName : String)
    (opts : CloneContainerOpts) :
    cloneContainerWith (κ := κ) (startContainer client src) client src dst
      dstName opts = cloneContainer client src dst dstName opts := rfl

/-! ## The source is stopped -/

/-- The source was running, and in `w'` it is stopped and its task deleted. -/
def StopsSource (client : Client) (src : String) (w w' : World κ) : Prop :=
  ∃ info w₁ w₂, inspectContainer client src w = .ok info w₁ ∧
    (info.task.any fun t => t.status = .running) = true ∧
    stopContainer client src snapshotOpStopTimeout w₁ = .ok () w₂ ∧
    retryDeleteTask client src snapshotOpStopTimeout w₂ = .ok () w'

theorem StopsSource.sameStore {client : Client} {src : String} {w w' : World κ}
    (h : StopsSource client src w w') : SameStore w w' := by
  obtain ⟨info, w₁, w₂, hinspect, -, hstop, hdelete⟩ := h
  exact IsTrans.trans _ _ _ (inspectContainer_keeps.ok hinspect).toSameStore (IsTrans.trans _ _ _
    (stopContainer_keeps.ok hstop).toSameStore ((retryDelete_keeps _).ok hdelete).toSameStore)

/-- The `Commit` of the source is accepted. -/
def CommitAccepted (client : Client) (name : String) (record : ContainerRecord) (w : World κ) :
    Prop :=
  client.fault w.steps = none ∧ w.snapshots.lookup (record.snapshotter, name) = none ∧
    ∃ snap, w.snapshots.lookup (record.snapshotter, record.snapshotKey) = some snap ∧
      snap.kind = .active

/-- The `Get` of the record is answered, and the `Prepare` behind an accepted `Commit`
does not fail. -/
def RestartReached (client : Client) (src name : String) (w : World κ) : Prop :=
  client.fault w.steps = none ∧ ∃ record, w.containers.lookup src = some record ∧
    (CommitAccepted client name record (w.advance client) → client.fault (w.steps + 2) = none)

theorem advance_ne (w : World κ) : w.advance {} ≠ w := by
  intro h
  have hsteps : w.steps + 1 = w.steps := congrArg World.steps h
  omega

theorem after_restartWith (start : Op κ TaskId) (w : World κ) :
    after (restartWith start true) w = after start w := by
  obtain ⟨r, hr⟩ := attempt_eq start w
  exact after_bind_ok hr

theorem after_restartWith_bind (start : Op κ TaskId) {f : Unit → Op κ Unit}
    (hf : ∀ w, after (f ()) w = w) (w : World κ) :
    after (restartWith start true >>= f) w = after start w := by
  obtain ⟨r, hr⟩ := attempt_eq start w
  have hrestart : restartWith start true w = .ok () (after start w) := bind_ok hr
  rw [after_bind_ok hrestart, hf]

/-! ## The snapshot -/

section Snapshot

variable {client : Client} {src name : String} {opts : SnapshotContainerOpts} {w : World κ}

/-- From the `Commit` on, only a failing `Prepare` leaves the source as it is. -/
theorem commitSnapshotWith_endsWith_iff (record : ContainerRecord)
    (hopts : opts.restartSrc = true) :
    EndsWith (fun start => commitSnapshotWith start client name opts record true) w ↔
      (CommitAccepted client name record w → client.fault (w.steps + 1) = none) := by
  unfold commitSnapshotWith
  simp only [hopts, Bool.and_self]
  rcases snapshotRequest_cases client (.commit record.snapshotter name record.snapshotKey)
    (fun snaps => snaps.commit record.snapshotter name record.snapshotKey
        (snapshotLabels record.image opts.description)) w with ⟨snaps, hf, hans, hr⟩ |
          ⟨code, hc, hr⟩
  · rw [endsWith_bind_ok hr]
    obtain ⟨hfree, snap, hsnap, hkind, rfl⟩ := Snapshots.commit_eq_ok hans
    have haccepted : CommitAccepted client name record w := ⟨hf, hfree, snap, hsnap, hkind⟩
    dsimp only
    rcases snapshotRequest_cases client (.prepare record.snapshotter record.snapshotKey name)
        (fun snaps => snaps.prepare record.snapshotter record.snapshotKey name ∅)
        { w.noted client (.commit record.snapshotter name record.snapshotKey) none with
          snapshots := w.snapshots.committed record.snapshotter name record.snapshotKey snap
            (snapshotLabels record.image opts.description) } with
      ⟨snaps, hf', -, hr'⟩ | ⟨code, hc, hr'⟩
    · rw [endsWith_bind_ok hr']
      exact iff_of_true ⟨_, fun start => after_restartWith start _⟩ fun _ => hf'
    · rw [endsWith_bind_ok hr']
      have hfault : client.fault (w.steps + 1) ≠ none := by
        rcases hc with hf' | ⟨-, hans'⟩
        · intro hnone
          cases hf'.symm.trans hnone
        · obtain ⟨snaps', hprep⟩ := Snapshots.prepare_committed hfree hsnap
            (snapshotLabels record.image opts.description) ∅
          cases hans'.symm.trans hprep
      dsimp only
      exact iff_of_false (not_endsWith (fun _ => rfl) (advance_ne _) ⟨"", 0⟩)
        fun h => hfault (h haccepted)
  · rw [endsWith_bind_ok hr]
    dsimp only
    refine iff_of_true ⟨_, fun start => after_restartWith_bind start (fun _ => rfl) _⟩
      fun haccepted => ?_
    -- an accepted commit is not refused
    obtain ⟨hf, hfree, snap, hsnap, hkind⟩ := haccepted
    rcases hc with hf' | ⟨-, hans⟩
    · cases hf'.symm.trans hf
    · cases hans.symm.trans (Snapshots.commit_of_free hfree hsnap hkind)

/-- The part before the `Commit`, when the source was running. -/
theorem stopForSnapshot_stopped {w' : World κ} (h : StopsSource client src w w')
    (hname : name ≠ "") :
    stopForSnapshot client src name w = (do
      let record ← fetchContainerRecord client src
      return (record, true) : Op κ (ContainerRecord × Bool)) w' := by
  obtain ⟨info, w₁, w₂, hinspect, hrunning, hstop, hdelete⟩ := h
  have hempty : name.isEmpty = false := by simpa using hname
  unfold stopForSnapshot
  rw [hempty]
  simp only [Bool.false_eq_true, if_false]
  rw [bind_ok hinspect]
  simp only [hrunning, if_true]
  rw [bind_ok hstop, bind_ok hdelete]

theorem snapshotContainerWith_endsWith_iff {w' : World κ} (h : StopsSource client src w w')
    (hname : name ≠ "") (hopts : opts.restartSrc = true) :
    EndsWith (fun start => snapshotContainerWith start client src name opts) w ↔
      RestartReached client src name w' := by
  have hstop := stopForSnapshot_stopped h hname
  unfold snapshotContainerWith RestartReached
  rcases fetchContainerRecord_cases client src w' with ⟨record, hf, hl, hr⟩ | ⟨e, code, hwhy, hr⟩
  · rw [bind_ok hr] at hstop
    rw [endsWith_bind_ok hstop]
    dsimp only
    rw [commitSnapshotWith_endsWith_iff record hopts]
    constructor
    · exact fun hprep => ⟨hf, record, hl, hprep⟩
    · rintro ⟨-, record', hl', hprep⟩
      cases hl.symm.trans hl'
      exact hprep
  · rw [bind_error hr] at hstop
    refine iff_of_false (not_endsWith_bind_error hstop (advance_ne _) ⟨src, 0⟩) ?_
    rintro ⟨hf, record, hl, -⟩
    rcases hwhy with hf' | hl'
    · exact hf' hf
    · cases hl.symm.trans hl'

end Snapshot

/-! ## The clone -/

/-- Whatever the inner part of a clone comes to, the source is started last. -/
theorem cloneContainerWith_endsWith {client : Client} {src dst dstName : String}
    {opts : CloneContainerOpts} {w w' : World κ} (h : StopsSource client src w w')
    (hopts : opts.restartSrc = true) :
    EndsWith (fun start => (cloneContainerWith start client src dst dstName opts).run) w := by
  obtain ⟨info, w₁, w₂, hinspect, hrunning, hstop, hdelete⟩ := h
  have hsource : (stopSource client src true).run w₁ = .ok () w' := by
    unfold stopSource
    simp only [if_true, call, Prog.run_bind, Prog.run_atomic]
    rw [bind_ok hstop]
    exact hdelete
  refine ⟨after (cloneInner client src dst dstName info opts).run w', fun start => ?_⟩
  simp only [cloneContainerWith, call, Prog.run_bind, Prog.run_atomic]
  rw [after_bind_ok hinspect, hrunning, hopts, after_bind_ok hsource, Prog.after_ensuring,
    Prog.run_atomic]
  exact after_restartWith start _

/-! ## All together -/

/-- **Whether a source that was running is started again.** Once its task is stopped and deleted, a
clone that is to restart it ends with the start, whatever fails; a snapshot does exactly if the
record is found and an accepted `Commit` is followed by an accepted `Prepare`. -/
theorem restart_attempted_iff (client : Client) (src dst dstName name : String)
    (cloneOpts : CloneContainerOpts) (snapshotOpts : SnapshotContainerOpts) (w w' : World κ)
    (hstopped : StopsSource client src w w') (hname : name ≠ "")
    (hclone : cloneOpts.restartSrc = true) (hsnapshot : snapshotOpts.restartSrc = true) :
    EndsWith (fun start => (cloneContainerWith start client src dst dstName cloneOpts).run) w ∧
    (EndsWith (fun start => snapshotContainerWith start client src name snapshotOpts) w ↔
      RestartReached client src name w') :=
  ⟨cloneContainerWith_endsWith hstopped hclone,
    snapshotContainerWith_endsWith_iff hstopped hname hsnapshot⟩

/-! ## A running source -/

/-- The part of both calls that stops a running source. -/
def stopRunning (client : Client) (src : String) : Op κ Bool := do
  let info ← inspectContainer client src
  if info.task.any fun t => t.status = .running then do
    stopContainer client src snapshotOpStopTimeout
    retryDeleteTask client src snapshotOpStopTimeout
    return true
  else return false

theorem stopsSource_of_stopRunning {client : Client} {src : String} {w : World κ}
    (h : (result (stopRunning client src) w).toOption = some true) :
    StopsSource client src w (after (stopRunning client src) w) := by
  obtain ⟨w', hr⟩ := ok_of_result h
  rw [after_ok hr]
  obtain ⟨info, w₁, hinspect, hr⟩ := bind_eq_ok hr
  split at hr
  · rename_i hrunning
    obtain ⟨_, w₂, hstop, hr⟩ := bind_eq_ok hr
    obtain ⟨_, w₃, hdelete, hr⟩ := bind_eq_ok hr
    cases hr
    exact ⟨info, w₁, w₂, hinspect, hrunning, hstop, hdelete⟩
  · cases hr

/-- The task of the source exits on the signal, the third request; step `n` fails. -/
def signalled (n : Option Nat) : Client where
  fault k := if n = some k then some .unavailable else none
  drift k tasks := if k = 3 then
    tasks.insert "web" { pid := 7, status := .stopped, exitStatus := 0 } else tasks

def runningWorld : World Unit :=
  { sourceWorld with
    tasks := (∅ : Tasks).insert "web" { pid := 7, status := .running, exitStatus := 0 } }

/-- The source is stopped after eight steps. -/
theorem signalled_stops (n : Option Nat) (h : n = none ∨ n = some 8 ∨ n = some 10) :
    ∃ w', StopsSource (signalled n) "web" runningWorld w' ∧ w'.steps = 8 := by
  refine ⟨_, stopsSource_of_stopRunning ?_, ?_⟩
  · rcases h with rfl | rfl | rfl <;> decide +kernel
  · rcases h with rfl | rfl | rfl <;> decide +kernel

theorem runningWorld_record {client : Client} {w' : World Unit}
    (h : StopsSource client "web" runningWorld w') :
    w'.containers.lookup "web" = some sourceRecord := by
  rw [h.sameStore.containers]
  exact AList.lookup_insert _

theorem runningWorld_accepts {n : Nat} {w' : World Unit}
    (h : StopsSource (signalled (some n)) "web" runningWorld w') (hn : n ≠ w'.steps + 1) :
    CommitAccepted (signalled (some n)) "v1" sourceRecord (w'.advance (signalled (some n))) := by
  have hsnaps : (w'.advance (signalled (some n))).snapshots = sourceWorld.snapshots :=
    h.sameStore.snapshots
  unfold CommitAccepted
  rw [hsnaps]
  refine ⟨if_neg fun he => hn (Option.some.inj he), rfl, _, AList.lookup_insert _, rfl⟩

theorem signalled_restarts :
    EndsWith (fun start => (cloneContainerWith start (signalled none) "web" "c2" "copy"
      { restartSrc := true }).run) runningWorld ∧
    EndsWith (fun start => snapshotContainerWith start (signalled none) "web" "v1"
      { restartSrc := true }) runningWorld := by
  obtain ⟨w', hstops, -⟩ := signalled_stops none (.inl rfl)
  obtain ⟨hclone, hsnapshot⟩ := restart_attempted_iff (signalled none) "web" "c2" "copy" "v1"
    { restartSrc := true } { restartSrc := true } runningWorld w' hstops (by decide) rfl rfl
  exact ⟨hclone, hsnapshot.mpr ⟨rfl, sourceRecord, runningWorld_record hstops, fun _ => rfl⟩⟩

/-- **Two ways out of a snapshot pass the restart by**: a failing `Get` behind the deletion of the
task, and a failing `Prepare` behind the `Commit`. -/
theorem restart_passed_by :
    (∃ w', StopsSource (signalled (some 8)) "web" runningWorld w' ∧
      ¬ EndsWith (fun start => snapshotContainerWith start (signalled (some 8)) "web" "v1"
        { restartSrc := true }) runningWorld) ∧
    ∃ w', StopsSource (signalled (some 10)) "web" runningWorld w' ∧
      ¬ EndsWith (fun start => snapshotContainerWith start (signalled (some 10)) "web" "v1"
        { restartSrc := true }) runningWorld := by
  constructor
  · obtain ⟨w', hstops, hsteps⟩ := signalled_stops (some 8) (.inr (.inl rfl))
    refine ⟨w', hstops, ?_⟩
    rw [snapshotContainerWith_endsWith_iff hstops (by decide) rfl]
    rintro ⟨hf, -⟩
    rw [hsteps] at hf
    cases hf
  · obtain ⟨w', hstops, hsteps⟩ := signalled_stops (some 10) (.inr (.inr rfl))
    refine ⟨w', hstops, ?_⟩
    rw [snapshotContainerWith_endsWith_iff hstops (by decide) rfl]
    rintro ⟨-, record, hl, hprep⟩
    cases (runningWorld_record hstops).symm.trans hl
    have hf := hprep (runningWorld_accepts hstops (by omega))
    rw [hsteps] at hf
    cases hf

end ContainerdManager.Clone
