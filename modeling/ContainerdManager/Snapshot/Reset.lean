import ContainerdManager.Client.Registries
import ContainerdManager.Clone.LiveCommit
import ContainerdManager.Snapshot.Restore
import ContainerdManager.Task.StopReplies

/-!
# Resetting again

`reset_to_snapshot` removes the active snapshot of its container before it
prepares the new one, so that a call which fails can leave the container with
none. `Resettable` is what every step of a reset keeps; in a state that has
it a call without faults gets through. The port forwards are here as well: a
reset is a computation on the world and the registers clients share.
-/

namespace ContainerdManager.Snapshot

open Lib Containerd Container Clone ContainerdManager.Task

variable {κ α : Type}

/-! ## The phases -/

/-- The record, once the named snapshot is known to be of its image. -/
def resetTarget (client : Client) (id name : String) : Op κ ContainerRecord := do
  let record ← fetchContainerRecord client id
  let image ← statManagedSnapshot client record.snapshotter name
  if image ≠ record.image then
    throw (.invalidArgument
      ("snapshot image '" ++ image ++ "' does not match container image '" ++
      record.image ++ "'"))
  else return record

/-- A stop that fails is taken for one of a stopped task. -/
def dropTask (client : Client) (id : String) : Op κ Unit := do
  let _ ← attempt (stopContainer client id snapshotOpStopTimeout)
  retryDeleteTask client id snapshotOpStopTimeout

def restartAfter (client : Client) (id : String) (opts : ResetToSnapshotOpts) : Op κ Unit :=
  if opts.restart then do
    let _ ← startContainer client id
    return ()
  else pure ()

theorem resetToSnapshot_eq (client : Client) (id : String) {name : String} (hname : name ≠ "")
    (opts : ResetToSnapshotOpts) :
    resetToSnapshot (κ := κ) client id name opts = (do
      let record ← resetTarget client id name
      dropTask client id
      replaceActive client record.snapshotter record.snapshotKey name
      restartAfter client id opts) := by
  have hempty : name.isEmpty = false := by simpa using hname
  funext w
  unfold resetToSnapshot resetTarget
  rw [hempty]
  simp only [Bool.false_eq_true, if_false, bind_assoc]
  cases hfetch : fetchContainerRecord client id w with
  | error e w₁ => rw [bind_error hfetch, bind_error hfetch]
  | ok record w₁ =>
    rw [bind_ok hfetch, bind_ok hfetch]
    cases hstat : statManagedSnapshot client record.snapshotter name w₁ with
    | error e w₂ => rw [bind_error hstat, bind_error hstat]
    | ok image w₂ =>
      rw [bind_ok hstat, bind_ok hstat]
      split
      · rfl
      · show _ = (dropTask client id >>= fun _ =>
          replaceActive client record.snapshotter record.snapshotKey name >>= fun _ =>
            restartAfter client id opts) w₂
        rw [dropTask, bind_assoc]
        rfl

/-! ## With the forwards -/

def onWorld (m : Op κ α) : EStateM Error (World κ × Registry.Registries) α :=
  Prog.lift Prod.fst (fun s w => (w, s.2)) m

def onRegistries (m : Registry.RegistryM α) : EStateM Error (World κ × Registry.Registries) α :=
  Prog.lift Prod.snd (fun s reg => (s.1, reg)) m

/-- `reset_to_snapshot` with the forwards it stops. -/
def resetWithForwards (client : Client) (id name : String) (opts : ResetToSnapshotOpts) :
    EStateM Error (World κ × Registry.Registries) Unit :=
  if name.isEmpty then throw (.invalidArgument "snapshot name must not be empty")
  else do
    let record ← onWorld (resetTarget client id name)
    onWorld (dropTask client id)
    onRegistries (Registry.stopManagedForwards id)
    onWorld (replaceActive client record.snapshotter record.snapshotKey name)
    onWorld (restartAfter client id opts)

section OnWorld

variable {m : Op κ α} {w w' : World κ} (reg : Registry.Registries)

theorem onWorld_ok {a : α} (h : m w = .ok a w') : onWorld m (w, reg) = .ok a (w', reg) := by
  simp only [onWorld, Prog.lift, h]

theorem onWorld_error {e : Error} (h : m w = .error e w') :
    onWorld m (w, reg) = .error e (w', reg) := by
  simp only [onWorld, Prog.lift, h]

end OnWorld

/-- The forwards change nothing but the registers. -/
theorem resetWithForwards_tracks (client : Client) (id name : String)
    (opts : ResetToSnapshotOpts) :
    Prog.Tracks Prod.fst (resetWithForwards (κ := κ) client id name opts)
      (resetToSnapshot client id name opts) := by
  by_cases hname : name = ""
  · subst hname
    exact fun _ => ⟨rfl, rfl⟩
  have hempty : name.isEmpty = false := by simpa using hname
  have hworld {β : Type} (m : Op κ β) : Prog.Tracks Prod.fst (onWorld m) m :=
    .lift (fun _ _ => rfl) m
  have hforwards : Prog.Tracks Prod.fst (onRegistries (κ := κ) (Registry.stopManagedForwards id))
      (pure ()) := fun _ => ⟨rfl, rfl⟩
  rw [resetToSnapshot_eq client id hname, resetWithForwards, hempty]
  simp only [Bool.false_eq_true, if_false]
  refine (hworld _).bind fun record => (hworld _).bind fun _ => ?_
  exact hforwards.bind fun _ => (hworld _).bind fun _ => hworld _

/-! ## What is reset -/

/-- The record of `id`, and a named snapshot of its image. -/
structure Target (id name : String) (record : ContainerRecord) (w : World κ) : Prop where
  named : name ≠ ""
  found : w.containers.lookup id = some record
  snapshot : ∃ snap, w.snapshots.lookup (record.snapshotter, name) = some snap ∧
    NamesImage snap record.image

section Target

variable (client : Client) (id : String) {name : String} (w : World κ)

/-- **What the checks of a reset can do**: they look, and find the target or fail. -/
theorem resetTarget_cases (hname : name ≠ "") :
    (∃ record w', Target id name record w ∧ resetTarget client id name w = .ok record w' ∧
      Later client id 2 [] w w') ∨
    (∃ e w' n, (client.fault w.steps ≠ none ∨ client.fault (w.steps + 1) ≠ none ∨
        ∀ record, ¬ Target id name record w) ∧
      resetTarget client id name w = .error e w' ∧ Later client id n [] w w') := by
  unfold resetTarget
  rcases fetchContainerRecord_cases client id w with ⟨record, -, hl, hr⟩ | ⟨e, code, hwhy, hr⟩
  · have h1 := (Later.refl client id w).noted (.getContainer id) none
    rw [bind_ok hr]
    rcases statManagedSnapshot_cases client record.snapshotter name
        (w.noted client (.getContainer id) none) with
      ⟨snap, image, hsnap, hnames, hr⟩ | ⟨e, r, hwhy, hr⟩
    · rw [bind_ok hr]
      by_cases himage : image = record.image
      · rw [if_neg (by simpa using himage)]
        exact .inl ⟨record, _, ⟨hname, hl, snap, hsnap, himage ▸ hnames⟩, rfl, h1.noted _ _⟩
      · rw [if_pos himage]
        refine .inr ⟨_, _, 2, .inr (.inr fun record' h => ?_), rfl, h1.noted _ _⟩
        -- another image than the one found
        cases hl.symm.trans h.found
        obtain ⟨snap', hsnap', hnames'⟩ := h.snapshot
        cases hsnap.symm.trans hsnap'
        exact himage (Option.some.inj (hnames.2.symm.trans hnames'.2))
    · refine .inr ⟨e, _, 2, ?_, bind_error hr, h1.noted _ _⟩
      rcases hwhy with hf | hnone
      · exact .inr (.inl hf)
      · refine .inr (.inr fun record' h => ?_)
        cases hl.symm.trans h.found
        obtain ⟨snap, hsnap, hnames⟩ := h.snapshot
        exact hnone snap _ hsnap hnames
  · refine .inr ⟨e, _, 1, ?_, bind_error hr, (Later.refl client id w).noted _ _⟩
    rcases hwhy with hf | hnone
    · exact .inl hf
    · refine .inr (.inr fun record h => ?_)
      cases hnone.symm.trans h.found

/-- **A reset of nothing that can be reset** fails and changes nothing. -/
theorem resetWithForwards_refused (opts : ResetToSnapshotOpts) (reg : Registry.Registries)
    (h : ∀ record, ¬ Target id name record w) :
    ∃ e w' n, resetWithForwards client id name opts (w, reg) = .error e (w', reg) ∧
      Later client id n [] w w' := by
  unfold resetWithForwards
  by_cases hname : name = ""
  · subst hname
    exact ⟨_, w, 0, rfl, .refl client id w⟩
  have hempty : name.isEmpty = false := by simpa using hname
  rw [hempty]
  simp only [Bool.false_eq_true, if_false]
  rcases resetTarget_cases client id w hname with ⟨record, w', htarget, -⟩ | ⟨e, w', n, -, hr, hl⟩
  · exact absurd htarget (h record)
  · exact ⟨e, w', n, bind_error (onWorld_error reg hr), hl⟩

end Target

/-! ## The task -/

/-- Nobody else starts a task of the container. -/
def Unstarted (client : Client) (id : String) : Prop :=
  ∀ n tasks, tasks.lookup id = none → (client.drift n tasks).lookup id = none

/-- `tasks.Delete` finds no task, or one it takes. -/
def Deletable (id : String) (tasks : Tasks) : Prop :=
  ∀ process, tasks.lookup id = some process →
    process.status = .stopped ∨ process.status = .created

/-- The attempts `retry_delete_task` makes behind the first. -/
def deleteRetries : Nat := (snapshotOpStopTimeout + 50 * ms - 1) / (50 * ms)

/-- The task, if there is one, has stopped when one of the attempts to delete it is made,
and the deadline has not passed before. -/
def StopsInTime (client : Client) (id : String) (w : World κ) : Prop :=
  ∃ k ≤ deleteRetries, (∀ j < k, client.late (w.steps + 2 * j + 1) = false) ∧
    Deletable id (tasksAt client w (2 * k + 1))

/-- Steps are counted up. -/
def Forward (w w' : World κ) : Prop := w.steps ≤ w'.steps

instance : Std.Refl (Forward (κ := κ)) := ⟨fun _ => Nat.le_refl _⟩

instance : IsTrans (World κ) Forward := ⟨fun _ _ _ h h' => Nat.le_trans h h'⟩

section Task

variable {client : Client} {id : String} {w w' : World κ}

/-- The tasks later on, seen from a later world. -/
theorem tasksAt_later {n : Nat} {emptied : List Logs.LogStream} (h : Later client id n emptied w w')
    (m : Nat) : tasksAt client w' m = tasksAt client w (n + m) := by
  induction m with
  | zero => exact h.tasks
  | succ m ih =>
    rw [← Nat.add_assoc]
    simp only [tasksAt]
    rw [ih, h.steps, Nat.add_assoc]

theorem deleteTask_cases (id : String) (hfaults : ∀ n, client.fault n = none) (w : World κ) :
    (Deletable id (tasksAt client w 1) ∧ ∃ w', deleteTask client id w = .ok () w') ∨
    (¬ Deletable id (tasksAt client w 1) ∧ ∃ w', Later client id 1 [] w w' ∧
      deleteTask client id w = .error (.containerd "delete_task" .failedPrecondition) w') := by
  have hrequest := taskRequest_cases client (.deleteTask id) (deleteAnswer id) w
  have htasks : client.drift w.steps w.tasks = tasksAt client w 1 := rfl
  rw [htasks] at hrequest
  unfold deleteTask
  cases hl : (tasksAt client w 1).lookup id with
  | none =>
    have hanswer : deleteAnswer id (tasksAt client w 1) = .error .notFound := by
      rw [deleteAnswer, hl]
    refine .inl ⟨fun process hp => ?_, ?_⟩
    · cases hl.symm.trans hp
    · rcases hrequest with ⟨tasks, -, ha, -⟩ | ⟨code, hf | ⟨-, ha⟩, hr⟩
      · cases hanswer.symm.trans ha
      · cases (hfaults _).symm.trans hf
      · cases hanswer.symm.trans ha
        exact ⟨_, bind_ok hr⟩
  | some process =>
    by_cases hstatus : process.status = .stopped ∨ process.status = .created
    · have hanswer : deleteAnswer id (tasksAt client w 1) =
          .ok ((tasksAt client w 1).erase id) := by
        rw [deleteAnswer, hl]
        exact if_pos hstatus
      refine .inl ⟨fun other hp => ?_, ?_⟩
      · cases hl.symm.trans hp
        exact hstatus
      · rcases hrequest with ⟨tasks, -, -, hr⟩ | ⟨code, hf | ⟨-, ha⟩, hr⟩
        · exact ⟨_, bind_ok hr⟩
        · cases (hfaults _).symm.trans hf
        · cases hanswer.symm.trans ha
    · have hanswer : deleteAnswer id (tasksAt client w 1) = .error .failedPrecondition := by
        rw [deleteAnswer, hl]
        exact if_neg hstatus
      refine .inr ⟨fun h => hstatus (h process hl), ?_⟩
      rcases hrequest with ⟨tasks, -, ha, -⟩ | ⟨code, hf | ⟨-, ha⟩, hr⟩
      · cases hanswer.symm.trans ha
      · cases (hfaults _).symm.trans hf
      · cases hanswer.symm.trans ha
        exact ⟨_, (Later.refl client id w).noted _ _, bind_ok hr⟩

/-- The attempts go on until one of them finds the task stopped. Induction on the number
of that attempt. -/
theorem retryDelete_ok (hfaults : ∀ n, client.fault n = none) {retries k : Nat} (hk : k ≤ retries)
    (hlate : ∀ j < k, client.late (w.steps + 2 * j + 1) = false)
    (hstopped : Deletable id (tasksAt client w (2 * k + 1))) :
    ∃ w', retryDelete client id retries w = .ok () w' := by
  induction k generalizing retries w with
  | zero =>
    rcases deleteTask_cases id hfaults w with ⟨-, w', hr⟩ | ⟨hnot, -⟩
    · cases retries with
      | zero => exact ⟨w', hr⟩
      | succ retries => exact ⟨w', bind_ok (attempt_ok hr)⟩
    · exact absurd hstopped hnot
  | succ k ih =>
    cases retries with
    | zero => exact absurd hk (Nat.not_succ_le_zero k)
    | succ retries =>
      rcases deleteTask_cases id hfaults w with ⟨-, w', hr⟩ | ⟨-, w', hlater, hr⟩
      · exact ⟨w', bind_ok (attempt_ok hr)⟩
      · have hlook : isLate client w' = .ok false (w'.advance client) := by
          rw [isLate, hlater.steps]
          exact congrArg (EStateM.Result.ok · _) (hlate 0 (Nat.succ_pos k))
        rw [retryDelete, bind_ok (attempt_error hr)]
        dsimp only
        rw [if_pos (by rfl), bind_ok hlook]
        have hnext := hlater.advance
        refine ih (Nat.le_of_succ_le_succ hk) (fun j hj => ?_) ?_
        · have hj' := hlate (j + 1) (Nat.succ_lt_succ hj)
          rw [hnext.steps]
          rwa [show w.steps + (1 + 1) + 2 * j + 1 = w.steps + 2 * (j + 1) + 1 by omega]
        · rw [tasksAt_later hnext, show 1 + 1 + (2 * k + 1) = 2 * (k + 1) + 1 by omega]
          exact hstopped

theorem dropTask_keeps : Keeps Calm (dropTask (κ := κ) client id) :=
  .bind stopContainer_keeps.attempt fun _ => retryDelete_keeps _

theorem dropTask_gone (htrue : NotFoundTrue client) (h : dropTask client id w = .ok () w') :
    w'.tasks.lookup id = none := by
  obtain ⟨_, w₁, -, hdelete⟩ := bind_eq_ok h
  exact retryDelete_gone htrue hdelete

/-- A stop sends its `SIGTERM` before anything else. -/
theorem stopContainer_signals (client : Client) (id : String) (timeout : Nat) (w : World κ) :
    w.steps + 1 ≤ (after (stopContainer client id timeout) w).steps := by
  have hquery : ∀ {β : Type} (call : Call) (answer : World κ → Except Code β),
      call.calm = true → Keeps Forward (query client call answer) := by
    intro β call answer _ u
    rw [after_ok (query_eq client call answer u)]
    exact Nat.le_succ _
  have hwait (timeout : Nat) : Keeps Forward (waitForTaskStop (κ := κ) client id timeout) :=
    pollRounds_frame (fun _ => Nat.le_succ _) (taskStopped_frame hquery) _
  obtain ⟨r, hterm⟩ := attempt_eq (stopTask client id) w
  have hsteps : (after (stopTask client id) w).steps = w.steps + 1 := by
    rw [after_stopTask]
    rfl
  rw [stopContainer, after_bind_ok hterm, ← hsteps]
  suffices hrest : Keeps (Forward (κ := κ)) _ from hrest (after (stopTask client id) w)
  refine .bind (hwait _).attempt fun _ =>
    .bind (.bind (getTaskInfo_frame hquery) fun _ => .pure _) fun running => ?_
  cases running with
  | true => exact .bind (killTask_frame hquery).attempt fun _ => hwait _
  | false => exact .pure _

/-- The world in which the first attempt to delete the task is made. -/
def stoppedWorld (client : Client) (id : String) (w : World κ) : World κ :=
  after (stopContainer client id snapshotOpStopTimeout) w

theorem dropTask_ok (hfaults : ∀ n, client.fault n = none)
    (hstops : StopsInTime client id (stoppedWorld client id w)) :
    ∃ w', dropTask client id w = .ok () w' := by
  obtain ⟨r, hstop⟩ := attempt_eq (stopContainer client id snapshotOpStopTimeout) w
  obtain ⟨k, hk, hlate, hstopped⟩ := hstops
  obtain ⟨w', hr⟩ := retryDelete_ok hfaults hk hlate hstopped
  exact ⟨w', (bind_ok hstop).trans hr⟩

end Task

/-! ## The layer -/

/-- The named snapshot is a committed one under another key than the container's own, and
nothing is based on the container's own. -/
structure Resettable (id name : String) (record : ContainerRecord) (w : World κ) : Prop
    extends Target id name record w where
  committed : ∀ snap, w.snapshots.lookup (record.snapshotter, name) = some snap →
    snap.kind = .committed
  other : record.snapshotKey ≠ name
  free : ¬ w.snapshots.HasChild record.snapshotter record.snapshotKey

/-- The container has an active snapshot on top of the named one. -/
def Layered (name : String) (record : ContainerRecord) (w : World κ) : Prop :=
  ∃ snap, w.snapshots.lookup (record.snapshotter, record.snapshotKey) = some snap ∧
    snap.kind = .active ∧ snap.parent = name

/-- What a reset without a restart comes to. -/
structure ResetTo (id name : String) (record : ContainerRecord) (w w' : World κ) : Prop where
  task : w'.tasks.lookup id = none
  layer : Layered name record w'
  containers : w'.containers = w.containers

/-- What the requests of a reset keep. -/
structure Retains (id name : String) (record : ContainerRecord) (w w' : World κ) : Prop where
  containers : w'.containers = w.containers
  resettable : Resettable id name record w → Resettable id name record w'

instance (id name : String) (record : ContainerRecord) :
    Std.Refl (Retains (κ := κ) id name record) := ⟨fun _ => ⟨rfl, fun h => h⟩⟩

instance (id name : String) (record : ContainerRecord) :
    IsTrans (World κ) (Retains id name record) :=
  ⟨fun _ _ _ h h' => ⟨h'.containers.trans h.containers, h'.resettable ∘ h.resettable⟩⟩

section Layer

variable {client : Client} {id name : String} {record : ContainerRecord} {w w' : World κ}

theorem Resettable.of_sameStore (h : Resettable id name record w) (hs : SameStore w w') :
    Resettable id name record w' := by
  obtain ⟨⟨hnamed, hfound, hsnap⟩, hcommitted, hother, hfree⟩ := h
  rw [← hs.containers] at hfound
  rw [← hs.snapshots] at hsnap hcommitted hfree
  exact ⟨⟨hnamed, hfound, hsnap⟩, hcommitted, hother, hfree⟩

theorem Retains.of_sameStore (hs : SameStore w w') : Retains id name record w w' :=
  ⟨hs.containers, fun h => h.of_sameStore hs⟩

theorem Resettable.loc_ne (h : Resettable id name record w) :
    (record.snapshotter, name) ≠ (record.snapshotter, record.snapshotKey) :=
  fun e => h.other (Prod.mk.inj e).2.symm

/-- Only the container's own snapshot changes, and is no child of itself. -/
theorem Resettable.change (h : Resettable id name record w)
    (hconts : w'.containers = w.containers)
    (hsnaps : ∀ loc, loc ≠ (record.snapshotter, record.snapshotKey) →
      w'.snapshots.lookup loc = w.snapshots.lookup loc)
    (hown : ∀ snap, w'.snapshots.lookup (record.snapshotter, record.snapshotKey) = some snap →
      snap.parent ≠ record.snapshotKey) : Resettable id name record w' := by
  have hlookup := hsnaps _ h.loc_ne
  refine ⟨⟨h.named, by rw [hconts, h.found], ?_⟩, fun snap hl => ?_, h.other, fun hchild => ?_⟩
  · rw [hlookup]
    exact h.snapshot
  · rw [hlookup] at hl
    exact h.committed snap hl
  · obtain ⟨k, child, hl, hp⟩ := Snapshots.hasChild_iff.mp hchild
    by_cases hk : (record.snapshotter, k) = (record.snapshotter, record.snapshotKey)
    · rw [hk] at hl
      exact hown child hl hp
    · rw [hsnaps _ hk] at hl
      exact h.free (Snapshots.hasChild_iff.mpr ⟨k, child, hl, hp⟩)

theorem Resettable.erase (h : Resettable id name record w)
    (hsnaps : w'.snapshots = w.snapshots.erase (record.snapshotter, record.snapshotKey))
    (hconts : w'.containers = w.containers) : Resettable id name record w' := by
  refine h.change hconts (fun loc hloc => ?_) fun snap hl => ?_
  · rw [hsnaps, AList.lookup_erase_ne hloc]
  · rw [hsnaps, AList.lookup_erase] at hl
    cases hl

theorem removeSnapshot_retains :
    Keeps (Retains (κ := κ) id name record)
      (removeSnapshot client record.snapshotter record.snapshotKey) := by
  intro w
  rcases removeSnapshot_cases client w record.snapshotter record.snapshotKey with
    ⟨-, -, -, hr⟩ | ⟨code, -, hr⟩
  · rw [after_ok hr]
    exact ⟨rfl, fun h => h.erase rfl rfl⟩
  · rw [after_ok hr]
    exact .of_sameStore (.noted client w _ _)

theorem prepareSnapshot_retains :
    Keeps (Retains (κ := κ) id name record)
      (prepareSnapshot client record.snapshotter record.snapshotKey name) := by
  intro w
  rcases prepareSnapshot_cases client w record.snapshotter record.snapshotKey name with
    ⟨base, -, -, -, -, hr⟩ | ⟨code, -, hr⟩
  · rw [after_ok hr]
    refine ⟨rfl, fun h => h.change rfl (fun loc => AList.lookup_insert_ne) fun snap hl => ?_⟩
    cases (AList.lookup_insert _).symm.trans hl
    exact Ne.symm h.other
  · rw [after_ok hr]
    exact .of_sameStore (.noted client w _ _)

theorem replaceActive_retains (id : String) :
    Keeps (Retains (κ := κ) id name record)
      (replaceActive client record.snapshotter record.snapshotKey name) :=
  replaceActive_frame prepareSnapshot_retains removeSnapshot_retains

/-- Neither request is about tasks. -/
theorem replaceActive_gone (hunstarted : Unstarted client id) {snapshotter key : String} :
    Keeps (Untasked (κ := κ) id) (replaceActive client snapshotter key name) := by
  have hrequest (call : Call) (answer : Snapshots κ → Except Code (Snapshots κ)) :
      Keeps (Untasked id) (snapshotRequest client call answer) := by
    intro w hgone
    rcases snapshotRequest_cases client call answer w with ⟨snaps, -, -, hr⟩ | ⟨code, -, hr⟩
    · rw [after_ok hr]
      exact hunstarted w.steps w.tasks hgone
    · rw [after_ok hr]
      exact hunstarted w.steps w.tasks hgone
  exact replaceActive_frame (hrequest _ _) (hrequest _ _)

/-- The attempts to prepare end with one that succeeded. -/
theorem prepareAttempts_layered {attempts : Nat} {last : Option Code}
    (h : prepareAttempts client record.snapshotter record.snapshotKey name (attempts + 1) last w =
      .ok none w') : Layered name record w' := by
  induction attempts generalizing w last with
  | zero =>
    rcases prepareSnapshot_cases client w record.snapshotter record.snapshotKey name with
      ⟨base, -, -, -, -, hr⟩ | ⟨code, -, hr⟩
    · cases (bind_ok hr).symm.trans h
      exact ⟨_, AList.lookup_insert _, rfl, rfl⟩
    · cases (bind_ok hr).symm.trans h
  | succ attempts ih =>
    rcases prepareSnapshot_cases client w record.snapshotter record.snapshotKey name with
      ⟨base, -, -, -, -, hr⟩ | ⟨code, -, hr⟩
    · cases (bind_ok hr).symm.trans h
      exact ⟨_, AList.lookup_insert _, rfl, rfl⟩
    · exact ih ((bind_ok hr).symm.trans h)

theorem prepareActive_layered
    (h : replaceActive.prepareActive client record.snapshotter record.snapshotKey name w =
      .ok () w') : Layered name record w' := by
  obtain ⟨last, w₁, hattempts, h⟩ := bind_eq_ok h
  cases last with
  | some code => cases h
  | none =>
    cases h
    exact prepareAttempts_layered hattempts

theorem replaceActive_layered
    (h : replaceActive client record.snapshotter record.snapshotKey name w = .ok () w') :
    Layered name record w' := by
  obtain ⟨answer, w₁, -, h⟩ := bind_eq_ok h
  cases answer with
  | ok _ => exact prepareActive_layered h
  | error code =>
    dsimp only at h
    split at h
    · exact prepareActive_layered h
    · cases h

/-- Without faults the first attempt is the last. -/
theorem replaceActive_ok (hfaults : ∀ n, client.fault n = none)
    (h : Resettable id name record w) :
    ∃ w', replaceActive client record.snapshotter record.snapshotKey name w = .ok () w' := by
  have hprepare {u : World κ} (hu : Resettable id name record u)
      (hkey : u.snapshots.lookup (record.snapshotter, record.snapshotKey) = none) :
      ∃ u', replaceActive.prepareActive client record.snapshotter record.snapshotKey name u =
        .ok () u' := by
    obtain ⟨snap, hsnap, -⟩ := hu.snapshot
    rcases prepareSnapshot_cases client u record.snapshotter record.snapshotKey name with
      ⟨base, -, -, -, -, hr⟩ | ⟨code, hf | ⟨-, hans⟩, -⟩
    · have hattempts : prepareAttempts client record.snapshotter record.snapshotKey name 5 none u =
          .ok none _ := bind_ok hr
      exact ⟨_, bind_ok hattempts⟩
    · cases (hfaults _).symm.trans hf
    · simp [Snapshots.prepare, hkey, hsnap, hu.committed snap hsnap] at hans
  unfold replaceActive
  rcases removeSnapshot_cases client w record.snapshotter record.snapshotKey with
    ⟨-, -, -, hr⟩ | ⟨code, hf | ⟨-, hans⟩, hr⟩
  · rw [bind_ok hr]
    exact hprepare (h.erase rfl rfl) (AList.lookup_erase _ _)
  · cases (hfaults _).symm.trans hf
  · -- a snapshot without children is only refused when it is not there
    have hgone : w.snapshots.lookup (record.snapshotter, record.snapshotKey) = none ∧
        code = .notFound := by
      unfold Snapshots.remove at hans
      split at hans
      · rename_i hnone
        cases hans
        exact ⟨hnone, rfl⟩
      · rw [if_neg h.free] at hans
        cases hans
    rw [bind_ok hr]
    dsimp only
    rw [if_pos hgone.2]
    exact hprepare (h.of_sameStore (.noted client w _ _)) hgone.1

end Layer

/-! ## The whole reset -/

/-- The signals of a reset from `w` stop the task, if there is one, in time to be deleted. -/
def StopsWhenSignalled (client : Client) (id name : String) (w : World κ) : Prop :=
  StopsInTime client id (stoppedWorld client id (after (resetTarget client id name) w))

section Reset

variable {client : Client} {id name : String} {opts : ResetToSnapshotOpts}
  {record : ContainerRecord} {w w' : World κ}

/-- A task that is stopped from the `SIGTERM` on. -/
theorem Target.stopsWhenSignalled (h : Target id name record w)
    (hfaults : ∀ n, client.fault n = none)
    (hstops : ∀ n tasks, w.steps + 3 ≤ n → Deletable id (client.drift n tasks)) :
    StopsWhenSignalled client id name w := by
  obtain ⟨w₁, hw₁, hlater⟩ : ∃ w₁, after (resetTarget client id name) w = w₁ ∧
      Later client id 2 [] w w₁ := by
    rcases resetTarget_cases client id w h.named with ⟨_, w₁, -, hr, hlater⟩ |
      ⟨e, w₁, n, hf | hf | hno, -, -⟩
    · exact ⟨w₁, after_ok hr, hlater⟩
    · exact absurd (hfaults _) hf
    · exact absurd (hfaults _) hf
    · exact absurd h (hno record)
  have hsteps : w.steps + 3 ≤ (stoppedWorld client id w₁).steps := by
    have hsignal := stopContainer_signals client id snapshotOpStopTimeout w₁
    rwa [hlater.steps] at hsignal
  refine ⟨0, Nat.zero_le _, fun j hj => absurd hj (Nat.not_lt_zero j), ?_⟩
  rw [hw₁]
  exact hstops _ _ hsteps

/-- Whatever a call comes to, what can be reset before it can be reset after it. -/
theorem resetToSnapshot_retains (h : Resettable id name record w) :
    Retains id name record w (after (resetToSnapshot client id name opts) w) := by
  rw [resetToSnapshot_eq client id h.named]
  have htail : Keeps (Retains (κ := κ) id name record) (do
      dropTask client id
      replaceActive client record.snapshotter record.snapshotKey name
      restartAfter client id opts) := by
    refine .bind (fun w => .of_sameStore (dropTask_keeps w).toSameStore) fun _ =>
      .bind (replaceActive_retains id) fun _ => ?_
    unfold restartAfter
    split
    · exact .bind (fun w => .of_sameStore (startContainer_keeps w).toSameStore) fun _ => .pure _
    · exact .pure _
  rcases resetTarget_cases client id w h.named with ⟨found, w₁, htarget, hr, hlater⟩ |
    ⟨e, w₁, n, -, hr, hlater⟩
  · obtain rfl : found = record := Option.some.inj (htarget.found.symm.trans h.found)
    rw [after_bind_ok hr]
    exact IsTrans.trans _ _ _ (.of_sameStore ⟨hlater.snapshots, hlater.containers⟩) (htail w₁)
  · rw [after_bind_error hr]
    exact .of_sameStore ⟨hlater.snapshots, hlater.containers⟩

/-- **What a reset that returns has done.** -/
theorem resetToSnapshot_ok (htrue : NotFoundTrue client) (hunstarted : Unstarted client id)
    (hopts : opts.restart = false) (h : resetToSnapshot client id name opts w = .ok () w') :
    ∃ record, w.containers.lookup id = some record ∧ ResetTo id name record w w' := by
  by_cases hname : name = ""
  · subst hname
    cases h
  rw [resetToSnapshot_eq client id hname] at h
  obtain ⟨record, w₁, htarget, h⟩ := bind_eq_ok h
  obtain ⟨_, w₂, hdrop, h⟩ := bind_eq_ok h
  obtain ⟨_, w₃, hreplace, h⟩ := bind_eq_ok h
  rw [restartAfter, hopts] at h
  cases h
  rcases resetTarget_cases client id w hname with ⟨found, v, hfound, hr, hlater⟩ |
    ⟨e, v, n, -, hr, -⟩
  · cases hr.symm.trans htarget
    refine ⟨record, hfound.found, replaceActive_gone hunstarted |>.ok hreplace <|
      dropTask_gone htrue hdrop, replaceActive_layered hreplace, ?_⟩
    rw [(replaceActive_retains id).ok hreplace |>.containers,
      (dropTask_keeps.ok hdrop).containers, hlater.containers]
  · cases hr.symm.trans htarget

/-- **A reset without faults** of what can be reset gets as far as the restart. -/
theorem resetWithForwards_resets (reg : Registry.Registries)
    (hfaults : ∀ n, client.fault n = none) (hunstarted : Unstarted client id)
    (hstops : StopsWhenSignalled client id name w) (h : Resettable id name record w) :
    ∃ s, ResetTo id name record w s.1 ∧
      resetWithForwards client id name opts (w, reg) = onWorld (restartAfter client id opts) s := by
  have hempty : name.isEmpty = false := by simpa using h.named
  rcases resetTarget_cases client id w h.named with ⟨found, w₁, htarget, hr, hlater⟩ |
    ⟨e, w₁, n, hf | hf | hno, -, -⟩
  · obtain rfl : found = record := Option.some.inj (htarget.found.symm.trans h.found)
    rw [StopsWhenSignalled, after_ok hr] at hstops
    obtain ⟨w₂, hdrop⟩ := dropTask_ok hfaults hstops
    have htask := dropTask_gone (fun n hf => by cases (hfaults n).symm.trans hf) hdrop
    have hs : SameStore w w₂ := IsTrans.trans _ _ _ ⟨hlater.snapshots, hlater.containers⟩
      (dropTask_keeps.ok hdrop).toSameStore
    obtain ⟨w₃, hreplace⟩ := replaceActive_ok hfaults (h.of_sameStore hs)
    refine ⟨(w₃, after (Registry.stopManagedForwards id) reg),
      ⟨(replaceActive_gone hunstarted).ok hreplace htask, replaceActive_layered hreplace, ?_⟩, ?_⟩
    · rw [((replaceActive_retains id).ok hreplace).containers, hs.containers]
    · have hforwards : onRegistries (Registry.stopManagedForwards id) (w₂, reg) =
          .ok () (w₂, after (Registry.stopManagedForwards id) reg) := rfl
      rw [resetWithForwards, hempty]
      simp only [Bool.false_eq_true, if_false]
      rw [bind_ok (onWorld_ok reg hr), bind_ok (onWorld_ok reg hdrop), bind_ok hforwards,
        bind_ok (onWorld_ok _ hreplace)]
  · exact absurd (hfaults _) hf
  · exact absurd (hfaults _) hf
  · exact absurd h.toTarget (hno record)

end Reset

/-! ## Recovery -/

/-- **Resets.** A reset of nothing that can be reset changes nothing; one that returns has put the
container on the named snapshot; and whatever a call came to, another without faults gets
there, if the named snapshot is not the container's own and nothing is based on that. -/
theorem reset_recovers (client : Client) (id name : String) (opts : ResetToSnapshotOpts)
    (w : World κ) (reg : Registry.Registries) :
    ((∀ record, ¬ Target id name record w) →
      ∃ e w' n, resetWithForwards client id name opts (w, reg) = .error e (w', reg) ∧
        Later client id n [] w w') ∧
    (NotFoundTrue client → Unstarted client id → opts.restart = false →
      ∀ s, resetWithForwards client id name opts (w, reg) = .ok () s →
        ∃ record, w.containers.lookup id = some record ∧ ResetTo id name record w s.1) ∧
    ∀ record, Resettable id name record w →
      ∀ s, after (resetWithForwards client id name opts) (w, reg) = s →
        ∀ client' : Client, (∀ n, client'.fault n = none) → Unstarted client' id →
          StopsWhenSignalled client' id name s.1 →
            ∃ s', ResetTo id name record w s'.1 ∧
              resetWithForwards client' id name opts s =
                onWorld (restartAfter client' id opts) s' := by
  refine ⟨resetWithForwards_refused client id w opts reg, ?_, ?_⟩
  · intro htrue hunstarted hopts s hr
    exact resetToSnapshot_ok htrue hunstarted hopts
      ((resetWithForwards_tracks client id name opts).ok hr)
  · rintro record h s rfl client' hfaults hunstarted hstops
    have hretains : Retains id name record w
        (after (resetWithForwards client id name opts) (w, reg)).1 := by
      rw [(resetWithForwards_tracks client id name opts (w, reg)).2]
      exact resetToSnapshot_retains h
    obtain ⟨s', hto, hr⟩ := resetWithForwards_resets
      (after (resetWithForwards client id name opts) (w, reg)).2 hfaults hunstarted hstops
      (hretains.resettable h)
    exact ⟨s', ⟨hto.task, hto.layer, hto.containers.trans hretains.containers⟩, hr⟩

/-- The record of a container of `mongo`. -/
def resetRecord : ContainerRecord where
  image := "mongo"
  snapshotter := defaultSnapshotter
  snapshotKey := snapshotKeyFor "c1"

def namedSnapshot : Containerd.Snapshot Unit where
  kind := .committed
  parent := ""
  labels := snapshotLabels "mongo" none
  content := ()

/-- `c1` runs on a layer of its own; there is a named snapshot `golden`. -/
def resetWorld : World Unit where
  snapshots := ((∅ : Snapshots Unit).insert (defaultSnapshotter, "golden") namedSnapshot).insert
    (defaultSnapshotter, snapshotKeyFor "c1")
    { kind := .active, parent := "", labels := ∅, content := () }
  containers := (∅ : AList fun _ : String => ContainerRecord).insert "c1" resetRecord
  tasks := (∅ : Tasks).insert "c1" { pid := 1, status := .running, exitStatus := 0 }

def halt (id : String) (tasks : Tasks) : Tasks :=
  match tasks.lookup id with
  | none => tasks
  | some process => tasks.insert id { process with status := .stopped }

/-- Tasks stop from the third step on, the `SIGTERM`; from the tenth on every step fails. -/
def unprepared : Client where
  fault n := if 9 ≤ n then some .unavailable else none
  drift n tasks := if 3 ≤ n then halt "c1" tasks else tasks

def healthy : Client where
  drift _ tasks := halt "c1" tasks

theorem halt_unstarted (id : String) (tasks : Tasks) (h : tasks.lookup id = none) :
    (halt id tasks).lookup id = none := by
  rw [halt, h]
  exact h

theorem halt_deletable (id : String) (tasks : Tasks) : Deletable id (halt id tasks) := by
  intro process hp
  unfold halt at hp
  cases hl : tasks.lookup id with
  | none =>
    rw [hl] at hp
    cases hl.symm.trans hp
  | some found =>
    rw [hl] at hp
    cases (AList.lookup_insert _).symm.trans hp
    exact .inl rfl

theorem resetWorld_resettable : Resettable "c1" "golden" resetRecord resetWorld where
  named := by decide
  found := by rfl
  snapshot := ⟨namedSnapshot, by rfl, by decide +kernel, by decide +kernel⟩
  committed := by
    intro snap hl
    cases hl.symm.trans (show resetWorld.snapshots.lookup (defaultSnapshotter, "golden") =
      some namedSnapshot by rfl)
    rfl
  other := by decide
  free := by decide

/-- A reset that could not prepare the new layer leaves none; the next one gets through. -/
theorem reset_recovers_golden :
    (∃ e w' n, resetWithForwards unprepared "c2" "golden" {} (resetWorld, {}) =
        .error e (w', {}) ∧ Later unprepared "c2" n [] resetWorld w') ∧
      (∃ s record, resetWithForwards healthy "c1" "golden" {} (resetWorld, {}) = .ok () s ∧
        resetWorld.containers.lookup "c1" = some record ∧
          ResetTo "c1" "golden" record resetWorld s.1) ∧
      ∃ s, after (resetWithForwards unprepared "c1" "golden" {}) (resetWorld, {}) = s ∧
        s.1.snapshots.lookup (defaultSnapshotter, snapshotKeyFor "c1") = none ∧
        ∃ s', ResetTo "c1" "golden" resetRecord resetWorld s'.1 ∧
          resetWithForwards healthy "c1" "golden" {} s = .ok () s' := by
  have hunstarted : Unstarted healthy "c1" := fun _ => halt_unstarted "c1"
  refine ⟨?_, ?_, _, rfl, ?_, ?_⟩
  · refine (reset_recovers unprepared "c2" "golden" {} resetWorld {}).1 fun record h => ?_
    have hnone : (resetWorld.containers.lookup "c2").isSome = false := by decide +kernel
    rw [h.found] at hnone
    cases hnone
  · obtain ⟨s, hs⟩ := ok_of_result
      (m := resetWithForwards healthy "c1" "golden" {}) (s := (resetWorld, {})) (a := ())
      (by decide +kernel)
    obtain ⟨record, hfound, hto⟩ := (reset_recovers healthy "c1" "golden" {} resetWorld {}).2.1
      (fun _ h => by cases h) hunstarted rfl s hs
    exact ⟨s, record, hs, hfound, hto⟩
  · have hgone : ((after (resetWithForwards unprepared "c1" "golden" {})
        (resetWorld, {})).1.snapshots.lookup (defaultSnapshotter, snapshotKeyFor "c1")).isNone := by
      decide +kernel
    exact Option.isNone_iff_eq_none.mp hgone
  · refine (reset_recovers unprepared "c1" "golden" {} resetWorld {}).2.2 resetRecord
      resetWorld_resettable _ rfl healthy (fun _ => rfl) hunstarted ?_
    have hretains : Resettable "c1" "golden" resetRecord
        (after (resetWithForwards unprepared "c1" "golden" {}) (resetWorld, {})).1 := by
      rw [(resetWithForwards_tracks unprepared "c1" "golden" {} (resetWorld, {})).2]
      exact (resetToSnapshot_retains resetWorld_resettable).resettable resetWorld_resettable
    exact hretains.toTarget.stopsWhenSignalled (fun _ => rfl)
      fun _ tasks _ => halt_deletable "c1" tasks

/-- Another container's snapshot was named as the missing layer of `c1`. -/
def ownKeyWorld : World Unit where
  snapshots := (∅ : Snapshots Unit).insert (defaultSnapshotter, snapshotKeyFor "c1") namedSnapshot
  containers := (∅ : AList fun _ : String => ContainerRecord).insert "c1" resetRecord

/-- So it was here, where another container was restored from it. -/
def basedWorld : World Unit where
  snapshots := (((∅ : Snapshots Unit).insert (defaultSnapshotter, "golden") namedSnapshot).insert
    (defaultSnapshotter, snapshotKeyFor "c1") namedSnapshot).insert
    (defaultSnapshotter, snapshotKeyFor "c2")
    { kind := .active, parent := snapshotKeyFor "c1", labels := ∅, content := () }
  containers := ownKeyWorld.containers

/-- The named snapshot was never committed. -/
def activeWorld : World Unit where
  snapshots := (∅ : Snapshots Unit).insert (defaultSnapshotter, "golden")
    { namedSnapshot with kind := .active }
  containers := ownKeyWorld.containers

/-- The first step fails. -/
def unreachable : Client where
  fault n := if n = 0 then some .unavailable else none

/-- What a call that fails at once leaves. -/
def failedReset (name : String) (w : World Unit) : World Unit × Registry.Registries :=
  after (resetWithForwards unreachable "c1" name {}) (w, {})

/-- By all that is checked the named snapshot can be reset to, but a call without faults behind
a failed one does not get there. -/
structure Stuck (name : String) (w : World Unit) : Prop where
  target : Target "c1" name resetRecord w
  taskless : w.tasks = ∅
  fails : ∀ s, resetWithForwards {} "c1" name {} (failedReset name w) ≠ .ok () s

theorem Stuck.of_result {name : String} {w : World Unit} (htarget : Target "c1" name resetRecord w)
    (htasks : w.tasks = ∅)
    (hresult : (result (resetWithForwards {} "c1" name {}) (failedReset name w)).toOption = none) :
    Stuck name w := by
  refine ⟨htarget, htasks, fun s hs => ?_⟩
  rw [result_ok hs] at hresult
  cases hresult

/-- **Named snapshots that cannot be reset to** pass the checks: one under the container's own key,
which is removed and then missing, any when another snapshot is based on the container's own, and
one that is not committed. -/
theorem resets_stuck :
    (∀ n, ({} : Client).fault n = none) ∧ Stuck (snapshotKeyFor "c1") ownKeyWorld ∧
      Stuck "golden" basedWorld ∧ Stuck "golden" activeWorld := by
  refine ⟨fun _ => rfl, .of_result ?_ rfl ?_, .of_result ?_ rfl ?_, .of_result ?_ rfl ?_⟩
  · exact ⟨by decide, by rfl, namedSnapshot, by rfl, by decide +kernel, by decide +kernel⟩
  · decide +kernel
  · exact ⟨by decide, by rfl, namedSnapshot, by rfl, by decide +kernel, by decide +kernel⟩
  · decide +kernel
  · exact ⟨by decide, by rfl, { namedSnapshot with kind := .active }, by rfl, by decide +kernel,
      by decide +kernel⟩
  · decide +kernel

end ContainerdManager.Snapshot
