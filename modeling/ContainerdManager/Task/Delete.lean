import ContainerdManager.Container.Create
import ContainerdManager.Task.Lifecycle

/-!
# Deleting a container

`remove_container` and `delete_container` of `src/task.rs` and
`Client::delete_container`. The requests that change records and snapshots
are steps of their own; the phases before them, which stop the task and wait
for it to be gone, are one step each. Port forwards, which the client stops
at the end, are no part of the world.
-/

namespace ContainerdManager.Task

open Lib Containerd Container Logs

variable {κ : Type}

/-- `containers.Delete`. -/
def deleteRecord (client : Client) (id : String) : Op κ (Except Code Unit) :=
  request client (.deleteContainer id) fun w =>
    match w.containers.lookup id with
    | none => .error .notFound
    | some _ => .ok ((), { w with containers := w.containers.erase id })

/-- Best effort. -/
def cleanupLogFiles (client : Client) (id : String) : Op κ Unit :=
  if client.home then do
    let _ ← attempt (fileOp client "remove log dir" fun w =>
      { w with rawLogs := (w.rawLogs.erase (id, LogStream.stdout)).erase (id, LogStream.stderr) })
    return ()
  else pure ()

/-- Record, snapshot and log files. A record that cannot be read is taken to use the default
snapshotter, and the outcome of the `Remove` is ignored. -/
def removeContainer (client : Client) (id : String) : Proc κ Unit := do
  let found ← call (getContainer client id)
  let snapshotter := match found with
    | .ok record => record.snapshotter
    | .error _ => defaultSnapshotter
  let deleted ← call (deleteRecord client id)
  let _ ← call (removeSnapshot client snapshotter (snapshotKeyFor id))
  call (cleanupLogFiles client id)
  match deleted with
  | .ok () => return ()
  | .error code =>
    if code = .notFound then return () else throw (.containerd "delete_container" code)

/-- The task record is gone, or the container is. -/
def taskRecordGone (client : Client) (id : String) : Op κ Bool := do
  match ← attempt (inspectContainer client id) with
  | .error _ => return true
  | .ok info =>
    if info.task.any fun t => t.status = .stopped then do
      let _ ← attempt (deleteTask client id)
      return info.task.isNone
    else return info.task.isNone

def taskDeleted (client : Client) (id : String) : Op κ Bool := do
  match ← attempt (deleteTask client id) with
  | .ok () => return true
  | .error _ => return false

/-- The last phase: the record is gone; while it is there, the removal is tried again. -/
def recordGone (client : Client) (id timeoutMsg : String) : Nat → Proc κ Unit
  | 0 => throw (.timeout timeoutMsg)
  | rounds + 1 => do
    if ← call (isLate client) then throw (.timeout timeoutMsg)
    else
      match ← call (attempt (inspectContainer client id)) with
      | .error (.containerNotFound _) => return ()
      | .error _ => recordGone client id timeoutMsg rounds
      | .ok _ => do
        let _ ← (removeContainer client id).attempt
        recordGone client id timeoutMsg rounds

/-- `task::delete_container`. -/
def deleteContainerTask (client : Client) (id : String) (timeout : Nat) : Proc κ Unit := do
  let _ ← call (attempt (stopContainer client id timeout))
  call (pollUntil client timeout (100 * ms)
    ("delete_container[phase=delete_task] timed out for " ++ id) (taskDeleted client id))
  call (pollUntil client timeout (100 * ms)
    ("delete_container[phase=task_record_gone] timed out for " ++ id ++ " within " ++
      debugDuration timeout) (taskRecordGone client id))
  let _ ← (removeContainer client id).attempt
  recordGone client id ("delete_container[phase=container_record_gone] timed out for " ++ id ++
    " within " ++ debugDuration timeout) (timeout / (100 * ms) + 1)

def stopManagedTailer (client : Client) (id : String) : Op κ Unit :=
  modify fun w => { w with tailers := w.tailers.erase (nsKey client id) }

/-- `Client::delete_container`. -/
def deleteContainer (client : Client) (id : String) (timeout : Nat) : Proc κ Unit :=
  (deleteContainerTask client id timeout).ensuring (call (stopManagedTailer client id))

/-! ## Frames -/

theorem deleteRecord_cases (client : Client) (id : String) (w : World κ) :
    (∃ record, w.containers.lookup id = some record ∧ deleteRecord client id w = .ok (.ok ())
      { w.noted client (.deleteContainer id) none with containers := w.containers.erase id }) ∨
    (∃ code, (client.fault w.steps = some code ∨ w.containers.lookup id = none) ∧
      deleteRecord client id w =
        .ok (.error code) (w.noted client (.deleteContainer id) (some code))) := by
  unfold deleteRecord
  rcases request_cases client (.deleteContainer id) (fun w : World κ =>
      match w.containers.lookup id with
      | none => .error .notFound
      | some _ => .ok ((), { w with containers := w.containers.erase id })) w with
    ⟨a, w', -, ha, hr⟩ | ⟨code, hc, hr⟩
  · have hadv : (w.advance client).containers = w.containers := rfl
    rw [hadv] at ha
    cases hl : w.containers.lookup id with
    | none => rw [hl] at ha; cases ha
    | some record =>
      rw [hl] at ha
      cases ha
      exact .inl ⟨record, rfl, hr⟩
  · refine .inr ⟨code, hc.imp_right fun ⟨_, ha⟩ => ?_, hr⟩
    split at ha
    · assumption
    · cases ha

theorem cleanupLogFiles_keeps {client : Client} {id : String} :
    Keeps Calm (cleanupLogFiles (κ := κ) client id) := by
  unfold cleanupLogFiles
  split
  · refine .bind (Keeps.attempt (fileOp_keeps fun _ => ?_)) fun _ => .pure _
    exact .of_trace_eq ⟨rfl, rfl⟩ rfl rfl rfl
  · exact .pure _

/-- What a removal does last. -/
theorem cleanupAndReport_keeps (client : Client) (id : String) (deleted : Except Code Unit) :
    Keeps Calm (cleanupLogFiles client id >>= fun _ => Prog.run (match deleted with
      | .ok () => pure ()
      | .error code =>
        if code = .notFound then pure () else throw (.containerd "delete_container" code)) :
      Op κ Unit) := by
  refine .bind cleanupLogFiles_keeps fun _ => ?_
  cases deleted with
  | ok _ => exact .pure _
  | error code =>
    dsimp only
    split
    · exact .pure _
    · exact .throw _

theorem taskDeleted_keeps {client : Client} {id : String} :
    Keeps Calm (taskDeleted (κ := κ) client id) := by
  refine .bind deleteTask_keeps.attempt fun answer => ?_
  cases answer <;> exact .pure _

theorem taskRecordGone_keeps {client : Client} {id : String} :
    Keeps Calm (taskRecordGone (κ := κ) client id) := by
  refine .bind inspectContainer_keeps.attempt fun answer => ?_
  cases answer with
  | error e => exact .pure _
  | ok info =>
    dsimp only
    split
    · exact .bind deleteTask_keeps.attempt fun _ => .pure _
    · exact .pure _

section Delete

variable {R : World κ → World κ → Prop} {client : Client} {id : String}
  (hcalm : ∀ w w', Calm w w' → R w w') (hdelete : Keeps R (deleteRecord (κ := κ) client id))
  (hremove : ∀ snapshotter,
    Keeps R (removeSnapshot (κ := κ) client snapshotter (snapshotKeyFor id)))

include hcalm hdelete hremove

theorem removeContainer_steps : (removeContainer (κ := κ) client id).Steps R := by
  refine .bind (.atomic fun w => hcalm _ _ (query_keeps rfl w)) fun found => ?_
  refine .bind (.atomic hdelete) fun deleted => .bind (.atomic (hremove _)) fun _ =>
    .bind (.atomic fun w => hcalm _ _ (cleanupLogFiles_keeps w)) fun _ => ?_
  cases deleted with
  | ok _ => trivial
  | error code => dsimp only; split <;> trivial

theorem recordGone_steps (timeoutMsg : String) (rounds : Nat) :
    (recordGone (κ := κ) client id timeoutMsg rounds).Steps R := by
  induction rounds with
  | zero => trivial
  | succ rounds ih =>
    refine .bind (.atomic fun w => hcalm _ _ (isLate_keeps w)) fun late => ?_
    cases late with
    | true => trivial
    | false =>
      refine .bind (.atomic fun w => hcalm _ _ (inspectContainer_keeps.attempt w)) fun answer => ?_
      cases answer with
      | ok info => exact .bind (removeContainer_steps hcalm hdelete hremove).attempt fun _ => ih
      | error e => cases e <;> first | exact ih | trivial

theorem deleteContainerTask_steps (timeout : Nat) :
    (deleteContainerTask (κ := κ) client id timeout).Steps R :=
  .bind (.atomic fun w => hcalm _ _ (stopContainer_keeps.attempt w)) fun _ =>
    .bind (.atomic fun w => hcalm _ _ (pollRounds_keeps taskDeleted_keeps _ w)) fun _ =>
    .bind (.atomic fun w => hcalm _ _ (pollRounds_keeps taskRecordGone_keeps _ w)) fun _ =>
    .bind (removeContainer_steps hcalm hdelete hremove).attempt fun _ =>
    recordGone_steps hcalm hdelete hremove _ _

/-- **The frame of a delete.** -/
theorem deleteContainer_steps (timeout : Nat) :
    (deleteContainer (κ := κ) client id timeout).Steps R := by
  refine .ensuring (deleteContainerTask_steps hcalm hdelete hremove timeout)
    (.atomic fun w => hcalm _ _ ?_)
  exact .of_trace_eq ⟨rfl, rfl⟩ rfl rfl rfl

end Delete

section DeleteAlone

variable {R : World κ → World κ → Prop} [Std.Refl R] [IsTrans (World κ) R] {client : Client}
  {id : String} (hcalm : ∀ w w', Calm w w' → R w w')
  (hremove : Keeps R (removeContainer (κ := κ) client id).run)

include hcalm hremove

theorem recordGone_keeps (timeoutMsg : String) (rounds : Nat) :
    Keeps R (recordGone (κ := κ) client id timeoutMsg rounds).run := by
  induction rounds with
  | zero => exact .throw _
  | succ rounds ih =>
    simp only [recordGone, call, Prog.run_bind, Prog.run_atomic]
    refine .bind (fun w => hcalm _ _ (isLate_keeps w)) fun late => ?_
    cases late with
    | true => exact .throw _
    | false =>
      simp only [Bool.false_eq_true, if_false, Prog.run_bind, Prog.run_atomic]
      refine .bind (fun w => hcalm _ _ (inspectContainer_keeps.attempt w)) fun answer => ?_
      cases answer with
      | ok info =>
        simp only [Prog.run_bind, Prog.run_attempt]
        exact .bind hremove.attempt fun _ => ih
      | error e => cases e <;> first | exact ih | exact .pure _

/-- A delete alone keeps what every removal as a whole keeps. -/
theorem deleteContainer_keeps (timeout : Nat) :
    Keeps R (deleteContainer (κ := κ) client id timeout).run := by
  have htask : Keeps R (deleteContainerTask (κ := κ) client id timeout).run := by
    simp only [deleteContainerTask, call, Prog.run_bind, Prog.run_atomic, Prog.run_attempt]
    exact .bind (fun w => hcalm _ _ (stopContainer_keeps.attempt w)) fun _ =>
      .bind (fun w => hcalm _ _ (pollRounds_keeps taskDeleted_keeps _ w)) fun _ =>
      .bind (fun w => hcalm _ _ (pollRounds_keeps taskRecordGone_keeps _ w)) fun _ =>
      .bind hremove.attempt fun _ => recordGone_keeps hcalm hremove _ _
  intro w
  rw [deleteContainer, Prog.after_ensuring]
  refine IsTrans.trans _ _ _ (htask w) (hcalm _ _ ?_)
  exact .of_trace_eq ⟨rfl, rfl⟩ rfl rfl rfl

end DeleteAlone

end ContainerdManager.Task
