import ContainerdManager.Task.Inspect

/-!
# Starting, stopping and deleting tasks

`src/task.rs` and `Client::start_container` of `src/client.rs`. None of these
operations touches a snapshot or a container record, whatever its requests
answer: the frame theorems at the end say so.
-/

namespace ContainerdManager.Task

open Lib Containerd Logs

variable {κ : Type}

def sigterm : Nat := 15

def sigkill : Nat := 9

/-! ## The task service -/

def kill (client : Client) (id : String) (signal : Nat) : Op κ (Except Code Unit) :=
  query client (.killTask id signal) fun w =>
    (w.tasks.lookup id).elim (.error .notFound) fun _ => .ok ()

/-- `tasks.Delete` takes a stopped task, or one that was never started. -/
def deleteAnswer (id : String) (tasks : Tasks) : Except Code Tasks :=
  match tasks.lookup id with
  | none => .error .notFound
  | some process =>
    if process.status = .stopped ∨ process.status = .created then .ok (tasks.erase id)
    else .error .failedPrecondition

def createAnswer (id : String) (pid : Nat) (tasks : Tasks) : Except Code Tasks :=
  match tasks.lookup id with
  | some _ => .error .alreadyExists
  | none => .ok (tasks.insert id { pid := pid, status := .created, exitStatus := 0 })

def startAnswer (id : String) (tasks : Tasks) : Except Code Tasks :=
  match tasks.lookup id with
  | none => .error .notFound
  | some process =>
    if process.status = .created then .ok (tasks.insert id { process with status := .running })
    else .error .failedPrecondition

/-! ## Stopping -/

/-- Sends SIGTERM; a task that has already stopped is fine. -/
def stopTask (client : Client) (id : String) : Op κ Unit := do
  match ← kill client id sigterm with
  | .ok () => return ()
  | .error .notFound => throw (.taskNotFound id)
  | .error .failedPrecondition => return ()
  | .error code => throw (.containerd "kill_task" code)

/-- Sends any signal; a task that is missing or has stopped is fine. -/
def killTask (client : Client) (id : String) (signal : Nat) : Op κ Unit := do
  match ← kill client id signal with
  | .ok () => return ()
  | .error .notFound => return ()
  | .error .failedPrecondition => return ()
  | .error code => throw (.containerd "kill_task" code)

def isTaskRunning (client : Client) (id : String) : Op κ Bool := do
  let task ← getTaskInfo client id
  return task.any fun t => t.status = .running

/-- The predicate `wait_for_task_stop` polls: no task counts as stopped, and so does a missing
container. -/
def taskStopped (client : Client) (id : String) : Op κ Bool := do
  match ← attempt (inspectContainer client id) with
  | .ok info => return info.task.all fun t => t.status = .stopped
  | .error (.containerNotFound _) => return true
  | .error _ => return false

def waitForTaskStop (client : Client) (id : String) (timeout : Nat) : Op κ Unit :=
  pollUntil client timeout (100 * ms)
    ("task " ++ id ++ " did not stop within " ++ debugDuration timeout) (taskStopped client id)

/-- SIGTERM, wait, then SIGKILL. -/
def stopContainer (client : Client) (id : String) (timeout : Nat) : Op κ Unit := do
  let sigtermGrace := min (timeout / 2) (5000 * ms)
  let _ ← attempt (stopTask client id)
  let _ ← attempt (waitForTaskStop client id sigtermGrace)
  if ← isTaskRunning client id then do
    let _ ← attempt (killTask client id sigkill)
    waitForTaskStop client id (timeout - sigtermGrace)
  else pure ()

/-! ## Deleting -/

def isRetryableDeleteError : Error → Bool
  | .containerd _ source =>
    source = .failedPrecondition ∨ source = .unavailable ∨ source = .internal ∨
      source = .aborted ∨ source = .deadlineExceeded
  | _ => false

def nsKey (client : Client) (id : String) : String := client.namespace_ ++ "/" ++ id

def forgetTaskStart (client : Client) (id : String) : Op κ Unit :=
  modify fun w => { w with taskStarts := w.taskStarts.erase (nsKey client id) }

/-- A missing task is fine; the start time is forgotten on success only. -/
def deleteTask (client : Client) (id : String) : Op κ Unit := do
  match ← taskRequest client (.deleteTask id) (deleteAnswer id) with
  | .ok () => forgetTaskStart client id
  | .error .notFound => forgetTaskStart client id
  | .error code => throw (.containerd "delete_task" code)

/-- The loop of `retry_delete_task` with `retries` sleeps of 50 ms left before the deadline. -/
def retryDelete (client : Client) (id : String) : Nat → Op κ Unit
  | 0 => deleteTask client id
  | retries + 1 => do
    match ← attempt (deleteTask client id) with
    | .ok () => return ()
    | .error e =>
      if isRetryableDeleteError e then
        if ← isLate client then throw e else retryDelete client id retries
      else throw e

def retryDeleteTask (client : Client) (id : String) (timeout : Nat) : Op κ Unit :=
  retryDelete client id ((timeout + 50 * ms - 1) / (50 * ms))

/-! ## Starting -/

structure TaskId where
  containerId : String
  pid : Nat
  deriving DecidableEq, Repr

/-- `log_paths_for` fails without a home directory. -/
def logPathsFor (client : Client) : Op κ Unit :=
  if client.home then pure () else throw (.io "home directory")

def truncateLog (id : String) (stream : LogStream) (w : World κ) : World κ :=
  { w with rawLogs := w.rawLogs.insert (id, stream) [] }

def prepareLogFiles (client : Client) (id : String) : Op κ Unit := do
  logPathsFor client
  fileOp client "create task log dir" fun w => w
  fileOp client "create task stdout log" (truncateLog id .stdout)
  fileOp client "create task stderr log" (truncateLog id .stderr)

def recordTaskStart (client : Client) (id : String) : Op κ Unit :=
  modify fun w => { w with taskStarts := w.taskStarts.insert (nsKey client id) }

/-- `task::start_container`. -/
def startTaskOf (client : Client) (id : String) : Op κ TaskId := do
  let record ← fetchContainerRecord client id
  match ← query client (.mounts record.snapshotter record.snapshotKey) fun w =>
      w.snapshots.mounts record.snapshotter record.snapshotKey with
  | .error code => throw (.containerd "snapshot_mounts" code)
  | .ok () =>
    prepareLogFiles client id
    let pid ← EStateM.get >>= fun w => pure (client.pid w.steps)
    match ← taskRequest client (.createTask id) (createAnswer id pid) with
    | .error .alreadyExists => throw (.taskAlreadyExists id)
    | .error code => throw (.containerd "create_task" code)
    | .ok () =>
      match ← taskRequest client (.startTask id) (startAnswer id) with
      | .error code => throw (.containerd "start_task" code)
      | .ok () =>
        recordTaskStart client id
        return { containerId := id, pid := pid }

/-- Spawns and inserts a tailer; the one it replaces is stopped. -/
def startManagedTailer (client : Client) (id : String) : Op κ Unit := do
  logPathsFor client
  modify fun w => { w with tailers := w.tailers.insert (nsKey client id) w.steps }

/-- `Client::start_container`. -/
def startContainer (client : Client) (id : String) : Op κ TaskId := do
  let taskId ← startTaskOf client id
  startManagedTailer client id
  return taskId

/-! ## Frames -/

/-- No task of that id comes to be. -/
def Untasked (id : String) (w w' : World κ) : Prop :=
  w.tasks.lookup id = none → w'.tasks.lookup id = none

instance (id : String) : Std.Refl (Untasked (κ := κ) id) := ⟨fun _ h => h⟩

instance (id : String) : IsTrans (World κ) (Untasked id) := ⟨fun _ _ _ h h' hn => h' (h hn)⟩

section Frames

variable {R : World κ → World κ → Prop} [Std.Refl R] [IsTrans (World κ) R] {client : Client}
  (hquery : ∀ {α : Type} (call : Call) (answer : World κ → Except Code α), call.calm = true →
    Keeps R (query client call answer)) {id : String}

include hquery

theorem stopTask_frame : Keeps R (stopTask (κ := κ) client id) := by
  refine .bind (hquery _ _ rfl) fun answer => ?_
  cases answer with
  | ok => exact .pure _
  | error code => cases code <;> first | exact .pure _ | exact .throw _

theorem killTask_frame {signal : Nat} : Keeps R (killTask (κ := κ) client id signal) := by
  refine .bind (hquery _ _ rfl) fun answer => ?_
  cases answer with
  | ok => exact .pure _
  | error code => cases code <;> first | exact .pure _ | exact .throw _

theorem taskStopped_frame : Keeps R (taskStopped (κ := κ) client id) := by
  refine .bind (inspectContainer_frame hquery).attempt fun answer => ?_
  cases answer with
  | ok info => exact .pure _
  | error e => cases e <;> exact .pure _

/-- **Stopping keeps what its looks and signals keep**: it changes nothing itself. -/
theorem stopContainer_frame (hlate : Keeps R (isLate (κ := κ) client)) {timeout : Nat} :
    Keeps R (stopContainer (κ := κ) client id timeout) := by
  have hwait (timeout : Nat) : Keeps R (waitForTaskStop (κ := κ) client id timeout) :=
    pollRounds_frame hlate (taskStopped_frame hquery) _
  refine .bind (stopTask_frame hquery).attempt fun _ => .bind (hwait _).attempt fun _ => ?_
  refine .bind (.bind (getTaskInfo_frame hquery) fun _ => .pure _) fun running => ?_
  cases running with
  | true => exact .bind (killTask_frame hquery).attempt fun _ => hwait _
  | false => exact .pure _

end Frames

theorem stopContainer_keeps {client : Client} {id : String} {timeout : Nat} :
    Keeps Calm (stopContainer (κ := κ) client id timeout) :=
  stopContainer_frame (fun _ _ hc => query_keeps hc) isLate_keeps

theorem deleteTask_keeps {client : Client} {id : String} :
    Keeps Calm (deleteTask (κ := κ) client id) := by
  have hforget : Keeps Calm (forgetTaskStart (κ := κ) client id) :=
    fun _ => .of_trace_eq ⟨rfl, rfl⟩ rfl rfl rfl
  refine .bind taskRequest_keeps fun answer => ?_
  cases answer with
  | ok => exact hforget
  | error code => cases code <;> first | exact hforget | exact .throw _

/-- Retrying keeps what a delete and a look at the clock keep. -/
theorem retryDelete_frame {R : World κ → World κ → Prop} [Std.Refl R] [IsTrans (World κ) R]
    {client : Client} {id : String} (hdelete : Keeps R (deleteTask (κ := κ) client id))
    (hlate : Keeps R (isLate (κ := κ) client)) (retries : Nat) :
    Keeps R (retryDelete client id retries) := by
  induction retries with
  | zero => exact hdelete
  | succ retries ih =>
    refine .bind hdelete.attempt fun answer => ?_
    cases answer with
    | ok => exact .pure _
    | error e =>
      simp only
      split
      · refine .bind hlate fun late => ?_
        cases late with
        | true => exact .throw _
        | false => exact ih
      · exact .throw _

theorem retryDelete_keeps {client : Client} {id : String} (retries : Nat) :
    Keeps Calm (retryDelete (κ := κ) client id retries) :=
  retryDelete_frame deleteTask_keeps isLate_keeps retries

theorem logPathsFor_keeps {client : Client} : Keeps Calm (logPathsFor (κ := κ) client) := by
  unfold logPathsFor
  split
  · exact .pure _
  · exact .throw _

theorem prepareLogFiles_keeps {client : Client} {id : String} :
    Keeps Calm (prepareLogFiles (κ := κ) client id) :=
  .bind logPathsFor_keeps fun _ =>
    .bind (fileOp_keeps fun _ => .of_trace_eq ⟨rfl, rfl⟩ rfl rfl rfl) fun _ =>
    .bind (fileOp_keeps fun _ => .of_trace_eq ⟨rfl, rfl⟩ rfl rfl rfl) fun _ => fileOp_keeps fun _ =>
      .of_trace_eq ⟨rfl, rfl⟩ rfl rfl rfl

theorem startTaskOf_keeps {client : Client} {id : String} :
    Keeps Calm (startTaskOf (κ := κ) client id) := by
  have hrecord : Keeps Calm (recordTaskStart (κ := κ) client id) :=
    fun _ => .of_trace_eq ⟨rfl, rfl⟩ rfl rfl rfl
  refine .bind fetchContainerRecord_keeps fun record => .bind query_keeps fun answer => ?_
  cases answer with
  | error code => exact .throw _
  | ok =>
    refine .bind prepareLogFiles_keeps fun _ =>
      .bind (fun _ => .of_trace_eq ⟨rfl, rfl⟩ rfl rfl rfl) fun pid => ?_
    refine .bind taskRequest_keeps fun created => ?_
    cases created with
    | error code => cases code <;> exact .throw _
    | ok =>
      refine .bind taskRequest_keeps fun started => ?_
      cases started with
      | error code => exact .throw _
      | ok => exact .bind hrecord fun _ => .pure _

/-- **Starting a container keeps every snapshot and record**, whether or not it succeeds. -/
theorem startContainer_keeps {client : Client} {id : String} :
    Keeps Calm (startContainer (κ := κ) client id) :=
  .bind startTaskOf_keeps fun _ =>
    .bind (.bind logPathsFor_keeps fun _ => fun _ => .of_trace_eq ⟨rfl, rfl⟩ rfl rfl rfl) fun _ =>
      .pure _

end ContainerdManager.Task
