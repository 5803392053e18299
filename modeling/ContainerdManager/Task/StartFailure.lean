import ContainerdManager.Task.Lifecycle

/-!
# What a failed start leaves behind

`Client::start_container` empties the raw log files before it asks for the
task, and does not take back a task that it cannot start. `Untouched` is
what a failed call should leave; `start_failure_untouched_iff` says when it
does. Tasks change on their own as well, so the task record is compared with
the one there would be without the call.
-/

namespace ContainerdManager.Task

open Lib Containerd Container Logs

variable {κ : Type}

/-- The bytes of a raw log file, none when it does not exist. -/
def rawBytes (w : World κ) (id : String) (stream : LogStream) : Bytes :=
  (w.rawLogs.lookup (id, stream)).getD []

/-- The tasks after `n` steps that do not touch them. -/
def tasksAt (client : Client) (w : World κ) : Nat → Tasks
  | 0 => w.tasks
  | n + 1 => client.drift (w.steps + n) (tasksAt client w n)

/-- Task record, raw logs, start time and tailer of a container are as they were. -/
structure Untouched (client : Client) (id : String) (w w' : World κ) : Prop where
  task : w'.tasks.lookup id = (tasksAt client w (w'.steps - w.steps)).lookup id
  logs : ∀ stream, rawBytes w' id stream = rawBytes w id stream
  start : nsKey client id ∈ w'.taskStarts ↔ nsKey client id ∈ w.taskStarts
  tailer : w'.tailers.lookup (nsKey client id) = w.tailers.lookup (nsKey client id)

/-! ## Where a start can fail -/

/-- The call gets as far as emptying the stdout file. -/
structure EmptiesLogs (client : Client) (id : String) (w : World κ) : Prop where
  get : client.fault w.steps = none
  mounts : client.fault (w.steps + 1) = none
  mounted : ∃ record, w.containers.lookup id = some record ∧
    w.snapshots.mounts record.snapshotter record.snapshotKey = .ok ()
  home : client.home = true
  dir : client.fault (w.steps + 2) = none
  stdout : client.fault (w.steps + 3) = none

/-- `tasks.Create`, the sixth step, is refused. -/
def CreateRefused (client : Client) (id : String) (w : World κ) : Prop :=
  client.fault (w.steps + 5) ≠ none ∨ ((tasksAt client w 6).lookup id).isSome

/-- The tasks `tasks.Start`, the seventh step, meets. -/
def createdTasks (client : Client) (id : String) (w : World κ) : Tasks :=
  client.drift (w.steps + 6) ((tasksAt client w 6).insert id
    { pid := client.pid (w.steps + 5), status := .created, exitStatus := 0 })

def StartRefused (client : Client) (id : String) (w : World κ) : Prop :=
  client.fault (w.steps + 6) ≠ none ∨
    ∀ process, (createdTasks client id w).lookup id = some process → process.status ≠ .created

/-- The files emptied before a failure were empty, and a task that cannot be started is gone by
itself. -/
def StartSpares (client : Client) (id : String) (w : World κ) : Prop :=
  EmptiesLogs client id w →
    (client.fault (w.steps + 4) ≠ none → rawBytes w id .stdout = []) ∧
    (client.fault (w.steps + 4) = none → CreateRefused client id w →
      ∀ stream, rawBytes w id stream = []) ∧
    (client.fault (w.steps + 4) = none → ¬ CreateRefused client id w → StartRefused client id w →
      (∀ stream, rawBytes w id stream = []) ∧
        (createdTasks client id w).lookup id = (tasksAt client w 7).lookup id)

/-! ## The steps of a start -/

/-- `w'` is `w` after `n` steps that emptied some raw files and left the rest alone. -/
structure Later (client : Client) (id : String) (n : Nat) (emptied : List LogStream)
    (w w' : World κ) : Prop where
  steps : w'.steps = w.steps + n
  tasks : w'.tasks = tasksAt client w n
  logs : ∀ stream, rawBytes w' id stream = if stream ∈ emptied then [] else rawBytes w id stream
  starts : w'.taskStarts = w.taskStarts
  tailers : w'.tailers = w.tailers
  snapshots : w'.snapshots = w.snapshots
  containers : w'.containers = w.containers

section Later

variable {client : Client} {id : String} {n : Nat} {emptied : List LogStream} {w w' : World κ}

theorem Later.refl (client : Client) (id : String) (w : World κ) : Later client id 0 [] w w :=
  ⟨rfl, rfl, fun _ => rfl, rfl, rfl, rfl, rfl⟩

theorem Later.advance (h : Later client id n emptied w w') :
    Later client id (n + 1) emptied w (w'.advance client) := by
  refine ⟨congrArg (· + 1) h.steps, ?_, h.logs, h.starts, h.tailers, h.snapshots, h.containers⟩
  show client.drift w'.steps w'.tasks = _
  rw [h.steps, h.tasks, tasksAt]

theorem Later.noted (h : Later client id n emptied w w') (call : Call) (r : Option Code) :
    Later client id (n + 1) emptied w (w'.noted client call r) :=
  ⟨h.advance.steps, h.advance.tasks, h.logs, h.starts, h.tailers, h.snapshots, h.containers⟩

theorem Later.truncate (h : Later client id n emptied w w') (stream : LogStream) :
    Later client id n (stream :: emptied) w (truncateLog id stream w') := by
  refine ⟨h.steps, h.tasks, fun other => ?_, h.starts, h.tailers, h.snapshots, h.containers⟩
  simp only [rawBytes, truncateLog]
  by_cases he : other = stream
  · subst he
    rw [AList.lookup_insert, if_pos List.mem_cons_self]
    rfl
  · rw [AList.lookup_insert_ne fun e => he (Prod.mk.inj e).2]
    have := h.logs other
    rw [rawBytes] at this
    simp [this, he, rawBytes]

/-- What is left untouched in a later world is what was empty before. -/
theorem Later.untouched_iff (h : Later client id n emptied w w') :
    Untouched client id w w' ↔ ∀ stream ∈ emptied, rawBytes w id stream = [] := by
  constructor
  · intro hu stream hs
    have := hu.logs stream
    rw [h.logs, if_pos hs] at this
    exact this.symm
  · intro hempty
    refine ⟨?_, fun stream => ?_, by rw [h.starts], by rw [h.tailers]⟩
    · rw [h.tasks, h.steps, Nat.add_sub_cancel_left]
    · rw [h.logs]
      split
      · rename_i hs
        exact (hempty stream hs).symm
      · rfl

/-- The same when a task was created in the last step but one. -/
theorem Later.untouched_created_iff {tasks : Tasks} (h : Later client id n emptied w w') :
    Untouched client id w { w' with tasks := tasks } ↔
      (∀ stream ∈ emptied, rawBytes w id stream = []) ∧
        tasks.lookup id = (tasksAt client w n).lookup id := by
  have hsteps : w'.steps - w.steps = n := by rw [h.steps, Nat.add_sub_cancel_left]
  rw [← h.untouched_iff]
  constructor
  · intro hu
    have htask := hu.task
    dsimp only at htask
    rw [hsteps] at htask
    exact ⟨⟨by rw [h.tasks, hsteps], hu.logs, hu.start, hu.tailer⟩, htask⟩
  · rintro ⟨hu, htask⟩
    refine ⟨?_, hu.logs, hu.start, hu.tailer⟩
    dsimp only
    rw [hsteps]
    exact htask

end Later

/-- The last part of a start: the task has been created. -/
def startCreated (client : Client) (id : String) (pid : Nat) : Op κ TaskId := do
  match ← taskRequest client (.startTask id) (startAnswer id) with
  | .error code => throw (.containerd "start_task" code)
  | .ok () =>
    recordTaskStart client id
    return { containerId := id, pid := pid }

/-- The part of a start behind the log files. -/
def createAndStart (client : Client) (id : String) (pid : Nat) : Op κ TaskId := do
  match ← taskRequest client (.createTask id) (createAnswer id pid) with
  | .error .alreadyExists => throw (.taskAlreadyExists id)
  | .error code => throw (.containerd "create_task" code)
  | .ok () => startCreated client id pid

theorem startTaskOf_eq (client : Client) (id : String) :
    startTaskOf (κ := κ) client id = (do
      let record ← fetchContainerRecord client id
      match ← query client (.mounts record.snapshotter record.snapshotKey) fun w =>
          w.snapshots.mounts record.snapshotter record.snapshotKey with
      | .error code => throw (.containerd "snapshot_mounts" code)
      | .ok () =>
        prepareLogFiles client id
        let pid ← EStateM.get >>= fun w => pure (client.pid w.steps)
        createAndStart client id pid) := rfl

theorem createAnswer_cases (id : String) (pid : Nat) (tasks : Tasks) :
    ((tasks.lookup id).isSome ∧ createAnswer id pid tasks = .error .alreadyExists) ∨
    (tasks.lookup id = none ∧ createAnswer id pid tasks =
      .ok (tasks.insert id { pid := pid, status := .created, exitStatus := 0 })) := by
  unfold createAnswer
  cases tasks.lookup id with
  | some process => exact .inl ⟨rfl, rfl⟩
  | none => exact .inr ⟨rfl, rfl⟩

theorem startAnswer_cases (id : String) (tasks : Tasks) :
    ((∀ process, tasks.lookup id = some process → process.status ≠ .created) ∧
      ∃ code, startAnswer id tasks = .error code) ∨
    ((∃ process, tasks.lookup id = some process ∧ process.status = .created) ∧
      ∃ tasks', startAnswer id tasks = .ok tasks') := by
  unfold startAnswer
  cases tasks.lookup id with
  | none => exact .inl ⟨by simp, _, rfl⟩
  | some process =>
    dsimp only
    split
    · rename_i hs
      exact .inr ⟨⟨process, rfl, hs⟩, _, rfl⟩
    · rename_i hs
      refine .inl ⟨fun other h => ?_, _, rfl⟩
      cases h
      exact hs

section Start

variable {client : Client} {id : String} {w v : World κ}

/-- The log files: nothing is emptied, stdout is, or both are. -/
theorem prepareLogFiles_cases (h : Later client id 2 [] w v) :
    (∃ e v' n, (client.home = false ∨ client.fault (w.steps + 2) ≠ none ∨
        client.fault (w.steps + 3) ≠ none) ∧
      prepareLogFiles client id v = .error e v' ∧ Later client id n [] w v') ∨
    (client.home = true ∧ client.fault (w.steps + 2) = none ∧ client.fault (w.steps + 3) = none ∧
      ((∃ e v', client.fault (w.steps + 4) ≠ none ∧ prepareLogFiles client id v = .error e v' ∧
        Later client id 5 [.stdout] w v') ∨
      (∃ v', client.fault (w.steps + 4) = none ∧ prepareLogFiles client id v = .ok () v' ∧
        Later client id 5 [.stderr, .stdout] w v'))) := by
  unfold prepareLogFiles
  cases hhome : client.home with
  | false =>
    have hlog : logPathsFor client v = .error (.io "home directory") v := by
      unfold logPathsFor
      rw [hhome]
      rfl
    exact .inl ⟨_, _, _, .inl rfl, bind_error hlog, h⟩
  | true =>
    have hlog : logPathsFor client v = .ok () v := by
      unfold logPathsFor
      rw [hhome]
      rfl
    rw [bind_ok hlog]
    have hdir := h.advance
    rcases fileOp_cases client "create task log dir" (fun w => w) v with ⟨hf2, hr⟩ | ⟨hf2, hr⟩
    · rw [h.steps] at hf2
      rw [bind_ok hr]
      rcases fileOp_cases client "create task stdout log" (truncateLog id .stdout)
        (v.advance client) with ⟨hf3, hr⟩ | ⟨hf3, hr⟩
      · rw [hdir.steps] at hf3
        rw [bind_ok hr]
        have hout := hdir.advance.truncate .stdout
        refine .inr ⟨rfl, hf2, hf3, ?_⟩
        rcases fileOp_cases client "create task stderr log" (truncateLog id .stderr)
          (truncateLog id .stdout ((v.advance client).advance client)) with ⟨hf4, hr⟩ | ⟨hf4, hr⟩
        · rw [hout.steps] at hf4
          exact .inr ⟨_, hf4, hr, hout.advance.truncate .stderr⟩
        · rw [hout.steps] at hf4
          exact .inl ⟨_, _, hf4, hr, hout.advance⟩
      · rw [hdir.steps] at hf3
        exact .inl ⟨_, _, _, .inr (.inr hf3), bind_error hr, hdir.advance⟩
    · rw [h.steps] at hf2
      exact .inl ⟨_, _, _, .inr (.inl hf2), bind_error hr, hdir⟩

/-- `tasks.Start` is refused, or the task runs. -/
theorem startCreated_cases {emptied : List LogStream} (pid : Nat)
    (h : Later client id 6 emptied w v) (hpid : pid = client.pid (w.steps + 5)) :
    (∃ e v', StartRefused client id w ∧
      startCreated client id pid
          { v with
            tasks := v.tasks.insert id { pid := pid, status := .created, exitStatus := 0 } } =
        .error e { v' with tasks := createdTasks client id w } ∧
      Later client id 7 emptied w v') ∨
    (∃ taskId v', ¬ StartRefused client id w ∧
      startCreated client id pid
          { v with
            tasks := v.tasks.insert id { pid := pid, status := .created, exitStatus := 0 } } =
        .ok taskId v') := by
  have hmeets : client.drift v.steps
      (v.tasks.insert id { pid := pid, status := .created, exitStatus := 0 }) =
      createdTasks client id w := by
    rw [h.steps, h.tasks, hpid, createdTasks]
  unfold startCreated
  rcases taskRequest_cases client (.startTask id) (startAnswer id)
      { v with tasks := v.tasks.insert id { pid := pid, status := .created, exitStatus := 0 } } with
    ⟨tasks, hf, ha, hr⟩ | ⟨code, hc, hr⟩
  · rw [bind_ok hr]
    dsimp only at hf ha
    rw [hmeets] at ha
    rw [h.steps] at hf
    refine .inr ⟨_, _, ?_, rfl⟩
    rintro (hfault | hstatus)
    · exact hfault hf
    · obtain ⟨-, code, ha'⟩ | ⟨⟨process, hp, hs⟩, -⟩ :=
        startAnswer_cases id (createdTasks client id w)
      · rw [ha'] at ha
        cases ha
      · exact hstatus process hp hs
  · rw [bind_ok hr]
    dsimp only at hc
    rw [hmeets, h.steps] at hc
    refine .inl ⟨.containerd "start_task" code, v.noted client (.startTask id) (some code), ?_, ?_,
      h.noted _ _⟩
    · rcases hc with hf | ⟨-, ha⟩
      · exact .inl (by rw [hf]; simp)
      · obtain ⟨hstatus, -⟩ | ⟨-, tasks', ha'⟩ := startAnswer_cases id (createdTasks client id w)
        · exact .inr hstatus
        · rw [ha'] at ha
          cases ha
    · rw [← hmeets]
      rfl

/-- The two task requests: `Create` is refused, `Start` is, or the task runs. -/
theorem createAndStart_cases {emptied : List LogStream} (h : Later client id 5 emptied w v) :
    (∃ e v', CreateRefused client id w ∧
      (client.fault (w.steps + 5) = none → e = .taskAlreadyExists id) ∧
      createAndStart client id (client.pid v.steps) v = .error e v' ∧
      Later client id 6 emptied w v') ∨
    (∃ e v', ¬ CreateRefused client id w ∧ StartRefused client id w ∧
      createAndStart client id (client.pid v.steps) v =
        .error e { v' with tasks := createdTasks client id w } ∧
      Later client id 7 emptied w v') ∨
    (∃ taskId v', ¬ CreateRefused client id w ∧ ¬ StartRefused client id w ∧
      createAndStart client id (client.pid v.steps) v = .ok taskId v') := by
  have htasks : client.drift v.steps v.tasks = tasksAt client w 6 := h.advance.tasks
  have hanswer := createAnswer_cases id (client.pid v.steps) (tasksAt client w 6)
  unfold createAndStart
  rcases taskRequest_cases client (.createTask id) (createAnswer id (client.pid v.steps)) v with
    ⟨tasks, hf, ha, hr⟩ | ⟨code, hc, hr⟩
  · rw [bind_ok hr]
    rw [htasks] at ha
    rw [h.steps] at hf
    obtain ⟨-, ha'⟩ | ⟨hnone, ha'⟩ := hanswer
    · rw [ha'] at ha
      cases ha
    · rw [ha', ← htasks] at ha
      cases ha
      have hcreated : ¬ CreateRefused client id w := by
        rintro (hfault | hsome)
        · exact hfault hf
        · rw [hnone] at hsome
          cases hsome
      obtain ⟨e, v', hs, hr, hl⟩ | ⟨taskId, v', hs, hr⟩ :=
        startCreated_cases (client.pid v.steps) (h.noted (.createTask id) none) (by rw [h.steps])
      · exact .inr (.inl ⟨e, v', hcreated, hs, hr, hl⟩)
      · exact .inr (.inr ⟨taskId, v', hcreated, hs, hr⟩)
  · rw [bind_ok hr]
    rw [htasks] at hc
    have hlater := h.noted (.createTask id) (some code)
    rcases hc with hf | ⟨-, ha⟩
    · rw [h.steps] at hf
      have hrefused : CreateRefused client id w := .inl (by rw [hf]; simp)
      have hfault : client.fault (w.steps + 5) = none → ∀ e : Error, e = .taskAlreadyExists id :=
        fun hn => by rw [hf] at hn; cases hn
      cases code <;> exact .inl ⟨_, _, hrefused, fun hn => hfault hn _, rfl, hlater⟩
    · obtain ⟨hsome, ha'⟩ | ⟨-, ha'⟩ := hanswer
      · rw [ha'] at ha
        cases ha
        exact .inl ⟨_, _, .inr hsome, fun _ => rfl, rfl, hlater⟩
      · rw [ha'] at ha
        cases ha

/-- The ways a start can end. -/
inductive StartOutcome (client : Client) (id : String) (w : World κ) :
    EStateM.Result Error (World κ) TaskId → Prop
  | early {e : Error} {w' : World κ} {n : Nat} (h : ¬ EmptiesLogs client id w)
      (hl : Later client id n [] w w') : StartOutcome client id w (.error e w')
  | stderrFails {e : Error} {w' : World κ} (h : EmptiesLogs client id w)
      (h4 : client.fault (w.steps + 4) ≠ none) (hl : Later client id 5 [.stdout] w w') :
      StartOutcome client id w (.error e w')
  | createFails {e : Error} {w' : World κ} (h : EmptiesLogs client id w)
      (h4 : client.fault (w.steps + 4) = none) (hc : CreateRefused client id w)
      (he : client.fault (w.steps + 5) = none → e = .taskAlreadyExists id)
      (hl : Later client id 6 [.stderr, .stdout] w w') : StartOutcome client id w (.error e w')
  | startFails {e : Error} {w' : World κ} (h : EmptiesLogs client id w)
      (h4 : client.fault (w.steps + 4) = none) (hc : ¬ CreateRefused client id w)
      (hs : StartRefused client id w) (hl : Later client id 7 [.stderr, .stdout] w w') :
      StartOutcome client id w (.error e { w' with tasks := createdTasks client id w })
  | started {taskId : TaskId} {w' : World κ} (h : EmptiesLogs client id w)
      (h4 : client.fault (w.steps + 4) = none) (hc : ¬ CreateRefused client id w)
      (hs : ¬ StartRefused client id w) : StartOutcome client id w (.ok taskId w')

/-- **What a start can do**, by the first of its steps that fails. -/
theorem startTaskOf_outcome (client : Client) (id : String) (w : World κ) :
    StartOutcome client id w (startTaskOf client id w) := by
  have h0 := Later.refl client id w
  rw [startTaskOf_eq]
  rcases fetchContainerRecord_cases client id w with ⟨record, hf0, hl, hr⟩ | ⟨e, code, hwhy, hr⟩
  · rw [bind_ok hr]
    have h1 := h0.noted (.getContainer id) none
    rcases query_cases client (.mounts record.snapshotter record.snapshotKey)
        (fun w => w.snapshots.mounts record.snapshotter record.snapshotKey)
        (w.noted client (.getContainer id) none) with ⟨a, hf1, ha, hr⟩ | ⟨code, hc, hr⟩
    · rw [bind_ok hr]
      dsimp only
      have h2 := h1.noted (.mounts record.snapshotter record.snapshotKey) none
      obtain ⟨e, v, n, hwhy, hr, hl'⟩ | ⟨hhome, hf2, hf3, hstderr⟩ := prepareLogFiles_cases h2
      · rw [bind_error hr]
        refine .early (fun hempties => ?_) hl'
        rcases hwhy with hhome | hf2 | hf3
        · rw [hempties.home] at hhome
          cases hhome
        · exact hf2 hempties.dir
        · exact hf3 hempties.stdout
      · have hempties : EmptiesLogs client id w := ⟨hf0, hf1, ⟨record, hl, ha⟩, hhome, hf2, hf3⟩
        obtain ⟨e, v, hf4, hr, hl'⟩ | ⟨v, hf4, hr, hl'⟩ := hstderr
        · rw [bind_error hr]
          exact .stderrFails hempties hf4 hl'
        · rw [bind_ok hr]
          have hpid : (EStateM.get >>= fun w => pure (client.pid w.steps) : Op κ Nat) v =
            .ok (client.pid v.steps) v := rfl
          rw [bind_ok hpid]
          obtain ⟨e, v', hc, he, hr, hl'⟩ | ⟨e, v', hc, hs, hr, hl'⟩ | ⟨taskId, v', hc, hs, hr⟩ :=
            createAndStart_cases hl'
          · rw [hr]
            exact .createFails hempties hf4 hc he hl'
          · rw [hr]
            exact .startFails hempties hf4 hc hs hl'
          · rw [hr]
            exact .started hempties hf4 hc hs
    · rw [bind_ok hr]
      refine .early (fun hempties => ?_) (h1.noted _ (some code))
      obtain ⟨record', hl', hm⟩ := hempties.mounted
      rw [hl] at hl'
      cases hl'
      rcases hc with hf | ⟨-, ha⟩
      · exact absurd (hf.symm.trans hempties.mounts) (by simp)
      · exact absurd (ha.symm.trans hm) (by simp)
  · rw [bind_error hr]
    refine .early (fun hempties => ?_) (h0.noted _ (some code))
    rcases hwhy with hf | hl
    · exact hf hempties.get
    · obtain ⟨record, hl', -⟩ := hempties.mounted
      rw [hl] at hl'
      cases hl'

/-- The tailer adds no way to fail: it needs the home directory the log files needed. -/
theorem startContainer_outcome (client : Client) (id : String) (w : World κ) :
    StartOutcome client id w (startContainer client id w) := by
  have h := startTaskOf_outcome client id w
  unfold startContainer
  cases hr : startTaskOf client id w with
  | error e w' =>
    rw [bind_error hr, ← hr]
    exact h
  | ok taskId w' =>
    rw [hr] at h
    cases h with
    | started h h4 hc hs =>
      have ht : startManagedTailer client id w' =
          .ok () { w' with tailers := w'.tailers.insert (nsKey client id) w'.steps } := by
        unfold startManagedTailer logPathsFor
        rw [if_pos h.home]
        rfl
      rw [bind_ok hr, bind_ok ht]
      exact .started h h4 hc hs

theorem forall_streams {p : LogStream → Prop} : (∀ stream ∈ [LogStream.stderr, .stdout], p stream) ↔
    ∀ stream, p stream := by
  constructor
  · intro h stream
    cases stream <;> exact h _ (by simp)
  · exact fun h stream _ => h stream

end Start

/-- **A failed start leaves the container as it was exactly if nothing was lost on the way**: the
raw log files are emptied before the task is asked for, and a task that was created stays when it
cannot be started. A task that exists is always reported. -/
theorem start_failure_untouched_iff (client : Client) (id : String) (w : World κ) :
    ((∀ e w', startContainer client id w = .error e w' → Untouched client id w w') ↔
      StartSpares client id w) ∧
    (EmptiesLogs client id w → client.fault (w.steps + 4) = none →
      client.fault (w.steps + 5) = none → ((tasksAt client w 6).lookup id).isSome →
      result (startContainer client id) w = .error (.taskAlreadyExists id)) := by
  have h := startContainer_outcome client id w
  cases hr : startContainer client id w with
  | ok taskId w' =>
    rw [hr] at h
    cases h with
    | started hempties h4 hc hs =>
      refine ⟨⟨fun _ _ => ⟨fun h => absurd h4 h, fun _ h => absurd h hc, fun _ _ h => absurd h hs⟩,
        fun _ e w' h => by cases h⟩, fun _ _ _ hsome => absurd (.inr hsome) hc⟩
  | error e w' =>
    rw [hr] at h
    rw [← hr, forall_error_of_error hr, result_error hr]
    cases h with
    | early hearly hl =>
      rw [hl.untouched_iff]
      exact ⟨iff_of_true (by simp) fun h => absurd h hearly, fun h => absurd h hearly⟩
    | stderrFails hempties h4 hl =>
      rw [hl.untouched_iff, List.forall_mem_singleton]
      refine ⟨⟨fun hempty _ => ⟨fun _ => hempty, fun h => absurd h h4, fun h => absurd h h4⟩,
        fun hspares => (hspares hempties).1 h4⟩, fun _ h => absurd h h4⟩
    | createFails hempties h4 hc he hl =>
      rw [hl.untouched_iff, forall_streams]
      refine ⟨⟨fun hempty _ => ⟨fun _ => hempty _, fun _ _ => hempty, fun _ h => absurd hc h⟩,
        fun hspares => (hspares hempties).2.1 h4 hc⟩, fun _ _ h5 _ => by rw [he h5]⟩
    | startFails hempties h4 hc hs hl =>
      rw [hl.untouched_created_iff, forall_streams]
      refine ⟨⟨fun hboth _ => ⟨fun h => absurd h4 h, fun _ h => absurd h hc, fun _ _ _ => hboth⟩,
        fun hspares => (hspares hempties).2.2 h4 hc hs⟩, fun _ _ _ hsome => absurd (.inr hsome) hc⟩

/-- A container that has written a line which is not drained yet. -/
def unstartedWorld : World Unit where
  snapshots := (∅ : Snapshots Unit).insert ("overlayfs", "web-snapshot")
    { kind := .active, parent := "", labels := ∅, content := () }
  containers := (∅ : AList fun _ : String => ContainerRecord).insert "web"
    { image := "mongo", snapshotter := "overlayfs", snapshotKey := "web-snapshot" }
  rawLogs := (∅ : AList fun _ : String × LogStream => Bytes).insert ("web", .stdout) [104, 105, 10]

def busyWorld : World Unit :=
  { unstartedWorld with
    tasks := (∅ : Tasks).insert "web" { pid := 7, status := .running, exitStatus := 0 } }

/-- `tasks.Start` fails. -/
def flakyStart : Client where
  fault n := if n = 6 then some .unavailable else none

/-- **Starting a running container drops its undrained line, and a failed `tasks.Start`
leaves a task record.** -/
theorem start_failure_loses :
    (¬ ∀ e w', startContainer {} "web" busyWorld = .error e w' → Untouched {} "web" busyWorld w') ∧
    ¬ ∀ e w', startContainer flakyStart "web" unstartedWorld = .error e w' →
      w'.tasks.lookup "web" = none := by
  constructor
  · intro h
    have hr : result (startContainer {} "web") busyWorld = .error (.taskAlreadyExists "web") := by
      decide +kernel
    have hlogs := (h _ _ (error_of_result hr)).logs .stdout
    revert hlogs
    decide +kernel
  · intro h
    have hr : result (startContainer flakyStart "web") unstartedWorld =
        .error (.containerd "start_task" .unavailable) := by
      decide +kernel
    have htask := h _ _ (error_of_result hr)
    revert htask
    decide +kernel

end ContainerdManager.Task
