import ContainerdManager.Task.Lifecycle

/-!
# What a stop is told

`stop_container` puts its result together from helpers that take a missing
task and a failed `tasks.Get` for the same thing. The replies it receives are
listed here beside the code, request by request; `trace_heardStop` says that
they are those the world has on record. `stop_settled_iff` says when a stop
that succeeds was told that the task is gone.
-/

namespace ContainerdManager.Task

open Lib Containerd

variable {κ α : Type}

/-! ## Replies -/

def killAnswer (id : String) (w : World κ) : Except Code Unit :=
  (w.tasks.lookup id).elim (.error .notFound) fun _ => .ok ()

/-- A request with its reply; the status is that of a `tasks.Get`. -/
structure Reply where
  call : Call
  answer : Except Code (Option Status)

/-- What the world keeps of a reply. -/
def Reply.entry (r : Reply) : Call × Option Code := (r.call, errorCode r.answer)

/-- A definite answer about a task. -/
inductive News where
  | status (reported : Status)
  | taskMissing
  | containerMissing
  deriving DecidableEq, Repr

/-- A signal that was accepted says nothing of the status, nor does any other failure. -/
def Reply.news? (r : Reply) : Option News :=
  match r.call, r.answer with
  | .getTask _, .ok (some status) => some (.status status)
  | .getTask _, .error .notFound => some .taskMissing
  | .killTask _ _, .error .notFound => some .taskMissing
  | .getContainer _, .error .notFound => some .containerMissing
  | _, _ => none

def News.gone : News → Bool
  | .status reported => reported = .stopped
  | .taskMissing | .containerMissing => true

def lastNews (heard : List Reply) : Option News := (heard.filterMap Reply.news?).getLast?

/-- The last definite answer is that the task has stopped or is missing. -/
def Settled (heard : List Reply) : Prop := (lastNews heard).any News.gone = true

section Settled

variable {heard : List Reply} {r : Reply} {n : News}

theorem settled_news (h : r.news? = some n) : Settled (heard ++ [r]) ↔ n.gone = true := by
  simp [Settled, lastNews, List.filterMap_append, h]

theorem settled_silent (h : r.news? = none) : Settled (heard ++ [r]) ↔ Settled heard := by
  simp [Settled, lastNews, List.filterMap_append, h]

end Settled

/-! ## What each helper is told -/

def heardKill (client : Client) (id : String) (signal : Nat) (w : World κ) : List Reply :=
  [⟨.killTask id signal, (queried client (killAnswer id) w).map fun _ => none⟩]

def heardTask (client : Client) (id : String) (w : World κ) : List Reply :=
  [⟨.getTask id, (queried client (taskAnswer id) w).map fun process => some process.status⟩]

def heardContainer (client : Client) (id : String) (w : World κ) : List Reply :=
  [⟨.getContainer id, (queried client (containerAnswer id) w).map fun _ => none⟩]

/-- The task is asked for only when the container is there. -/
def heardInspect (client : Client) (id : String) (w : World κ) : List Reply :=
  heardContainer client id w ++
    match queried client (containerAnswer id) w with
    | .ok _ => heardTask client id (after (getContainer client id) w)
    | .error _ => []

def heardRounds (client : Client) (id : String) : Nat → World κ → List Reply
  | 0, _ => []
  | rounds + 1, w =>
    if client.late w.steps then []
    else heardInspect client id (w.advance client) ++
      match taskStopped client id (w.advance client) with
      | .ok false w' => heardRounds client id rounds w'
      | _ => []

def heardWait (client : Client) (id : String) (timeout : Nat) (w : World κ) : List Reply :=
  heardRounds client id (timeout / (100 * ms) + 1) w

def sigtermGrace (timeout : Nat) : Nat := min (timeout / 2) (5000 * ms)

/-- The world in which `is_task_running` looks. -/
def lookWorld (client : Client) (id : String) (timeout : Nat) (w : World κ) : World κ :=
  after (waitForTaskStop client id (sigtermGrace timeout)) (after (stopTask client id) w)

/-- What a stop is told before that look. -/
def heardBefore (client : Client) (id : String) (timeout : Nat) (w : World κ) : List Reply :=
  heardKill client id sigterm w ++
    heardWait client id (sigtermGrace timeout) (after (stopTask client id) w)

/-- What a stop is told. -/
def heardStop (client : Client) (id : String) (timeout : Nat) (w : World κ) : List Reply :=
  heardBefore client id timeout w ++ heardTask client id (lookWorld client id timeout w) ++
    match isTaskRunning client id (lookWorld client id timeout w) with
    | .ok true v' => heardKill client id sigkill v' ++
        heardWait client id (timeout - sigtermGrace timeout) (after (killTask client id sigkill) v')
    | _ => []

section Requests

variable (client : Client) (id : String) (w : World κ)

theorem isTaskRunning_eq :
    isTaskRunning client id w =
      .ok ((queried client (taskAnswer id) w).toOption.any fun process =>
          TaskStatus.from process.status = .running)
        (w.noted client (.getTask id) (errorCode (queried client (taskAnswer id) w))) := by
  refine (bind_ok (getTaskInfo_eq client id w)).trans ?_
  cases queried client (taskAnswer id) w <;> rfl

theorem fetchContainerRecord_error {v : World κ} {code : Code}
    (h : getContainer client id w = .ok (.error code) v) :
    fetchContainerRecord client id w =
      .error (if code = .notFound then .containerNotFound id else .containerd "get_container" code)
        v := by
  refine (bind_ok h).trans ?_
  cases code <;> rfl

theorem after_stopTask :
    after (stopTask client id) w = w.noted client (.killTask id sigterm)
      (errorCode (queried client (killAnswer id) w)) := by
  have hq : kill client id sigterm w = _ := query_eq client (.killTask id sigterm) (killAnswer id) w
  refine (after_bind_ok hq).trans ?_
  cases queried client (killAnswer id) w with
  | ok => rfl
  | error code => cases code <;> rfl

theorem after_killTask (signal : Nat) :
    after (killTask client id signal) w = w.noted client (.killTask id signal)
      (errorCode (queried client (killAnswer id) w)) := by
  have hq : kill client id signal w = _ := query_eq client (.killTask id signal) (killAnswer id) w
  refine (after_bind_ok hq).trans ?_
  cases queried client (killAnswer id) w with
  | ok => rfl
  | error code => cases code <;> rfl

end Requests

/-! ## The world keeps the replies -/

section Trace

variable (client : Client) (id : String)

theorem entry_heardTask (w : World κ) : (heardTask client id w).map Reply.entry =
    [(.getTask id, errorCode (queried client (taskAnswer id) w))] := by
  unfold heardTask
  cases queried client (taskAnswer id) w <;> rfl

theorem entry_heardKill (signal : Nat) (w : World κ) :
    (heardKill client id signal w).map Reply.entry =
    [(.killTask id signal, errorCode (queried client (killAnswer id) w))] := by
  unfold heardKill
  cases queried client (killAnswer id) w <;> rfl

/-- **What a look can do**: a container that fails to be found ends it as `NotFound` or not; of one
that is found the task decides, and a failed `tasks.Get` counts as no task. -/
theorem taskStopped_cases (w : World κ) :
    (∃ code, queried client (containerAnswer id) w = .error code ∧
      heardInspect client id w = [⟨.getContainer id, .error code⟩] ∧
      taskStopped client id w =
        .ok (code = .notFound) (w.noted client (.getContainer id) (some code))) ∨
    ∃ record v, queried client (containerAnswer id) w = .ok record ∧
      v = w.noted client (.getContainer id) none ∧
      heardInspect client id w = [⟨.getContainer id, .ok none⟩] ++ heardTask client id v ∧
      taskStopped client id w =
        .ok ((queried client (taskAnswer id) v).toOption.all fun process =>
            TaskStatus.from process.status = .stopped)
          (v.noted client (.getTask id) (errorCode (queried client (taskAnswer id) v))) := by
  have hget := getContainer_eq client id w
  cases hc : queried client (containerAnswer id) w with
  | error code =>
    rw [hc] at hget
    refine .inl ⟨code, rfl, by rw [heardInspect, heardContainer, hc]; rfl, ?_⟩
    have hinspect : inspectContainer client id w = _ :=
      bind_error (fetchContainerRecord_error client id w hget)
    refine (bind_ok (attempt_error hinspect)).trans ?_
    cases code <;> rfl
  | ok record =>
    rw [hc] at hget
    refine .inr ⟨record, _, rfl, rfl, ?_, ?_⟩
    · rw [heardInspect, heardContainer, hc]
      dsimp only
      rw [after_ok hget]
      rfl
    · have htask := getTaskInfo_eq client id (w.noted client (.getContainer id) none)
      have hfetch : fetchContainerRecord client id w = _ := bind_ok hget
      have hinspect : inspectContainer client id w = _ := (bind_ok hfetch).trans (bind_ok htask)
      refine (bind_ok (attempt_ok hinspect)).trans ?_
      cases queried client (taskAnswer id) (w.noted client (.getContainer id) none) <;> rfl

theorem taskStopped_total (w : World κ) : ∃ stopped v, taskStopped client id w = .ok stopped v := by
  rcases taskStopped_cases client id w with ⟨code, -, -, hr⟩ | ⟨record, v, -, -, -, hr⟩
  · exact ⟨_, _, hr⟩
  · exact ⟨_, _, hr⟩

theorem trace_heardInspect (w : World κ) : (after (taskStopped client id) w).trace =
    w.trace ++ (heardInspect client id w).map Reply.entry := by
  rcases taskStopped_cases client id w with ⟨code, -, hheard, hr⟩ | ⟨record, v, -, rfl, hheard, hr⟩
  · rw [after_ok hr, hheard]
    rfl
  · rw [after_ok hr, hheard, List.map_append, entry_heardTask, noted_trace, noted_trace,
      List.append_assoc]
    rfl

theorem trace_heardRounds (msg : String) (rounds : Nat) (w : World κ) :
    (after (pollRounds client msg (taskStopped client id) rounds) w).trace =
      w.trace ++ (heardRounds client id rounds w).map Reply.entry := by
  induction rounds generalizing w with
  | zero => exact (List.append_nil _).symm
  | succ rounds ih =>
    have hlook := trace_heardInspect client id (w.advance client)
    have hl : isLate client w = .ok (client.late w.steps) (w.advance client) := rfl
    rw [pollRounds, after_bind_ok hl, heardRounds]
    cases client.late w.steps with
    | true => exact (List.append_nil _).symm
    | false =>
      rw [if_neg (by simp), if_neg (by simp)]
      obtain ⟨stopped, v, hr⟩ := taskStopped_total client id (w.advance client)
      rw [after_ok hr] at hlook
      rw [after_bind_ok hr, hr]
      cases stopped with
      | true =>
        rw [List.append_nil]
        exact hlook
      | false =>
        rw [if_neg (by simp), ih v, hlook, List.map_append, List.append_assoc]
        rfl

theorem trace_heardWait (timeout : Nat) (w : World κ) :
    (after (waitForTaskStop client id timeout) w).trace =
      w.trace ++ (heardWait client id timeout w).map Reply.entry :=
  trace_heardRounds client id _ _ w

/-- A stop, from `is_task_running` on. -/
theorem stopContainer_eq (timeout : Nat) (w : World κ) :
    stopContainer client id timeout w =
      (do
        if ← isTaskRunning client id then do
          let _ ← attempt (killTask client id sigkill)
          waitForTaskStop client id (timeout - sigtermGrace timeout)
        else pure () : Op κ Unit) (lookWorld client id timeout w) := by
  obtain ⟨termed, hterm⟩ := attempt_eq (stopTask client id) w
  obtain ⟨waited, hwait⟩ := attempt_eq (waitForTaskStop client id (sigtermGrace timeout))
    (after (stopTask client id) w)
  exact (bind_ok hterm).trans (bind_ok hwait)

theorem stopContainer_idle {timeout : Nat} {w v : World κ}
    (h : isTaskRunning client id (lookWorld client id timeout w) = .ok false v) :
    stopContainer client id timeout w = .ok () v :=
  (stopContainer_eq client id timeout w).trans (bind_ok h)

theorem stopContainer_running {timeout : Nat} {w v : World κ}
    (h : isTaskRunning client id (lookWorld client id timeout w) = .ok true v) :
    stopContainer client id timeout w =
      waitForTaskStop client id (timeout - sigtermGrace timeout)
        (after (killTask client id sigkill) v) := by
  obtain ⟨killed, hkill⟩ := attempt_eq (killTask client id sigkill) v
  exact (stopContainer_eq client id timeout w).trans ((bind_ok h).trans (bind_ok hkill))

theorem heardStop_idle {timeout : Nat} {w v : World κ}
    (h : isTaskRunning client id (lookWorld client id timeout w) = .ok false v) :
    heardStop client id timeout w =
      heardBefore client id timeout w ++ heardTask client id (lookWorld client id timeout w) := by
  unfold heardStop
  rw [h]
  exact List.append_nil _

theorem heardStop_running {timeout : Nat} {w v : World κ}
    (h : isTaskRunning client id (lookWorld client id timeout w) = .ok true v) :
    heardStop client id timeout w =
      heardBefore client id timeout w ++ heardTask client id (lookWorld client id timeout w) ++
        heardKill client id sigkill v ++
        heardWait client id (timeout - sigtermGrace timeout)
          (after (killTask client id sigkill) v) := by
  unfold heardStop
  rw [h]
  exact (List.append_assoc _ _ _).symm

/-- **The replies listed for a stop are those the world has on record.** -/
theorem trace_heardStop (timeout : Nat) (w : World κ) :
    (after (stopContainer client id timeout) w).trace =
    w.trace ++ (heardStop client id timeout w).map Reply.entry := by
  have hbefore : (lookWorld client id timeout w).trace =
      w.trace ++ (heardBefore client id timeout w).map Reply.entry := by
    rw [lookWorld, trace_heardWait, heardBefore, after_stopTask, List.map_append, entry_heardKill,
      noted_trace, List.append_assoc]
  have hlook := isTaskRunning_eq client id (lookWorld client id timeout w)
  generalize Option.any _ _ = running at hlook
  cases running with
  | false =>
    rw [after_ok (stopContainer_idle client id hlook), heardStop_idle client id hlook, noted_trace,
      hbefore,
      List.map_append, entry_heardTask, List.append_assoc]
  | true =>
    have hrun := congrArg (fun m => after (fun _ => m) w) (stopContainer_running client id hlook)
    rw [heardStop_running client id hlook, List.map_append, List.map_append, List.map_append,
      entry_heardTask,
      entry_heardKill]
    refine (congrArg World.trace hrun).trans ?_
    refine (trace_heardWait client id _ _).trans ?_
    rw [after_killTask, noted_trace, noted_trace, hbefore]
    simp only [List.append_assoc]

end Trace

/-! ## When a stop is told that the task is gone -/

/-- A `tasks.Get` issued in `w` does not fail otherwise than `NotFound`, or the task is
known to be gone. -/
def Sighted (client : Client) (id : String) (heard : List Reply) (w : World κ) : Prop :=
  ∀ code, queried client (taskAnswer id) w = .error code → code = .notFound ∨ Settled heard

/-- The same for a look of a wait. -/
def LookSighted (client : Client) (id : String) (heard : List Reply) (w : World κ) : Prop :=
  ∀ record, queried client (containerAnswer id) w = .ok record →
    Sighted client id heard (w.noted client (.getContainer id) none)

/-- The same for every look of a wait. -/
def WaitSighted (client : Client) (id : String) : Nat → List Reply → World κ → Prop
  | 0, _, _ => True
  | rounds + 1, heard, w =>
    client.late w.steps = false → LookSighted client id heard (w.advance client) ∧
      ∀ v, taskStopped client id (w.advance client) = .ok false v →
        WaitSighted client id rounds (heard ++ heardInspect client id (w.advance client)) v

/-- What a stop must be told: the task that `is_task_running` looks at runs, has stopped or
is missing, and neither this look nor one of the wait after SIGKILL takes a failed
`tasks.Get` for a missing task. -/
structure StopSighted (client : Client) (id : String) (timeout : Nat) (w : World κ) : Prop where
  status : ∀ process, queried client (taskAnswer id) (lookWorld client id timeout w) = .ok process →
    TaskStatus.from process.status = .running ∨ process.status = .stopped
  look : Sighted client id (heardBefore client id timeout w) (lookWorld client id timeout w)
  wait : ∀ v, isTaskRunning client id (lookWorld client id timeout w) = .ok true v →
    WaitSighted client id ((timeout - sigtermGrace timeout) / (100 * ms) + 1)
      (heardBefore client id timeout w ++ heardTask client id (lookWorld client id timeout w) ++
        heardKill client id sigkill v)
      (after (killTask client id sigkill) v)

section Sighted

variable {client : Client} {id : String} {heard : List Reply} {w v : World κ}

theorem from_eq_stopped {status : Status} :
    TaskStatus.from status = .stopped ↔ status = .stopped := by
  cases status <;> simp [TaskStatus.from]

theorem settled_heardTask_error {code : Code} (h : queried client (taskAnswer id) w = .error code) :
    Settled (heard ++ heardTask client id w) ↔ code = .notFound ∨ Settled heard := by
  rw [heardTask, h]
  by_cases hcode : code = .notFound
  · subst hcode
    exact (settled_news rfl).trans (by simp [News.gone])
  · have hsilent : Reply.news? ⟨.getTask id, .error code⟩ = none := by
      cases code <;> first | rfl | exact absurd rfl hcode
    exact (settled_silent hsilent).trans (by simp [hcode])

theorem settled_heardTask_ok {process : Process}
    (h : queried client (taskAnswer id) w = .ok process) :
    Settled (heard ++ heardTask client id w) ↔ process.status = .stopped := by
  rw [heardTask, h]
  exact (settled_news rfl).trans (by simp [News.gone])

/-- The look that ends a wait leaves the task known to be gone exactly if it is sighted. -/
theorem settled_of_stopped (h : taskStopped client id w = .ok true v) :
    Settled (heard ++ heardInspect client id w) ↔ LookSighted client id heard w := by
  rcases taskStopped_cases client id w with ⟨code, hc, hheard, hr⟩ |
    ⟨record, u, hc, rfl, hheard, hr⟩
  · have hcode : code = .notFound := by
      rw [h] at hr
      simpa using (EStateM.Result.ok.inj hr).1
    subst hcode
    rw [hheard]
    refine iff_of_true ((settled_news rfl).mpr rfl) fun record hrecord => ?_
    rw [hc] at hrecord
    cases hrecord
  · have hsilent : Reply.news? ⟨.getContainer id, .ok none⟩ = none := rfl
    rw [hheard, ← List.append_assoc]
    cases ht : queried client (taskAnswer id) (w.noted client (.getContainer id) none) with
    | error code =>
      rw [settled_heardTask_error ht, settled_silent hsilent]
      constructor
      · intro hs record hrecord code' hcode'
        rw [ht] at hcode'
        cases hcode'
        exact hs
      · intro hs
        exact hs record hc code ht
    | ok process =>
      rw [h, ht] at hr
      have hstatus : TaskStatus.from process.status = .stopped := by
        simpa [Except.toOption] using (EStateM.Result.ok.inj hr).1
      refine iff_of_true ((settled_heardTask_ok ht).mpr (from_eq_stopped.mp hstatus)) ?_
      intro record hrecord code hcode
      rw [ht] at hcode
      cases hcode

/-- A look that does not end a wait has not failed. -/
theorem lookSighted_of_not_stopped (h : taskStopped client id w = .ok false v) :
    LookSighted client id heard w := by
  intro record hrecord code hcode
  rcases taskStopped_cases client id w with ⟨code', hc, -, -⟩ | ⟨record', u, -, rfl, -, hr⟩
  · rw [hc] at hrecord
    cases hrecord
  · rw [h, hcode] at hr
    cases (EStateM.Result.ok.inj hr).1

/-- **A wait that succeeds was told that the task is gone exactly if its looks are sighted.** -/
theorem wait_settled_iff {msg : String} {rounds : Nat} :
    (∀ v, pollRounds client msg (taskStopped client id) rounds w = .ok () v →
      Settled (heard ++ heardRounds client id rounds w)) ↔
        WaitSighted client id rounds heard w := by
  induction rounds generalizing heard w with
  | zero => exact iff_of_true (fun v h => by cases h) trivial
  | succ rounds ih =>
    have hl : isLate client w = .ok (client.late w.steps) (w.advance client) := rfl
    rw [pollRounds, bind_ok hl, heardRounds, WaitSighted]
    cases client.late w.steps with
    | true => exact iff_of_true (fun v h => by cases h) fun h => by cases h
    | false =>
      rw [if_neg (by simp), if_neg (by simp)]
      obtain ⟨stopped, u, hr⟩ := taskStopped_total client id (w.advance client)
      rw [bind_ok hr, hr]
      cases stopped with
      | true =>
        rw [List.append_nil, if_pos rfl, settled_of_stopped hr]
        constructor
        · intro h _
          exact ⟨h u rfl, fun v hv => by cases hv⟩
        · intro h v _
          exact (h rfl).1
      | false =>
        rw [if_neg (by simp), ← List.append_assoc, ih]
        constructor
        · intro h _
          refine ⟨lookSighted_of_not_stopped hr, fun v hv => ?_⟩
          cases hv
          exact h
        · intro h
          exact (h rfl).2 u rfl

theorem settled_iff_sighted (client : Client) (id : String) (timeout : Nat) (w : World κ) :
    (∀ v, stopContainer client id timeout w = .ok () v → Settled (heardStop client id timeout w)) ↔
      StopSighted client id timeout w := by
  have hrunning := isTaskRunning_eq client id (lookWorld client id timeout w)
  cases ht : queried client (taskAnswer id) (lookWorld client id timeout w) with
  | error code =>
    rw [ht] at hrunning
    have hrunning : isTaskRunning client id (lookWorld client id timeout w) = .ok false _ :=
      hrunning
    rw [heardStop_idle client id hrunning, settled_heardTask_error ht]
    constructor
    · intro h
      refine ⟨fun process hp => ?_, fun code' hcode' => ?_, fun v hv => ?_⟩
      · rw [ht] at hp
        cases hp
      · rw [ht] at hcode'
        cases hcode'
        exact h _ (stopContainer_idle client id hrunning)
      · rw [hrunning] at hv
        cases hv
    · intro h v _
      exact h.look code ht
  | ok process =>
    rw [ht] at hrunning
    have hlook : Sighted client id (heardBefore client id timeout w)
        (lookWorld client id timeout w) := by
      intro code hcode
      rw [ht] at hcode
      cases hcode
    by_cases hstatus : TaskStatus.from process.status = .running
    · simp only [Except.toOption, Option.any_some, hstatus, decide_true] at hrunning
      rw [stopContainer_running client id hrunning, heardStop_running client id hrunning]
      refine wait_settled_iff.trans ?_
      constructor
      · intro h
        refine ⟨fun process' hp => ?_, hlook, fun v hv => ?_⟩
        · cases ht.symm.trans hp
          exact .inl hstatus
        · cases hrunning.symm.trans hv
          exact h
      · intro h
        exact h.wait _ hrunning
    · simp only [Except.toOption, Option.any_some, hstatus, decide_false] at hrunning
      rw [heardStop_idle client id hrunning, settled_heardTask_ok ht]
      constructor
      · intro h
        refine ⟨fun process' hp => ?_, hlook, fun v hv => ?_⟩
        · cases ht.symm.trans hp
          exact .inr (h _ (stopContainer_idle client id hrunning))
        · cases hrunning.symm.trans hv
      · intro h v _
        exact (h.status process ht).resolve_left hstatus

end Sighted

/-- **When a stop that succeeds was told that the task is gone.** The replies are those
on record, and the last definite one says so exactly if no failed `tasks.Get` and no
paused task was passed by. -/
theorem stop_settled_iff (client : Client) (id : String) (timeout : Nat) (w : World κ) :
    (after (stopContainer client id timeout) w).trace =
        w.trace ++ (heardStop client id timeout w).map Reply.entry ∧
      ((∀ v, stopContainer client id timeout w = .ok () v →
        Settled (heardStop client id timeout w)) ↔
        StopSighted client id timeout w) :=
  ⟨trace_heardStop client id timeout w, settled_iff_sighted client id timeout w⟩

/-- A container whose task has some status. -/
def tasked (status : Status) : World Unit where
  snapshots := ∅
  containers := (∅ : AList fun _ : String => ContainerRecord).insert "web"
    { image := "app", snapshotter := "overlayfs", snapshotKey := "web-snapshot" }
  tasks := (∅ : Tasks).insert "web" { pid := 7, status := status, exitStatus := 0 }

/-- The `tasks.Get` of the first wait and that of `is_task_running` fail. -/
def unreachableClient : Client where
  fault n := if n = 3 ∨ n = 4 then some .unavailable else none

/-- **A stop succeeds on a paused task, and on a running one that no look could see.** -/
theorem stop_passes_by :
    (¬ ∀ v, stopContainer {} "web" (10000 * ms) (tasked .paused) = .ok () v →
        Settled (heardStop {} "web" (10000 * ms) (tasked .paused))) ∧
      ¬ ∀ v, stopContainer unreachableClient "web" (10000 * ms) (tasked .running) = .ok () v →
        Settled (heardStop unreachableClient "web" (10000 * ms) (tasked .running)) := by
  constructor
  · intro h
    have hr : (result (stopContainer {} "web" (10000 * ms)) (tasked .paused)).toOption =
        some () := by
      decide +kernel
    have hlast : lastNews (heardStop {} "web" (10000 * ms) (tasked .paused)) =
        some (.status .paused) := by
      decide +kernel
    obtain ⟨v, hv⟩ := ok_of_result hr
    have hs := h v hv
    rw [Settled, hlast] at hs
    cases hs
  · intro h
    have hr : (result (stopContainer unreachableClient "web" (10000 * ms))
        (tasked .running)).toOption =
        some () := by
      decide +kernel
    have hlast : lastNews (heardStop unreachableClient "web" (10000 * ms) (tasked .running)) =
        none := by
      decide +kernel
    obtain ⟨v, hv⟩ := ok_of_result hr
    have hs := h v hv
    rw [Settled, hlast] at hs
    cases hs

end ContainerdManager.Task
