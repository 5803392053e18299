import ContainerdManager.Container.Env
import ContainerdManager.Task.Inspect

/-!
# Listing containers

`src/list.rs`: one list of containers, one of tasks, and the same
`ContainerInfo` that inspecting makes, but for the exit code: listing takes
the `u32` as an `i32`, inspecting saturates. What containerd makes of a
filter is the parameter `select`.
-/

namespace ContainerdManager.Task

open Lib Containerd Container

variable {κ : Type}

/-! ## Filters -/

/-- `"k=v"` as a filter of containerd; `splitn(2, '=')`. -/
def buildLabelFilter (labelFilter : String) : Option String :=
  (splitOnce labelFilter).map fun kv => "labels.\"" ++ kv.1 ++ "\"==" ++ kv.2

/-- The filters of the request: one text, whose parts must all hold. -/
def buildListRequest (labelFilters : List String) : List String :=
  if (labelFilters.filterMap buildLabelFilter).isEmpty then []
  else [String.intercalate "," (labelFilters.filterMap buildLabelFilter)]

/-! ## The list -/

/-- `n as i32`. -/
def asI32 (n : Nat) : Int := Int.bmod n UInt32.size

def listedTask (process : Process) : TaskInfo where
  pid := process.pid
  status := .from process.status
  exitCode :=
    if TaskStatus.from process.status = .stopped then some (asI32 process.exitStatus) else none

abbrev TaskMap := AList fun _ : String => TaskInfo

def taskMap (tasks : List (Sigma fun _ : String => Process)) : TaskMap :=
  tasks.foldl (fun map p => map.insert p.1 (listedTask p.2)) ∅

/-- A failed request is taken for no tasks at all. -/
def fetchTaskMap (client : Client) : Op κ TaskMap := do
  match ← query client .listTasks fun w => .ok w.tasks.entries with
  | .error _ => return ∅
  | .ok tasks => return taskMap tasks

/-- `container_to_info`, with the check of `ContainerId::from_existing`. -/
def listedInfo (tasks : TaskMap) (container : Sigma fun _ : String => ContainerRecord) :
    Except Error ContainerInfo :=
  match validateIdentifier container.1 with
  | .error e => .error e
  | .ok () => .ok (containerToInfo container.1 container.2 (tasks.lookup container.1))

def collectInfos (tasks : TaskMap) :
    List (Sigma fun _ : String => ContainerRecord) → Except Error (List ContainerInfo)
  | [] => .ok []
  | container :: containers =>
    match listedInfo tasks container with
    | .error e => .error e
    | .ok info =>
      match collectInfos tasks containers with
      | .error e => .error e
      | .ok infos => .ok (info :: infos)

def listContainers (client : Client) (select : List String → String → ContainerRecord → Bool)
    (labelFilters : List String) : Op κ (List ContainerInfo) := do
  match ← query client (.listMatching (buildListRequest labelFilters)) fun w =>
      .ok (w.containers.entries.filter fun e => select (buildListRequest labelFilters) e.1 e.2) with
  | .error code => throw (.containerd "list_containers" code)
  | .ok containers =>
    let tasks ← fetchTaskMap client
    match collectInfos tasks containers with
    | .error e => throw e
    | .ok infos => return infos

/-! ## What is listed -/

theorem lookup_taskMap (tasks : Tasks) (id : String) :
    (taskMap tasks.entries).lookup id = (tasks.lookup id).map listedTask := by
  rw [taskMap, lookup_foldl_insert listedTask id _ tasks.nodupKeys, AList.lookup_empty,
    Option.or_none]
  rfl

theorem mem_collectInfos {tasks : TaskMap}
    {containers : List (Sigma fun _ : String => ContainerRecord)} {infos : List ContainerInfo}
    (h : collectInfos tasks containers = .ok infos) {info : ContainerInfo} (hm : info ∈ infos) :
    ∃ container ∈ containers, listedInfo tasks container = .ok info := by
  induction containers generalizing infos with
  | nil =>
    cases h
    cases hm
  | cons container containers ih =>
    rw [collectInfos] at h
    cases hi : listedInfo tasks container with
    | error e =>
      rw [hi] at h
      cases h
    | ok first =>
      cases hc : collectInfos tasks containers with
      | error e =>
        rw [hi, hc] at h
        cases h
      | ok rest =>
        rw [hi, hc] at h
        cases h
        rcases List.mem_cons.mp hm with rfl | hm
        · exact ⟨container, List.mem_cons_self, hi⟩
        · obtain ⟨found, hmem, hfound⟩ := ih hc hm
          exact ⟨found, List.mem_cons_of_mem _ hmem, hfound⟩

theorem listedInfo_ok {tasks : TaskMap} {container : Sigma fun _ : String => ContainerRecord}
    {info : ContainerInfo} (h : listedInfo tasks container = .ok info) :
    info = containerToInfo container.1 container.2 (tasks.lookup container.1) := by
  rw [listedInfo] at h
  cases hv : validateIdentifier container.1 with
  | error e =>
    rw [hv] at h
    cases h
  | ok =>
    rw [hv] at h
    cases h
    rfl

theorem collectInfos_ids {tasks : TaskMap}
    {containers : List (Sigma fun _ : String => ContainerRecord)} {infos : List ContainerInfo}
    (h : collectInfos tasks containers = .ok infos) :
    infos.map ContainerInfo.id = containers.map Sigma.fst := by
  induction containers generalizing infos with
  | nil =>
    cases h
    rfl
  | cons container containers ih =>
    rw [collectInfos] at h
    cases hi : listedInfo tasks container with
    | error e =>
      rw [hi] at h
      cases h
    | ok first =>
      cases hc : collectInfos tasks containers with
      | error e =>
        rw [hi, hc] at h
        cases h
      | ok rest =>
        rw [hi, hc] at h
        cases h
        rw [List.map_cons, List.map_cons, ih hc, listedInfo_ok hi]
        rfl

/-- **What is listed**: the containers that containerd selects for the request. -/
theorem listContainers_ids {client : Client}
    {select : List String → String → ContainerRecord → Bool} {labelFilters : List String}
    {w w' : World κ} {infos : List ContainerInfo}
    (h : listContainers client select labelFilters w = .ok infos w') :
    infos.map ContainerInfo.id = (w.containers.entries.filter fun e =>
      select (buildListRequest labelFilters) e.1 e.2).map Sigma.fst := by
  have hq := query_eq client (.listMatching (buildListRequest labelFilters))
    (fun w : World κ => .ok (w.containers.entries.filter fun e =>
      select (buildListRequest labelFilters) e.1 e.2)) w
  have hrun := (bind_ok hq).symm.trans h
  unfold queried at hrun
  cases hf : client.fault w.steps with
  | some code =>
    rw [hf] at hrun
    cases hrun
  | none =>
    rw [hf] at hrun
    obtain ⟨tasks, w₁, -, hrun⟩ := bind_eq_ok hrun
    cases hc : collectInfos tasks (w.containers.entries.filter fun e =>
        select (buildListRequest labelFilters) e.1 e.2) with
    | error e =>
      dsimp only [World.advance] at hrun
      rw [hc] at hrun
      cases hrun
    | ok found =>
      dsimp only [World.advance] at hrun
      rw [hc] at hrun
      cases hrun
      exact collectInfos_ids hc

/-- No request fails, and no task changes on its own. -/
structure Still (client : Client) : Prop where
  noFault : ∀ n, client.fault n = none
  noDrift : ∀ n tasks, client.drift n tasks = tasks

section Still

variable {client : Client} (hstill : Still client)

include hstill

/-- A request is answered from the containers and tasks there are. -/
theorem Still.query {α : Type} (call : Call) (answer : World κ → Except Code α) (w : World κ)
    {r : Except Code α} (h : answer { w with steps := w.steps + 1 } = r) :
    ∃ w', query client call answer w = .ok r w' ∧ w'.containers = w.containers ∧
      w'.tasks = w.tasks := by
  have hadv : w.advance client = { w with steps := w.steps + 1 } := by
    rw [World.advance, hstill.noDrift]
  have hr : queried client answer w = r := by
    rw [queried, hstill.noFault, hadv, h]
  have hq := query_eq client call answer w
  rw [hr] at hq
  exact ⟨_, hq, rfl, hstill.noDrift _ _⟩

theorem Still.fetchTaskMap_eq (w : World κ) :
    ∃ w', fetchTaskMap client w = .ok (taskMap w.tasks.entries) w' := by
  obtain ⟨w', hq, -, -⟩ := hstill.query .listTasks
    (fun w : World κ => .ok w.tasks.entries) w rfl
  exact ⟨w', bind_ok hq⟩

/-- **What a list says of a container**: its record, with the task of the bulk answer. -/
theorem Still.listContainers_ok {select : List String → String → ContainerRecord → Bool}
    {labelFilters : List String} {w w' : World κ} {infos : List ContainerInfo}
    (h : listContainers client select labelFilters w = .ok infos w') {info : ContainerInfo}
    (hm : info ∈ infos) :
    ∃ record, w.containers.lookup info.id = some record ∧
      info = containerToInfo info.id record ((w.tasks.lookup info.id).map listedTask) := by
  obtain ⟨w₁, hlist, -, hw₁⟩ := hstill.query (.listMatching (buildListRequest labelFilters))
    (fun w : World κ => .ok (w.containers.entries.filter fun e =>
      select (buildListRequest labelFilters) e.1 e.2)) w rfl
  obtain ⟨w₂, htasks⟩ := hstill.fetchTaskMap_eq w₁
  have hrun := ((bind_ok hlist).trans (bind_ok htasks)).symm.trans h
  cases hc : collectInfos (taskMap w₁.tasks.entries)
      (w.containers.entries.filter fun e =>
        select (buildListRequest labelFilters) e.1 e.2) with
  | error e =>
    rw [hc] at hrun
    cases hrun
  | ok found =>
    rw [hc] at hrun
    cases hrun
    obtain ⟨container, hmem, hinfo⟩ := mem_collectInfos hc hm
    have heq := listedInfo_ok hinfo
    have hid : info.id = container.1 := by
      rw [heq]
      rfl
    rw [hid]
    refine ⟨container.2, AList.mem_lookup_iff.mpr (List.mem_of_mem_filter hmem), ?_⟩
    rw [heq, lookup_taskMap, hw₁]

/-- **What inspecting says of it**: the same, with the task of the single answer. -/
theorem Still.inspectContainer_eq {id : String} {record : ContainerRecord} {w : World κ}
    (h : w.containers.lookup id = some record) :
    ∃ w', inspectContainer client id w =
      .ok (containerToInfo id record ((w.tasks.lookup id).map taskInfo)) w' := by
  obtain ⟨w₁, hget, -, hw₁⟩ := hstill.query (.getContainer id) (containerAnswer id) w
    (show _ = Except.ok record by rw [containerAnswer, h]; rfl)
  have hfetch : fetchContainerRecord client id w = .ok record w₁ := bind_ok hget
  obtain ⟨w₂, htask, -, -⟩ := hstill.query (.getTask id) (taskAnswer id) w₁ rfl
  have hinfo : getTaskInfo client id w₁ = .ok ((w.tasks.lookup id).map taskInfo) w₂ := by
    refine (bind_ok htask).trans ?_
    rw [taskAnswer, hw₁]
    cases w.tasks.lookup id <;> rfl
  exact ⟨w₂, (bind_ok hfetch).trans (bind_ok hinfo)⟩

end Still

/-! ## Agreement -/

theorem asI32_of_le {n : Nat} (h : n ≤ i32Max) : asI32 n = n := by
  have hmax : i32Max = 2147483647 := rfl
  have hsize : UInt32.size = 4294967296 := rfl
  exact Int.bmod_eq_of_le (by omega) (by omega)

/-- With the highest bit set, the cast is negative. -/
theorem asI32_neg {n : Nat} (h : n < UInt32.size) (hbit : i32Max < n) : asI32 n < 0 := by
  have hmax : i32Max = 2147483647 := rfl
  have hsize : UInt32.size = 4294967296 := rfl
  unfold asI32
  rw [hsize, Int.bmod_def, if_neg (by omega)]
  omega

/-- The two conversions agree where the status fits. -/
theorem asI32_eq_min_iff {n : Nat} (h : n < UInt32.size) :
    asI32 n = (min n i32Max : Nat) ↔ n ≤ i32Max := by
  constructor
  · intro heq
    by_contra hlt
    have hneg := asI32_neg h (Nat.not_le.mp hlt)
    omega
  · intro hle
    rw [asI32_of_le hle, Nat.min_eq_left hle]

/-- The exit status of a stopped task fits in an `i32`. -/
def ExitFits (task : Option Process) : Prop :=
  ∀ process, task = some process → TaskStatus.from process.status = .stopped →
    process.exitStatus ≤ i32Max

theorem listedTask_eq_iff {task : Option Process}
    (h : ∀ process, task = some process → process.exitStatus < UInt32.size) :
    task.map listedTask = task.map taskInfo ↔ ExitFits task := by
  cases task with
  | none => simp [ExitFits]
  | some process =>
    have hiff := asI32_eq_min_iff (h process rfl)
    by_cases hstopped : TaskStatus.from process.status = .stopped
    · simp [ExitFits, listedTask, taskInfo, hstopped, ← hiff]
    · simp [ExitFits, listedTask, taskInfo, hstopped]

/-- The same container, the port forwards compared as sets. -/
structure Agrees (a b : ContainerInfo) : Prop where
  id : a.id = b.id
  name : a.name = b.name
  image : a.image = b.image
  labels : a.labels = b.labels
  env : a.env = b.env
  mounts : a.mounts = b.mounts
  task : a.task = b.task
  portForwards : ∀ pair, pair ∈ a.portForwards ↔ pair ∈ b.portForwards

theorem containerToInfo_agrees_iff (id : String) (record : ContainerRecord)
    (task task' : Option TaskInfo) :
    Agrees (containerToInfo id record task) (containerToInfo id record task') ↔ task = task' := by
  constructor
  · exact fun h => h.task
  · rintro rfl
    exact ⟨rfl, rfl, rfl, rfl, rfl, rfl, rfl, fun _ => Iff.rfl⟩

/-- **Listing agrees with inspecting** exactly when the exit status of a stopped task fits. -/
theorem listContainers_agrees_iff {client : Client} (hstill : Still client)
    {select : List String → String → ContainerRecord → Bool} {labelFilters : List String}
    {w w' v : World κ} {infos : List ContainerInfo}
    (hlist : listContainers client select labelFilters w = .ok infos w') {info : ContainerInfo}
    (hm : info ∈ infos) (hcontainers : v.containers = w.containers) (htasks : v.tasks = w.tasks)
    (hu32 : ∀ id process, w.tasks.lookup id = some process → process.exitStatus < UInt32.size) :
    ∃ inspected v', inspectContainer client info.id v = .ok inspected v' ∧
      (Agrees info inspected ↔ ExitFits (w.tasks.lookup info.id)) := by
  obtain ⟨record, hrecord, hinfo⟩ := hstill.listContainers_ok hlist hm
  rw [← hcontainers] at hrecord
  obtain ⟨v', hinspect⟩ := hstill.inspectContainer_eq hrecord
  rw [htasks] at hinspect
  refine ⟨_, v', hinspect, ?_⟩
  rw [← listedTask_eq_iff (hu32 info.id), ← containerToInfo_agrees_iff info.id record, ← hinfo]

/-- The record of `stoppedWorld`. -/
def webContainer : ContainerRecord where
  image := "mongo"
  snapshotter := defaultSnapshotter
  snapshotKey := snapshotKeyFor "web"

/-- A world with one container, whose task has stopped with `exitStatus`. -/
def stoppedWorld (exitStatus : Nat) : World Unit where
  snapshots := ∅
  containers := (∅ : AList fun _ : String => ContainerRecord).insert "web" webContainer
  tasks := (∅ : Tasks).insert "web" { pid := 7, status := .stopped, exitStatus := exitStatus }

/-- A client that meets no fault. -/
def stillClient : Client := {}

theorem still_stillClient : Still stillClient := ⟨fun _ => rfl, fun _ _ => rfl⟩

/-- Every container, whatever the filters. -/
def selectAll (_ : List String) (_ : String) (_ : ContainerRecord) : Bool := true

/-- What a list says of the container of `stoppedWorld`. -/
def stoppedInfo (exitStatus : Nat) : ContainerInfo :=
  containerToInfo "web" webContainer
    (some (listedTask { pid := 7, status := .stopped, exitStatus := exitStatus }))

theorem listContainers_stopped (exitStatus : Nat) :
    ∃ w', listContainers stillClient selectAll [] (stoppedWorld exitStatus) =
      .ok [stoppedInfo exitStatus] w' := ⟨_, rfl⟩

/-- An exit status of 137 is listed as it is inspected. -/
theorem listContainers_agrees_killed :
    ∃ inspected v', inspectContainer stillClient "web" (stoppedWorld 137) = .ok inspected v' ∧
      Agrees (stoppedInfo 137) inspected := by
  obtain ⟨w', hlist⟩ := listContainers_stopped 137
  obtain ⟨inspected, v', hinspect, hiff⟩ := listContainers_agrees_iff still_stillClient hlist
    (List.mem_singleton_self _) (v := stoppedWorld 137) rfl rfl fun id process h => by
      by_cases hid : id = "web"
      · subst hid
        cases (AList.lookup_insert _).symm.trans h
        decide
      · cases (AList.lookup_insert_ne hid).symm.trans h
  refine ⟨inspected, v', hinspect, hiff.mpr fun process h _ => ?_⟩
  cases (AList.lookup_insert _).symm.trans h
  decide

/-- The largest exit status is listed as `-1` and inspected as `i32::MAX`. -/
theorem listContainers_disagrees :
    ∃ w' inspected v', listContainers stillClient selectAll [] (stoppedWorld 4294967295) =
        .ok [stoppedInfo 4294967295] w' ∧
      inspectContainer stillClient "web" (stoppedWorld 4294967295) = .ok inspected v' ∧
      ¬ Agrees (stoppedInfo 4294967295) inspected := by
  obtain ⟨w', hlist⟩ := listContainers_stopped 4294967295
  have hweb : (stoppedWorld 4294967295).containers.lookup "web" = some _ := AList.lookup_insert _
  obtain ⟨v', hinspect⟩ := still_stillClient.inspectContainer_eq hweb
  refine ⟨w', _, v', hlist, hinspect, fun hagrees => ?_⟩
  rw [stoppedInfo, containerToInfo_agrees_iff] at hagrees
  exact absurd hagrees (by decide)

end ContainerdManager.Task
