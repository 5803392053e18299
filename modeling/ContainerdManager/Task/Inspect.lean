import ContainerdManager.Container.Identifier
import ContainerdManager.Container.Labels
import ContainerdManager.Containerd.World

/-!
# Inspecting containers and tasks

`src/inspect.rs`, the polling loop of `src/util.rs` and
`fetch_container_record` of `src/snapshot_util.rs`. Durations are in
nanoseconds. containerd always sets the record of a `Get` answer, and the id
of the record is the one asked for: a `ContainerId`, which was validated
when it was made.
-/

namespace ContainerdManager.Task

open Lib Containerd Container

variable {κ : Type}

/-! ## Durations and polling -/

/-- One millisecond. -/
def ms : Nat := 1000000

/-- The fraction `frac / 10 ^ digits` without trailing zeros. -/
def debugFraction (frac digits : Nat) : String :=
  if frac = 0 then ""
  else
    let text := (Nat.toDigits 10 (Nat.pow 10 digits + frac)).tail
    String.ofList ('.' :: (text.reverse.dropWhile (· == '0')).reverse)

/-- The `Debug` text of a `Duration`. -/
def debugDuration (d : Nat) : String :=
  if d ≥ 1000000000 then toString (d / 1000000000) ++ debugFraction (d % 1000000000) 9 ++ "s"
  else if d ≥ 1000000 then toString (d / 1000000) ++ debugFraction (d % 1000000) 6 ++ "ms"
  else if d ≥ 1000 then toString (d / 1000) ++ debugFraction (d % 1000) 3 ++ "µs"
  else toString d ++ "ns"

/-- `poll_until`: every round sleeps for `interval`, so the deadline has passed after
`timeout / interval + 1` polls at the latest. -/
def pollRounds (client : Client) (timeoutMsg : String) (predicate : Op κ Bool) : Nat → Op κ Unit
  | 0 => throw (.timeout timeoutMsg)
  | rounds + 1 => do
    if ← isLate client then throw (.timeout timeoutMsg)
    else if ← predicate then pure ()
    else pollRounds client timeoutMsg predicate rounds

def pollUntil (client : Client) (timeout interval : Nat) (timeoutMsg : String)
    (predicate : Op κ Bool) : Op κ Unit :=
  pollRounds client timeoutMsg predicate (timeout / interval + 1)

/-! ## Inspect -/

structure TaskInfo where
  pid : Nat
  status : TaskStatus
  /-- Set only when the task is stopped. -/
  exitCode : Option Int
  deriving DecidableEq, Repr

structure ContainerInfo where
  id : String
  name : String
  image : String
  labels : Labels
  env : Labels
  /-- `(source, destination)` pairs. -/
  mounts : List (String × String)
  task : Option TaskInfo
  /-- `(host_port, container_port)` pairs. -/
  portForwards : List (UInt16 × UInt16)
  deriving DecidableEq

/-- `i32::MAX`, what an exit status that does not fit becomes. -/
def i32Max : Nat := 0x7fffffff

def taskInfo (process : Process) : TaskInfo where
  pid := process.pid
  status := .from process.status
  exitCode :=
    if TaskStatus.from process.status = .stopped then some (min process.exitStatus i32Max : Nat)
    else none

def extractMounts (spec : OciSpec) : List (String × String) :=
  (spec.mounts.getD []).map fun m => (m.source.getD "", m.destination)

/-- The name falls back to the id; a spec that does not parse has no variables and no mounts. -/
def containerToInfo (id : String) (record : ContainerRecord) (task : Option TaskInfo) :
    ContainerInfo where
  id := id
  name := ((record.labels.lookup nameLabel).or (record.labels.lookup "nerdctl/name")).getD id
  image := record.image
  labels := record.labels
  env := (record.spec.map fun spec => parseEnvVars spec.process.env).getD ∅
  mounts := (record.spec.map extractMounts).getD []
  task := task
  portForwards := parsePortBindingLabels record.labels

/-- Any error, not only `NotFound`, is taken for a missing task. -/
def getTaskInfo (client : Client) (id : String) : Op κ (Option TaskInfo) := do
  match ← query client (.getTask id) fun w => (w.tasks.lookup id).elim (.error .notFound) .ok with
  | .ok process => return some (taskInfo process)
  | .error _ => return none

def getContainer (client : Client) (id : String) : Op κ (Except Code ContainerRecord) :=
  query client (.getContainer id) fun w => (w.containers.lookup id).elim (.error .notFound) .ok

def fetchContainerRecord (client : Client) (id : String) : Op κ ContainerRecord := do
  match ← getContainer client id with
  | .ok record => return record
  | .error .notFound => throw (.containerNotFound id)
  | .error code => throw (.containerd "get_container" code)

def inspectContainer (client : Client) (id : String) : Op κ ContainerInfo := do
  let record ← fetchContainerRecord client id
  let task ← getTaskInfo client id
  return containerToInfo id record task

/-! ## Names -/

/-- The ids of the records whose name label is `name`, what the filter selects for a valid name. -/
def namedContainers (name : String) (w : World κ) : List String :=
  (w.containers.entries.filter fun e => e.2.labels.lookup nameLabel = some name).map Sigma.fst

/-- `resolve_name` of a valid name: the last match. -/
def resolveName (client : Client) (name : String) : Op κ String := do
  match ← query client (.listNamed name) fun w => .ok (namedContainers name w) with
  | .error code => throw (.containerd "resolve_name" code)
  | .ok ids =>
    match ids.getLast? with
    | none => throw (.containerNotFound name)
    | some id =>
      match validateIdentifier id with
      | .error e => throw e
      | .ok () => return id

/-! ## Frames -/

section Frames

variable {R : World κ → World κ → Prop} [Std.Refl R] [IsTrans (World κ) R] {client : Client}

/-- Polling keeps what a look at the clock and the predicate keep. -/
theorem pollRounds_frame (hlate : Keeps R (isLate (κ := κ) client)) {msg : String}
    {predicate : Op κ Bool} (h : Keeps R predicate) (rounds : Nat) :
    Keeps R (pollRounds client msg predicate rounds) := by
  induction rounds with
  | zero => exact .throw _
  | succ rounds ih =>
    refine .bind hlate fun late => ?_
    cases late with
    | true => exact .throw _
    | false =>
      refine .bind h fun done => ?_
      cases done with
      | true => exact .pure _
      | false => exact ih

omit [Std.Refl R] in
/-- A poll that succeeds ends with a look that finds the predicate to hold. -/
theorem pollRounds_ok (hlate : Keeps R (isLate (κ := κ) client)) {msg : String}
    {predicate : Op κ Bool} (h : Keeps R predicate) {rounds : Nat} {w w' : World κ}
    (hr : pollRounds client msg predicate rounds w = .ok () w') :
    ∃ w₁, R w w₁ ∧ predicate w₁ = .ok true w' := by
  induction rounds generalizing w with
  | zero => cases hr
  | succ rounds ih =>
    obtain ⟨late, w₁, hl, hr⟩ := bind_eq_ok hr
    have hw₁ := hlate.ok hl
    cases late with
    | true => cases hr
    | false =>
      obtain ⟨done, w₂, hp, hr⟩ := bind_eq_ok hr
      cases done with
      | true =>
        cases hr
        exact ⟨w₁, hw₁, hp⟩
      | false =>
        obtain ⟨w₃, hw₃, hlast⟩ := ih hr
        exact ⟨w₃, IsTrans.trans _ _ _ hw₁ (IsTrans.trans _ _ _ (h.ok hp) hw₃), hlast⟩

omit [Std.Refl R] [IsTrans (World κ) R] in
/-- A poll whose predicate never fails can only run out of time. -/
theorem pollRounds_error {msg : String} {predicate : Op κ Bool}
    (htotal : ∀ w, ∃ done w', predicate w = .ok done w') {rounds : Nat} {w w' : World κ} {e : Error}
    (hr : pollRounds client msg predicate rounds w = .error e w') : e = .timeout msg := by
  induction rounds generalizing w with
  | zero =>
    cases hr
    rfl
  | succ rounds ih =>
    have hl : isLate client w = .ok (client.late w.steps) (w.advance client) := rfl
    rw [pollRounds, bind_ok hl] at hr
    cases hlate : client.late w.steps with
    | true =>
      rw [hlate] at hr
      cases hr
      rfl
    | false =>
      obtain ⟨done, w₁, hp⟩ := htotal (w.advance client)
      rw [hlate, if_neg (by simp), bind_ok hp] at hr
      cases done with
      | true => cases hr
      | false => exact ih hr

omit [Std.Refl R] [IsTrans (World κ) R] in
/-- A poll whose first look is in time and finds the predicate to hold. -/
theorem pollUntil_first {timeout interval : Nat} {msg : String} {predicate : Op κ Bool}
    {w w' : World κ} (hlate : client.late w.steps = false)
    (hp : predicate (w.advance client) = .ok true w') :
    pollUntil client timeout interval msg predicate w = .ok () w' := by
  have hl : isLate client w = .ok false (w.advance client) := by
    rw [isLate, hlate]
  rw [pollUntil, pollRounds, bind_ok hl, if_neg (by simp), bind_ok hp]
  rfl

variable (hquery : ∀ {α : Type} (call : Call) (answer : World κ → Except Code α), call.calm = true →
  Keeps R (query client call answer)) {id : String}

include hquery

theorem getTaskInfo_frame : Keeps R (getTaskInfo (κ := κ) client id) := by
  refine .bind (hquery _ _ rfl) fun answer => ?_
  cases answer <;> exact .pure _

theorem fetchContainerRecord_frame : Keeps R (fetchContainerRecord (κ := κ) client id) := by
  refine .bind (hquery _ _ rfl) fun answer => ?_
  cases answer with
  | ok record => exact .pure _
  | error code => cases code <;> exact .throw _

/-- **Inspecting keeps what its two requests keep.** -/
theorem inspectContainer_frame : Keeps R (inspectContainer (κ := κ) client id) :=
  .bind (fetchContainerRecord_frame hquery) fun _ => .bind (getTaskInfo_frame hquery) fun _ =>
    .pure _

end Frames

theorem pollRounds_keeps {client : Client} {msg : String} {predicate : Op κ Bool}
    (h : Keeps Calm predicate) (rounds : Nat) :
    Keeps Calm (pollRounds client msg predicate rounds) := pollRounds_frame isLate_keeps h rounds

theorem fetchContainerRecord_keeps {client : Client} {id : String} :
    Keeps Calm (fetchContainerRecord (κ := κ) client id) :=
  fetchContainerRecord_frame fun _ _ hc => query_keeps hc

theorem inspectContainer_keeps {client : Client} {id : String} :
    Keeps Calm (inspectContainer (κ := κ) client id) :=
  inspectContainer_frame fun _ _ hc => query_keeps hc

/-! ## What the requests can do -/

def taskAnswer (id : String) (w : World κ) : Except Code Process :=
  (w.tasks.lookup id).elim (.error .notFound) .ok

def containerAnswer (id : String) (w : World κ) : Except Code ContainerRecord :=
  (w.containers.lookup id).elim (.error .notFound) .ok

section Requests

variable (client : Client) (id : String) (w : World κ)

theorem getTaskInfo_eq :
    getTaskInfo client id w = .ok ((queried client (taskAnswer id) w).toOption.map taskInfo)
      (w.noted client (.getTask id) (errorCode (queried client (taskAnswer id) w))) := by
  have hq : query client (.getTask id) (taskAnswer id) w = _ := query_eq client (.getTask id) _ w
  refine (bind_ok hq).trans ?_
  cases queried client (taskAnswer id) w <;> rfl

theorem getTaskInfo_total : ∃ task v, getTaskInfo client id w = .ok task v :=
  ⟨_, _, getTaskInfo_eq client id w⟩

theorem getContainer_eq :
    getContainer client id w = .ok (queried client (containerAnswer id) w)
      (w.noted client (.getContainer id) (errorCode (queried client (containerAnswer id) w))) :=
  query_eq client (.getContainer id) (containerAnswer id) w

theorem getContainer_cases :
    (∃ record, client.fault w.steps = none ∧ w.containers.lookup id = some record ∧
      getContainer client id w = .ok (.ok record) (w.noted client (.getContainer id) none)) ∨
    (∃ code, (client.fault w.steps = some code ∨
        client.fault w.steps = none ∧ w.containers.lookup id = none ∧ code = .notFound) ∧
      getContainer client id w =
        .ok (.error code) (w.noted client (.getContainer id) (some code))) :=
  query_lookup_cases client (.getContainer id) (fun w => w.containers.lookup id)
    (fun record => record) w

/-- **What a fetch of a record can do.** -/
theorem fetchContainerRecord_cases :
    (∃ record, client.fault w.steps = none ∧ w.containers.lookup id = some record ∧
      fetchContainerRecord client id w = .ok record (w.noted client (.getContainer id) none)) ∨
    (∃ e code, (client.fault w.steps ≠ none ∨ w.containers.lookup id = none) ∧
      fetchContainerRecord client id w =
        .error e (w.noted client (.getContainer id) (some code))) := by
  unfold fetchContainerRecord
  rcases getContainer_cases client id w with ⟨record, hf, hl, hr⟩ | ⟨code, hc, hr⟩
  · exact .inl ⟨record, hf, hl, bind_ok hr⟩
  · have hwhy : client.fault w.steps ≠ none ∨ w.containers.lookup id = none := by
      rcases hc with hf | ⟨-, hl, -⟩
      · exact .inl (by rw [hf]; simp)
      · exact .inr hl
    cases code <;> exact .inr ⟨_, _, hwhy, bind_ok hr⟩

end Requests

/-- A container that is found can be inspected, whatever becomes of the look at its task. -/
theorem inspectContainer_found {client : Client} {id : String} {w v : World κ}
    {record : ContainerRecord} (h : getContainer client id w = .ok (.ok record) v) :
    ∃ info w', inspectContainer client id w = .ok info w' := by
  have hfetch : fetchContainerRecord client id w = .ok record v := bind_ok h
  obtain ⟨task, w', htask⟩ := getTaskInfo_total client id v
  exact ⟨_, _, (bind_ok hfetch).trans (bind_ok htask)⟩

/-- A container that is reported missing was answered `NotFound`, in the last request. -/
theorem inspectContainer_notFound {client : Client} {id id' : String} {w w' : World κ}
    (h : inspectContainer client id w = .error (.containerNotFound id') w') :
    w' = w.noted client (.getContainer id) (some .notFound) := by
  rcases getContainer_cases client id w with ⟨record, -, -, hr⟩ | ⟨code, -, hr⟩
  · obtain ⟨info, w₁, hinspect⟩ := inspectContainer_found hr
    cases hinspect.symm.trans h
  · have hfetch : fetchContainerRecord client id w = _ := bind_ok hr
    unfold inspectContainer at h
    cases code <;> rw [bind_error hfetch] at h <;> cases h
    rfl

/-- The record an answered `Get` returns is the one in the store. -/
theorem fetchContainerRecord_ok {client : Client} {id : String} {w w' : World κ}
    {record : ContainerRecord} (h : fetchContainerRecord client id w = .ok record w') :
    w.containers.lookup id = some record := by
  obtain ⟨answer, w1, hq, hr⟩ := bind_eq_ok h
  cases answer with
  | error code => cases code <;> cases hr
  | ok found =>
    cases hr
    unfold getContainer query request at hq
    split at hq
    · rename_i a w2 ho
      cases hq
      have ha := (outcome_eq_ok ho).2
      cases hl : w.containers.lookup id with
      | none => simp [World.advance, hl, Except.map] at ha
      | some found' =>
        simp only [World.advance, hl, Option.elim_some, Except.map, Except.ok.injEq,
          Prod.mk.injEq] at ha
        rw [ha.1]
    · cases hq

end ContainerdManager.Task
