import ContainerdManager.Container.Spec
import ContainerdManager.Lib.Prog
import ContainerdManager.Logs.Record
import ContainerdManager.Types

/-!
# The world a client acts on

containerd's snapshots, container records, images and tasks, the raw log
files, and the client's own registers. Every request, file operation and
look at the clock is a step; what the `n`-th step meets is fixed by the
`Client`: a fault, in which case the step has no effect, the tasks that
changed on their own before it, a deadline that has passed. An operation is
a computation on the world that may fail with an `Error`: an `Op` is taken as
a whole, a `Proc` request by request.
-/

namespace ContainerdManager.Containerd

open Lib Logs Container

/-- What the crate reads of a container record; `spec` is `none` for one it cannot parse. -/
structure ContainerRecord where
  image : String
  snapshotter : String
  snapshotKey : String
  labels : Labels := ∅
  spec : Option OciSpec := none
  deriving DecidableEq

/-- `containerd.v1.types.Process` of a task. -/
structure Process where
  pid : Nat
  status : Status
  exitStatus : Nat
  deriving DecidableEq, Repr

abbrev Tasks := AList fun _ : String => Process

/-- The requests the modelled operations issue. -/
inductive Call where
  | getContainer (id : String)
  | getTask (id : String)
  | killTask (id : String) (signal : Nat)
  | deleteTask (id : String)
  | createTask (id : String)
  | startTask (id : String)
  | mounts (snapshotter key : String)
  | commit (snapshotter name key : String)
  | prepare (snapshotter key parent : String)
  | remove (snapshotter key : String)
  | stat (snapshotter key : String)
  | listContainers
  /-- The list filtered by the name label. -/
  | listNamed (name : String)
  | listMatching (filters : List String)
  | listTasks
  | exec (id execId : String)
  | startExec (id execId : String)
  | waitExec (id execId : String)
  | deleteExec (id execId : String)
  | createContainer (id : String) (record : ContainerRecord)
  | deleteContainer (id : String)
  | getImage (name : String)
  | readContent (digest : String)
  | readChunk (digest : String)
  deriving DecidableEq

/-- The request changes no snapshot and no record, and looks neither for names nor for
a snapshot. -/
def Call.calm : Call → Bool
  | .commit .. | .prepare .. | .remove .. | .stat .. | .createContainer .. | .deleteContainer ..
  | .listNamed .. => false
  | _ => true

/-- The request changes snapshots. -/
def Call.ofSnapshots : Call → Bool
  | .commit .. | .prepare .. | .remove .. => true
  | _ => false

structure World (κ : Type) where
  snapshots : Snapshots κ
  containers : AList fun _ : String => ContainerRecord
  tasks : Tasks := ∅
  /-- The digest of the target of every image. -/
  images : AList (fun _ : String => Option String) := ∅
  /-- The content store: the messages a blob is streamed in. -/
  blobs : AList (fun _ : String => List Bytes) := ∅
  /-- The client's `image_metadata_cache`. -/
  metadataCache : AList (fun _ : String => ImageMetadata) := ∅
  /-- `ALLOC_LOCK` is held. -/
  allocLock : Bool := false
  /-- The octets `alloc_bridge_ip` has handed out. -/
  octets : List Nat := []
  /-- Free ports asked for so far. -/
  portPicks : Nat := 0
  /-- The raw stdout and stderr file of a container. -/
  rawLogs : AList (fun _ : String × LogStream => Bytes) := ∅
  /-- Keys of the client's `task_start_times`. -/
  taskStarts : List String := []
  /-- The client's `managed_tailers`, with the step each was spawned in. -/
  tailers : AList (fun _ : String => Nat) := ∅
  /-- Requests, file operations and looks at the clock so far. -/
  steps : Nat := 0
  /-- The requests issued, each with the code it failed with. -/
  trace : List (Call × Option Code) := []

/-- What `pick_free_port` comes to. -/
inductive PortPick where
  | port (port : UInt16)
  | bindError (text : String)
  | addrError (text : String)
  deriving DecidableEq, Repr

/-- A client and what its steps meet. -/
structure Client where
  namespace_ : String := "default"
  /-- The process has a home directory. -/
  home : Bool := true
  /-- The `n`-th step fails. -/
  fault : Nat → Option Code := fun _ => none
  /-- What happened to the tasks before the `n`-th step. -/
  drift : Nat → Tasks → Tasks := fun _ tasks => tasks
  /-- The `n`-th step, a look at the clock, finds the time to be up. -/
  late : Nat → Bool := fun _ => false
  /-- The pid of a task created in the `n`-th step. -/
  pid : Nat → Nat := fun _ => 1
  /-- The `n`-th step, a builder or the serialiser of a spec, fails with this text. -/
  buildError : Nat → Option String := fun _ => none
  /-- The `n`-th random choice among free octets. -/
  random : Nat → Nat := fun _ => 0
  /-- The `n`-th free port. -/
  freePort : Nat → PortPick := fun _ => .port 49152
  /-- `oci_arch()`. -/
  arch : String := "amd64"
  /-- The hexadecimal SHA-256 digest of a text. -/
  sha256 : String → String := fun text => text
  /-- `serde_json::from_slice`, to a value and to an image configuration. -/
  parseJson : Bytes → Except String Json :=
    fun _ => .error "EOF while parsing a value at line 1 column 0"
  parseImageConfig : Bytes → Except String ImageConfiguration :=
    fun _ => .error "EOF while parsing a value at line 1 column 0"

abbrev Op (κ α : Type) := EStateM Error (World κ) α

abbrev Proc (κ α : Type) := Prog (World κ) Error α

variable {κ α : Type}

/-- The world when the next step is taken. -/
def World.advance (client : Client) (w : World κ) : World κ :=
  { w with tasks := client.drift w.steps w.tasks, steps := w.steps + 1 }

/-- What containerd makes of a request: a fault, or its answer. -/
def outcome (client : Client) (answer : World κ → Except Code (α × World κ)) (w : World κ) :
    Except Code (α × World κ) :=
  match client.fault w.steps with
  | some code => .error code
  | none => answer (w.advance client)

/-- A request returns the answer, or the code it failed with and an unchanged world. -/
def request (client : Client) (call : Call) (answer : World κ → Except Code (α × World κ)) :
    Op κ (Except Code α) := fun w =>
  match outcome client answer w with
  | .ok (a, w') => .ok (.ok a) { w' with trace := w'.trace ++ [(call, none)] }
  | .error code =>
    .ok (.error code) { w.advance client with trace := w.trace ++ [(call, some code)] }

/-- A local file operation. -/
def fileOp (client : Client) (context : String) (effect : World κ → World κ) : Op κ Unit := fun w =>
  match client.fault w.steps with
  | some _ => .error (.io context) (w.advance client)
  | none => .ok () (effect (w.advance client))

/-- Whether a deadline has passed. -/
def isLate (client : Client) : Op κ Bool := fun w =>
  .ok (client.late w.steps) (w.advance client)

/-- A request that only reads. -/
def query (client : Client) (call : Call) (answer : World κ → Except Code α) :
    Op κ (Except Code α) :=
  request client call fun w => (answer w).map fun a => (a, w)

/-- A request to the snapshot service. -/
def snapshotRequest (client : Client) (call : Call)
    (answer : Snapshots κ → Except Code (Snapshots κ)) : Op κ (Except Code Unit) :=
  request client call fun w => (answer w.snapshots).map fun snaps =>
    ((), { w with snapshots := snaps })

/-- A request to the task service. -/
def taskRequest (client : Client) (call : Call) (answer : Tasks → Except Code Tasks) :
    Op κ (Except Code Unit) :=
  request client call fun w => (answer w.tasks).map fun tasks => ((), { w with tasks := tasks })

/-- What a snapshot request comes to: a fault, or the answer of the service. -/
def snapshotOutcome (client : Client) (answer : Snapshots κ → Except Code (Snapshots κ))
    (w : World κ) : Except Code (Snapshots κ) :=
  match client.fault w.steps with
  | some code => .error code
  | none => answer w.snapshots

/-- An operation taken as one step. -/
def call {κ α : Type} (m : Op κ α) : Proc κ α := .atomic m

/-! ## Frames -/

/-- Snapshots and container records are as they were. -/
structure SameStore (w w' : World κ) : Prop where
  snapshots : w'.snapshots = w.snapshots
  containers : w'.containers = w.containers

instance : Std.Refl (SameStore (κ := κ)) := ⟨fun _ => ⟨rfl, rfl⟩⟩

instance : IsTrans (World κ) SameStore :=
  ⟨fun _ _ _ h h' => ⟨h'.snapshots.trans h.snapshots, h'.containers.trans h.containers⟩⟩

/-- The store and the allocation of bridge IPs are as they were, and only calm requests
were made. -/
structure Calm (w w' : World κ) : Prop extends SameStore w w' where
  lock : w'.allocLock = w.allocLock
  octets : w'.octets = w.octets
  trace : ∃ new, w'.trace = w.trace ++ new ∧ ∀ e ∈ new, e.1.calm = true

instance : Std.Refl (Calm (κ := κ)) := ⟨fun _ => ⟨⟨rfl, rfl⟩, rfl, rfl, [], by simp, by simp⟩⟩

instance : IsTrans (World κ) Calm where
  trans w₁ w₂ w₃ h h' := by
    obtain ⟨new, ht, hc⟩ := h.trace
    obtain ⟨new', ht', hc'⟩ := h'.trace
    refine ⟨IsTrans.trans _ _ _ h.toSameStore h'.toSameStore, h'.lock.trans h.lock,
      h'.octets.trans h.octets, new ++ new', ?_, fun e he => ?_⟩
    · rw [ht', ht, List.append_assoc]
    · rcases List.mem_append.mp he with he | he
      · exact hc e he
      · exact hc' e he

theorem Calm.of_trace_eq {w w' : World κ} (h : SameStore w w') (hl : w'.allocLock = w.allocLock)
    (ho : w'.octets = w.octets) (ht : w'.trace = w.trace) : Calm w w' :=
  ⟨h, hl, ho, [], by rw [ht, List.append_nil], by simp⟩

theorem Calm.advance (client : Client) (w : World κ) : Calm w (w.advance client) :=
  .of_trace_eq ⟨rfl, rfl⟩ rfl rfl rfl

theorem outcome_eq_ok {client : Client} {answer : World κ → Except Code (α × World κ)}
    {w w' : World κ} {a : α} (h : outcome client answer w = .ok (a, w')) :
    client.fault w.steps = none ∧ answer (w.advance client) = .ok (a, w') := by
  unfold outcome at h
  split at h
  · cases h
  · rename_i hf
    exact ⟨hf, h⟩

/-- The world after a request that changed nothing itself. -/
def World.noted (client : Client) (w : World κ) (call : Call) (outcome : Option Code) : World κ :=
  { w.advance client with trace := w.trace ++ [(call, outcome)] }

section Noted

variable (client : Client) (w : World κ) (call : Call) (outcome : Option Code)

@[simp] theorem noted_snapshots : (w.noted client call outcome).snapshots = w.snapshots := rfl
@[simp] theorem noted_containers : (w.noted client call outcome).containers = w.containers := rfl
@[simp] theorem noted_allocLock : (w.noted client call outcome).allocLock = w.allocLock := rfl
@[simp] theorem noted_octets : (w.noted client call outcome).octets = w.octets := rfl
@[simp] theorem noted_portPicks : (w.noted client call outcome).portPicks = w.portPicks := rfl
@[simp] theorem noted_steps : (w.noted client call outcome).steps = w.steps + 1 := rfl
@[simp] theorem noted_trace :
    (w.noted client call outcome).trace = w.trace ++ [(call, outcome)] := rfl

end Noted

/-- **What a request can do**: it is answered, or fails and changes nothing. -/
theorem request_cases (client : Client) (call : Call) (answer : World κ → Except Code (α × World κ))
    (w : World κ) :
    (∃ a w', client.fault w.steps = none ∧ answer (w.advance client) = .ok (a, w') ∧
      request client call answer w =
        .ok (.ok a) { w' with trace := w'.trace ++ [(call, none)] }) ∨
    (∃ code, (client.fault w.steps = some code ∨
        client.fault w.steps = none ∧ answer (w.advance client) = .error code) ∧
      request client call answer w = .ok (.error code) (w.noted client call (some code))) := by
  unfold request outcome
  cases hf : client.fault w.steps with
  | some code => exact .inr ⟨code, .inl rfl, rfl⟩
  | none =>
    cases ha : answer (w.advance client) with
    | error code => exact .inr ⟨code, .inr ⟨rfl, rfl⟩, rfl⟩
    | ok p => exact .inl ⟨p.1, p.2, rfl, rfl, rfl⟩

/-- A request keeps what its answer keeps. -/
theorem request_keeps {client : Client} {call : Call} {answer : World κ → Except Code (α × World κ)}
    (hcalm : call.calm = true) (h : ∀ w a w', answer w = .ok (a, w') → Calm w w') :
    Keeps Calm (request client call answer) := by
  intro w
  have hentry : ∀ (w' : World κ) (r : Option Code),
      Calm w' { w' with trace := w'.trace ++ [(call, r)] } := fun w' r =>
    ⟨⟨rfl, rfl⟩, rfl, rfl, [(call, r)], rfl, by simp [hcalm]⟩
  rcases request_cases client call answer w with ⟨a, w', -, ha, hr⟩ | ⟨code, -, hr⟩
  · rw [after_ok hr]
    exact IsTrans.trans _ _ _ (IsTrans.trans _ _ _ (Calm.advance client w) (h _ _ _ ha))
      (hentry w' none)
  · rw [after_ok hr]
    exact IsTrans.trans _ _ _ (Calm.advance client w) (hentry (w.advance client) (some code))

/-- A request has no error but the code it answers with. -/
theorem request_raises {client : Client} {call : Call}
    {answer : World κ → Except Code (α × World κ)} {φ : Error → Prop} :
    Raises φ (request client call answer) := by
  intro w e t h
  unfold request at h
  split at h <;> cases h

theorem query_keeps {client : Client} {call : Call} {answer : World κ → Except Code α}
    (hcalm : call.calm = true := by rfl) : Keeps Calm (query client call answer) := by
  refine request_keeps hcalm fun w a w' h => ?_
  cases ha : answer w with
  | error code => rw [ha] at h; cases h
  | ok b =>
    rw [ha] at h
    cases h
    exact Std.Refl.refl _

theorem taskRequest_keeps {client : Client} {call : Call} {answer : Tasks → Except Code Tasks}
    (hcalm : call.calm = true := by rfl) :
    Keeps Calm (taskRequest (κ := κ) client call answer) := by
  refine request_keeps hcalm fun w a w' h => ?_
  cases ha : answer w.tasks with
  | error code => rw [ha] at h; cases h
  | ok tasks =>
    rw [ha] at h
    cases h
    exact .of_trace_eq ⟨rfl, rfl⟩ rfl rfl rfl

theorem fileOp_keeps {client : Client} {context : String} {effect : World κ → World κ}
    (h : ∀ w, Calm w (effect w)) : Keeps Calm (fileOp client context effect) := by
  intro w
  unfold after fileOp
  cases client.fault w.steps with
  | some code => exact Calm.advance client w
  | none => exact IsTrans.trans _ _ _ (Calm.advance client w) (h (w.advance client))

theorem isLate_keeps {client : Client} : Keeps Calm (isLate (κ := κ) client) := fun w =>
  Calm.advance client w

/-- The requests made so far stay on record. -/
def Grows (w w' : World κ) : Prop := w.trace <+: w'.trace

instance : Std.Refl (Grows (κ := κ)) := ⟨fun _ => List.prefix_refl _⟩

instance : IsTrans (World κ) Grows := ⟨fun _ _ _ h h' => List.IsPrefix.trans h h'⟩

theorem Calm.grows {w w' : World κ} (h : Calm w w') : Grows w w' := by
  obtain ⟨new, ht, -⟩ := h.trace
  exact ⟨new, ht.symm⟩

theorem SameStore.noted (client : Client) (w : World κ) (call : Call) (outcome : Option Code) :
    SameStore w (w.noted client call outcome) := ⟨rfl, rfl⟩

theorem Grows.noted (client : Client) (w : World κ) (call : Call) (outcome : Option Code) :
    Grows w (w.noted client call outcome) := List.prefix_append _ _

/-- What a request can do whose answer is passed on by `f`. -/
theorem request_map_cases {β : Type} (client : Client) (call : Call)
    (answer : World κ → Except Code β) (f : World κ → β → α × World κ) (w : World κ) :
    (∃ b w', client.fault w.steps = none ∧ answer (w.advance client) = .ok b ∧
      w' = (f (w.advance client) b).2 ∧
      request client call (fun w => (answer w).map (f w)) w =
        .ok (.ok (f (w.advance client) b).1) { w' with trace := w'.trace ++ [(call, none)] }) ∨
    (∃ code, (client.fault w.steps = some code ∨
        client.fault w.steps = none ∧ answer (w.advance client) = .error code) ∧
      request client call (fun w => (answer w).map (f w)) w =
        .ok (.error code) (w.noted client call (some code))) := by
  rcases request_cases client call (fun w => (answer w).map (f w)) w with
    ⟨a, w', hf, ha, hr⟩ | ⟨code, hc, hr⟩
  · cases hans : answer (w.advance client) with
    | error code => rw [hans] at ha; cases ha
    | ok b =>
      rw [hans] at ha
      have hp : f (w.advance client) b = (a, w') := Except.ok.inj ha
      exact .inl ⟨b, w', hf, rfl, by rw [hp], by rw [hp, hr]⟩
  · refine .inr ⟨code, hc.imp id fun h => ⟨h.1, ?_⟩, hr⟩
    cases hans : answer (w.advance client) with
    | error code' =>
      rw [hans] at h
      cases h.2
      rfl
    | ok b => rw [hans] at h; cases h.2

/-- What a query can do: look, or fail. -/
theorem query_cases (client : Client) (call : Call) (answer : World κ → Except Code α)
    (w : World κ) :
    (∃ a, client.fault w.steps = none ∧ answer (w.advance client) = .ok a ∧
      query client call answer w = .ok (.ok a) (w.noted client call none)) ∨
    (∃ code, (client.fault w.steps = some code ∨
        client.fault w.steps = none ∧ answer (w.advance client) = .error code) ∧
      query client call answer w = .ok (.error code) (w.noted client call (some code))) := by
  rcases request_map_cases client call answer (fun w a => (a, w)) w with
    ⟨a, w', hf, ha, rfl, hr⟩ | hfail
  · exact .inl ⟨a, hf, ha, hr⟩
  · exact .inr hfail

/-- What containerd replies to a request that only reads. -/
def queried (client : Client) (answer : World κ → Except Code α) (w : World κ) : Except Code α :=
  match client.fault w.steps with
  | some code => .error code
  | none => answer (w.advance client)

def errorCode : Except Code α → Option Code
  | .ok _ => none
  | .error code => some code

theorem query_eq (client : Client) (call : Call) (answer : World κ → Except Code α) (w : World κ) :
    query client call answer w =
      .ok (queried client answer w)
        (w.noted client call (errorCode (queried client answer w))) := by
  unfold queried
  rcases query_cases client call answer w with ⟨a, hf, ha, hr⟩ | ⟨code, hf | ⟨hf, ha⟩, hr⟩
  · rw [hf, ha, hr]
    rfl
  · rw [hf, hr]
    rfl
  · rw [hf, ha, hr]
    rfl

/-- **What a query that looks something up can do.** -/
theorem query_lookup_cases {β : Type} (client : Client) (call : Call) (find : World κ → Option β)
    (read : β → α) (w : World κ) :
    (∃ b, client.fault w.steps = none ∧ find (w.advance client) = some b ∧
      query client call (fun w => (find w).elim (.error .notFound) fun b => .ok (read b)) w =
        .ok (.ok (read b)) (w.noted client call none)) ∨
    (∃ code, (client.fault w.steps = some code ∨
        client.fault w.steps = none ∧ find (w.advance client) = none ∧ code = .notFound) ∧
      query client call (fun w => (find w).elim (.error .notFound) fun b => .ok (read b)) w =
        .ok (.error code) (w.noted client call (some code))) := by
  have hq := query_eq client call
    (fun w => (find w).elim (.error .notFound) fun b => .ok (read b)) w
  unfold queried at hq
  cases hf : client.fault w.steps with
  | some code =>
    rw [hf] at hq
    exact .inr ⟨code, .inl rfl, hq⟩
  | none =>
    rw [hf] at hq
    dsimp only at hq
    cases hfind : find (w.advance client) with
    | none =>
      rw [hfind] at hq
      exact .inr ⟨.notFound, .inr ⟨rfl, rfl, rfl⟩, hq⟩
    | some b =>
      rw [hfind] at hq
      exact .inl ⟨b, rfl, rfl, hq⟩

/-! ## Task requests and file operations -/

/-- What a task request can do. -/
theorem taskRequest_cases (client : Client) (call : Call) (answer : Tasks → Except Code Tasks)
    (w : World κ) :
    (∃ tasks, client.fault w.steps = none ∧ answer (client.drift w.steps w.tasks) = .ok tasks ∧
      taskRequest client call answer w =
        .ok (.ok ()) { w.noted client call none with tasks := tasks }) ∨
    (∃ code, (client.fault w.steps = some code ∨
        client.fault w.steps = none ∧ answer (client.drift w.steps w.tasks) = .error code) ∧
      taskRequest client call answer w = .ok (.error code) (w.noted client call (some code))) := by
  rcases request_map_cases client call (fun w => answer w.tasks)
      (fun w tasks => ((), { w with tasks := tasks })) w with ⟨tasks, w', hf, ha, rfl, hr⟩ | hfail
  · exact .inl ⟨tasks, hf, ha, hr⟩
  · exact .inr hfail

theorem fileOp_cases (client : Client) (context : String) (effect : World κ → World κ)
    (w : World κ) :
    (client.fault w.steps = none ∧
      fileOp client context effect w = .ok () (effect (w.advance client))) ∨
    (client.fault w.steps ≠ none ∧
      fileOp client context effect w = .error (.io context) (w.advance client)) := by
  unfold fileOp
  cases hf : client.fault w.steps with
  | none => exact .inl ⟨rfl, rfl⟩
  | some code => exact .inr ⟨by simp, rfl⟩

/-! ## Snapshot requests -/

/-- **What a snapshot request can do.** -/
theorem snapshotRequest_cases (client : Client) (call : Call)
    (answer : Snapshots κ → Except Code (Snapshots κ)) (w : World κ) :
    (∃ snaps, client.fault w.steps = none ∧ answer w.snapshots = .ok snaps ∧
      snapshotRequest client call answer w =
        .ok (.ok ()) { w.noted client call none with snapshots := snaps }) ∨
    (∃ code, (client.fault w.steps = some code ∨
        client.fault w.steps = none ∧ answer w.snapshots = .error code) ∧
      snapshotRequest client call answer w =
        .ok (.error code) (w.noted client call (some code))) := by
  rcases request_map_cases client call (fun w => answer w.snapshots)
      (fun w snaps => ((), { w with snapshots := snaps })) w with
        ⟨snaps, w', hf, ha, rfl, hr⟩ | hfail
  · exact .inl ⟨snaps, hf, ha, hr⟩
  · exact .inr hfail

theorem snapshotRequest_error {client : Client} (call : Call)
    {answer : Snapshots κ → Except Code (Snapshots κ)} {w : World κ} {code : Code}
    (h : snapshotOutcome client answer w = .error code) :
    ∃ w', snapshotRequest client call answer w = .ok (.error code) w' ∧ SameStore w w' ∧
      w'.steps = w.steps + 1 := by
  refine ⟨{ w.advance client with trace := w.trace ++ [(call, some code)] }, ?_, ⟨rfl, rfl⟩, rfl⟩
  unfold snapshotOutcome at h
  cases hf : client.fault w.steps with
  | some code' =>
    rw [hf] at h
    cases h
    simp [snapshotRequest, request, outcome, hf]
  | none =>
    rw [hf] at h
    have ha : answer w.snapshots = .error code := h
    simp [snapshotRequest, request, outcome, hf, World.advance, ha, Except.map]

theorem snapshotRequest_ok {client : Client} (call : Call)
    {answer : Snapshots κ → Except Code (Snapshots κ)} {w : World κ} {snaps : Snapshots κ}
    (h : snapshotOutcome client answer w = .ok snaps) :
    ∃ w', snapshotRequest client call answer w = .ok (.ok ()) w' ∧ w'.snapshots = snaps ∧
      w'.containers = w.containers ∧ w'.steps = w.steps + 1 := by
  unfold snapshotOutcome at h
  cases hf : client.fault w.steps with
  | some code => rw [hf] at h; cases h
  | none =>
    rw [hf] at h
    have ha : answer w.snapshots = .ok snaps := h
    refine ⟨{ w.advance client with snapshots := snaps, trace := w.trace ++ [(call, none)] }, ?_,
      rfl, rfl, rfl⟩
    simp [snapshotRequest, request, outcome, hf, World.advance, ha, Except.map]

end ContainerdManager.Containerd
