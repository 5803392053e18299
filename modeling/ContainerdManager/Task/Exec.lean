import ContainerdManager.Container.Create
import ContainerdManager.Task.List

/-!
# Running a command in a task

`exec_with_opts` of `src/exec.rs` registers a process with containerd, starts
it, waits for it, reads what it wrote and only then deletes it: every step in
between is a way to leave it behind, by an error or by a caller that drops
the future, as the checks of `src/readiness.rs` do on a timeout. The files of
the process are no part of the world.
-/

namespace ContainerdManager.Task

open Lib Containerd Container Logs

variable {κ : Type}

/-! ## The command -/

structure ExecOpts where
  /-- Per-stream cap on captured bytes. -/
  maxOutputBytes : Nat := 16 * 1024 * 1024

structure ExecOutput where
  stdout : Bytes
  stderr : Bytes
  exitCode : Int
  truncatedStdout : Bool
  truncatedStderr : Bool
  deriving DecidableEq, Repr

/-- What a call meets besides containerd. -/
structure ExecEnv where
  home : String := "/root"
  processId : Nat := 1
  /-- The values of `EXEC_COUNTER` drawn for the process and for its directory. -/
  count : Nat := 0
  dirCount : Nat := 1
  /-- The exit status the `n`-th step, a `Wait`, reports. -/
  exitStatus : Nat → Nat := fun _ => 0
  /-- What is in an output file in the `n`-th step. -/
  captured : Nat → LogStream → Bytes := fun _ _ => []

/-- `generate_exec_id`. -/
def execId (processId count : Nat) : String :=
  "exec-" ++ toString processId ++ "-" ++ toString count

/-- The paths of the two output files. -/
def createIoDir (client : Client) (env : ExecEnv) : Proc κ (String × String) :=
  if client.home then do
    let dir := env.home ++ "/.containerd-manager/exec-io/" ++ execId env.processId env.dirCount
    call (fileOp client "create exec-io base dir" fun w => w)
    call (fileOp client "create exec-io dir" fun w => w)
    call (fileOp client "create exec stdout file" fun w => w)
    call (fileOp client "create exec stderr file" fun w => w)
    return (dir ++ "/stdout", dir ++ "/stderr")
  else throw (.io "home directory")

def execBuilds : List String :=
  ["build capabilities: ", "build process spec: ", "serialize process spec: "]

def buildExecProcessSpec (client : Client) (command env : List String) : Proc κ OciProcess := do
  buildAll client execBuilds
  return {
    terminal := false
    args := command
    env := env
    cwd := "/"
    capabilities := defaultCapabilities }

structure ExecProcessRequest where
  containerId : String
  execId : String
  stdin : String
  stdout : String
  stderr : String
  terminal : Bool
  spec : OciProcess
  deriving DecidableEq, Repr

def buildExecRequest (containerId execId stdoutPath stderrPath : String) (spec : OciProcess) :
    ExecProcessRequest where
  containerId := containerId
  execId := execId
  stdin := ""
  stdout := stdoutPath
  stderr := stderrPath
  terminal := false
  spec := spec

/-- Up to the request; the variables are those of the container. -/
def prepareExec (client : Client) (env : ExecEnv) (id : String) (command : List String) :
    Proc κ ExecProcessRequest :=
  if command.isEmpty then throw (.invalidArgument "command must not be empty")
  else do
    let (stdoutPath, stderrPath) ← createIoDir client env
    let info ← call (inspectContainer client id)
    let spec ← buildExecProcessSpec client command
      (info.env.entries.map fun e => e.1 ++ "=" ++ e.2)
    return buildExecRequest id (execId env.processId env.count) stdoutPath stderrPath spec

/-- A request about the process; an answer is read off the number of the step. -/
def askExec {α : Type} (client : Client) (what : String) (c : Call) (answer : Nat → α) :
    Op κ α := do
  let n ← EStateM.get >>= fun w : World κ => pure w.steps
  match ← query client c fun _ => .ok (answer n) with
  | .ok a => return a
  | .error code => throw (.containerd what code)

/-- A file operation that returns something. -/
def readFile {α : Type} (client : Client) (context : String) (value : Nat → α) : Op κ α := fun w =>
  match client.fault w.steps with
  | some _ => .error (.io context) (w.advance client)
  | none => .ok (value w.steps) (w.advance client)

/-- At most `cap` bytes of the output, and whether there are more. -/
def readCapped (client : Client) (env : ExecEnv) (stream : LogStream) (cap : Nat) :
    Proc κ (Bytes × Bool) := do
  call (fileOp client "read exec output: open" fun w => w)
  let totalLen ← call (readFile client "read exec output: stat" fun n =>
    (env.captured n stream).length)
  let bytes ← call (readFile client "read exec output" fun n =>
    (env.captured n stream).take (min totalLen cap))
  return (bytes, decide (cap < totalLen))

/-- From the start of the process to its deletion, whose failure is not fatal. -/
def superviseExec (client : Client) (env : ExecEnv) (opts : ExecOpts) (id execId : String) :
    Proc κ ExecOutput := do
  call (askExec client "exec_start" (.startExec id execId) fun _ => ())
  let exitStatus ← call (askExec client "exec_wait" (.waitExec id execId) env.exitStatus)
  let (stdout, truncatedStdout) ← readCapped client env .stdout opts.maxOutputBytes
  let (stderr, truncatedStderr) ← readCapped client env .stderr opts.maxOutputBytes
  let _ ← call (query client (.deleteExec id execId) fun _ => .ok ())
  return {
    stdout := stdout
    stderr := stderr
    exitCode := asI32 exitStatus
    truncatedStdout := truncatedStdout
    truncatedStderr := truncatedStderr }

def execWithOpts (client : Client) (env : ExecEnv) (id : String) (command : List String)
    (opts : ExecOpts) : Proc κ ExecOutput := do
  let request ← prepareExec client env id command
  call (askExec client "exec_create" (.exec request.containerId request.execId) fun _ => ())
  superviseExec client env opts request.containerId request.execId

/-- `run_check` of a command: whether it succeeds, within the steps it has time for. -/
def runExecCheck (client : Client) (env : ExecEnv) (id : String) (command : List String)
    (checkTimeout : Option Nat) (w : World κ) : Bool × World κ :=
  let exec := execWithOpts client env id command {}
  match checkTimeout with
  | some limit =>
    let outcome := exec.timeout limit w
    (outcome.1.any succeeded, outcome.2)
  | none => (succeeded (result exec.run w), after exec.run w)
where
  succeeded : Except Error ExecOutput → Bool
    | .ok output => output.exitCode = 0
    | .error _ => false

/-! ## What is on record -/

/-- The entries of the trace that are new in `w'`. -/
def newEntries (w w' : World κ) : List (Call × Option Code) := w'.trace.drop w.trace.length

/-- If the process was registered between `w` and `w'`, a request to delete it was issued. -/
def Released (id execId : String) (w w' : World κ) : Prop :=
  (.exec id execId, none) ∈ newEntries w w' →
    ∃ code, (.deleteExec id execId, code) ∈ newEntries w w'

/-- The request neither registers nor deletes a process. -/
def Call.leavesExecs : Call → Bool
  | .exec .. | .deleteExec .. => false
  | _ => true

/-- No process was registered or deleted. -/
def LeavesExecs (w w' : World κ) : Prop :=
  ∃ new, w'.trace = w.trace ++ new ∧ ∀ e ∈ new, Call.leavesExecs e.1 = true

instance : Std.Refl (LeavesExecs (κ := κ)) := ⟨fun _ => ⟨[], (List.append_nil _).symm, by simp⟩⟩

instance : IsTrans (World κ) LeavesExecs where
  trans w₁ w₂ w₃ h h' := by
    obtain ⟨new, ht, hl⟩ := h
    obtain ⟨new', ht', hl'⟩ := h'
    refine ⟨new ++ new', by rw [ht', ht, List.append_assoc], fun e he => ?_⟩
    exact (List.mem_append.mp he).elim (hl e) (hl' e)

theorem LeavesExecs.of_trace_eq {w w' : World κ} (h : w'.trace = w.trace) : LeavesExecs w w' :=
  ⟨[], by rw [h, List.append_nil], by simp⟩

theorem LeavesExecs.noted {client : Client} {w : World κ} {c : Call} (code : Option Code)
    (h : Call.leavesExecs c = true) : LeavesExecs w (w.noted client c code) :=
  ⟨[(c, code)], rfl, by simp [h]⟩

theorem newEntries_of_leavesExecs {w w₁ w₂ : World κ} (h : LeavesExecs w w₁) (hg : Grows w₁ w₂)
    {e : Call × Option Code} (he : Call.leavesExecs e.1 = false) :
    e ∈ newEntries w w₂ ↔ e ∈ newEntries w₁ w₂ := by
  obtain ⟨new, ht, hl⟩ := h
  obtain ⟨rest, hrest⟩ := hg
  rw [newEntries, newEntries, ← hrest, List.drop_left, ht, List.append_assoc, List.drop_left,
    List.mem_append]
  refine ⟨fun hmem => hmem.elim (fun hnew => ?_) id, .inr⟩
  rw [hl e hnew] at he
  cases he

theorem newEntries_noted {client : Client} {w w' : World κ} {c : Call} {code : Option Code}
    (hg : Grows (w.noted client c code) w') :
    newEntries w w' = (c, code) :: newEntries (w.noted client c code) w' := by
  obtain ⟨rest, hrest⟩ := hg
  rw [newEntries, newEntries, ← hrest, List.drop_left, noted_trace, List.append_assoc,
    List.drop_left]
  rfl

theorem newEntries_self (w : World κ) : newEntries w w = [] := List.drop_length

/-! ## Steps that may fail -/

/-- The step succeeds exactly when it is not faulted, and leaves the processes on record. -/
structure Fallible {α : Type} (client : Client) (m : Op κ α) : Prop where
  ok : ∀ w, client.fault w.steps = none →
    ∃ a w', m w = .ok a w' ∧ w'.steps = w.steps + 1 ∧ LeavesExecs w w'
  error : ∀ w, client.fault w.steps ≠ none → ∃ e w', m w = .error e w' ∧ LeavesExecs w w'

theorem askExec_cases {α : Type} (client : Client) (what : String) (c : Call) (answer : Nat → α)
    (w : World κ) :
    (client.fault w.steps = none ∧
      askExec client what c answer w = .ok (answer w.steps) (w.noted client c none)) ∨
    ∃ code, client.fault w.steps = some code ∧
      askExec client what c answer w = .error (.containerd what code)
        (w.noted client c (some code)) := by
  have hget : (EStateM.get >>= fun w : World κ => pure w.steps : Op κ Nat) w = .ok w.steps w := rfl
  rcases query_cases client c (fun _ : World κ => .ok (answer w.steps)) w with
    ⟨a, hf, ha, hr⟩ | ⟨code, hf | ⟨-, ha⟩, hr⟩
  · cases ha
    exact .inl ⟨hf, by rw [askExec, bind_ok hget, bind_ok hr]; rfl⟩
  · exact .inr ⟨code, hf, by rw [askExec, bind_ok hget, bind_ok hr]; rfl⟩
  · cases ha

theorem fallible_askExec {α : Type} {client : Client} {what : String} {c : Call} {answer : Nat → α}
    (h : Call.leavesExecs c = true) : Fallible (κ := κ) client (askExec client what c answer) where
  ok w hf := by
    rcases askExec_cases client what c answer w with ⟨-, hr⟩ | ⟨code, hc, -⟩
    · exact ⟨_, _, hr, rfl, .noted none h⟩
    · rw [hf] at hc
      cases hc
  error w hf := by
    rcases askExec_cases client what c answer w with ⟨hnone, -⟩ | ⟨code, -, hr⟩
    · exact absurd hnone hf
    · exact ⟨_, _, hr, .noted _ h⟩

theorem fallible_readFile {α : Type} {client : Client} {context : String} {value : Nat → α} :
    Fallible (κ := κ) client (readFile client context value) where
  ok w hf := ⟨value w.steps, w.advance client, by rw [readFile, hf], rfl, .of_trace_eq rfl⟩
  error w hf := by
    obtain ⟨code, hc⟩ := Option.ne_none_iff_exists'.mp hf
    exact ⟨_, w.advance client, by rw [readFile, hc], .of_trace_eq rfl⟩

theorem fallible_fileOp {client : Client} {context : String} :
    Fallible (κ := κ) client (fileOp client context fun w => w) where
  ok w hf := ⟨(), w.advance client, by rw [fileOp, hf], rfl, .of_trace_eq rfl⟩
  error w hf := by
    obtain ⟨code, hc⟩ := Option.ne_none_iff_exists'.mp hf
    exact ⟨_, w.advance client, by rw [fileOp, hc], .of_trace_eq rfl⟩

/-! ## Up to the deletion -/

/-- The request to delete the process is issued after `count` steps that are not faulted, if the
program is not dropped before. -/
structure DeletesAfter {α : Type} (client : Client) (id execId : String) (count : Nat)
    (p : Proc κ α) : Prop where
  grows : ∀ n w, Grows w (p.dropped n w)
  issued : ∀ n w, (∃ code, (.deleteExec id execId, code) ∈ newEntries w (p.dropped n w)) ↔
    count < n ∧ ∀ i < count, client.fault (w.steps + i) = none

section Deletes

variable {α β : Type} {client : Client} {id execId : String}

theorem dropped_call_ok {m : Op κ α} {g : α → Proc κ β} {n : Nat} {w w' : World κ} {a : α}
    (hm : m w = .ok a w') : Prog.dropped (n + 1) (call m >>= g) w = (g a).dropped n w' := by
  have hlen : (call m).length w = 1 := Prog.length_atomic m w
  have hrun : (call m).run w = .ok a w' := by rw [call, Prog.run_atomic, hm]
  rw [Nat.add_comm, ← hlen]
  exact Prog.dropped_bind_ok hrun

theorem dropped_call_error {m : Op κ α} {g : α → Proc κ β} {n : Nat} {w w' : World κ} {e : Error}
    (hm : m w = .error e w') : Prog.dropped (n + 1) (call m >>= g) w = w' := by
  have hlen : (call m).length w = 1 := Prog.length_atomic m w
  have hrun : (call m).run w = .error e w' := by rw [call, Prog.run_atomic, hm]
  rw [Prog.dropped_bind_error hrun, Prog.dropped_of_length_le (hlen.trans_le (Nat.le_add_left 1 n)),
    after_error hrun]

/-- A step that may fail comes before. -/
theorem DeletesAfter.call {m : Op κ α} {g : α → Proc κ β} {count : Nat}
    (hm : Fallible client m) (hg : ∀ a, DeletesAfter client id execId count (g a)) :
    DeletesAfter client id execId (count + 1) (call m >>= g) := by
  have hgrows : ∀ {w w' : World κ}, LeavesExecs w w' → Grows w w' := fun ⟨new, ht, _⟩ =>
    ⟨new, ht.symm⟩
  constructor
  · intro n w
    cases n with
    | zero => rw [Prog.dropped_zero]; exact Std.Refl.refl w
    | succ n =>
      by_cases hf : client.fault w.steps = none
      · obtain ⟨a, w', hr, -, hleaves⟩ := hm.ok w hf
        rw [dropped_call_ok hr]
        exact (hgrows hleaves).trans ((hg a).grows n w')
      · obtain ⟨e, w', hr, hleaves⟩ := hm.error w hf
        rw [dropped_call_error hr]
        exact hgrows hleaves
  · intro n w
    cases n with
    | zero =>
      rw [Prog.dropped_zero, newEntries_self]
      exact ⟨fun ⟨code, hmem⟩ => absurd hmem List.not_mem_nil, fun h =>
        absurd h.1 (Nat.not_lt_zero _)⟩
    | succ n =>
      by_cases hf : client.fault w.steps = none
      · obtain ⟨a, w', hr, hsteps, hleaves⟩ := hm.ok w hf
        rw [dropped_call_ok hr]
        refine (exists_congr fun code =>
          newEntries_of_leavesExecs hleaves ((hg a).grows n w') rfl).trans ?_
        rw [(hg a).issued n w', hsteps]
        refine and_congr (Nat.succ_lt_succ_iff).symm ⟨fun hall i hi => ?_, fun hall i hi => ?_⟩
        · cases i with
          | zero => exact hf
          | succ i =>
            rw [← Nat.add_assoc, Nat.add_right_comm]
            exact hall i (Nat.lt_of_succ_lt_succ hi)
        · rw [Nat.add_right_comm]
          exact hall (i + 1) (Nat.succ_lt_succ hi)
      · obtain ⟨e, w', hr, hleaves⟩ := hm.error w hf
        rw [dropped_call_error hr]
        refine ⟨fun ⟨code, hmem⟩ => ?_, fun h => absurd (h.2 0 (Nat.succ_pos _)) hf⟩
        rw [newEntries_of_leavesExecs hleaves (Std.Refl.refl w') rfl, newEntries_self] at hmem
        cases hmem

/-- The request to delete the process itself. -/
theorem deletesAfter_delete {g : Except Code Unit → α} :
    DeletesAfter (κ := κ) client id execId 0
      (call (query client (.deleteExec id execId) fun _ => .ok ()) >>= fun r => pure (g r)) := by
  have hrun : ∀ w : World κ, ∃ r code, query client (.deleteExec id execId) (fun _ => .ok ()) w =
      .ok r (w.noted client (.deleteExec id execId) code) := fun w =>
    ⟨_, _, query_eq client _ _ w⟩
  constructor
  · intro n w
    cases n with
    | zero => rw [Prog.dropped_zero]; exact Std.Refl.refl w
    | succ n =>
      obtain ⟨r, code, hr⟩ := hrun w
      rw [dropped_call_ok hr]
      refine (Grows.noted client w (.deleteExec id execId) code).trans ?_
      exact (Prog.dropped_ret n (g r) _).symm ▸ List.prefix_refl _
  · intro n w
    cases n with
    | zero =>
      rw [Prog.dropped_zero, newEntries_self]
      exact ⟨fun ⟨code, hmem⟩ => absurd hmem List.not_mem_nil, fun h =>
        absurd h.1 (Nat.lt_irrefl 0)⟩
    | succ n =>
      obtain ⟨r, code, hr⟩ := hrun w
      rw [dropped_call_ok hr]
      refine ⟨fun _ => ⟨Nat.succ_pos n, fun i hi => absurd hi (Nat.not_lt_zero i)⟩,
        fun _ => ⟨code, ?_⟩⟩
      have hend : Prog.dropped n (pure (g r) : Proc κ α)
          (w.noted client (.deleteExec id execId) code) =
          w.noted client (.deleteExec id execId) code := Prog.dropped_ret n (g r) _
      rw [hend, newEntries, noted_trace, List.drop_left]
      exact List.mem_cons_self

theorem DeletesAfter.readCapped {env : ExecEnv} {stream : LogStream} {cap count : Nat}
    {g : Bytes × Bool → Proc κ β} (hg : ∀ r, DeletesAfter client id execId count (g r)) :
    DeletesAfter client id execId (count + 3) (readCapped client env stream cap >>= g) := by
  unfold Task.readCapped
  simp only [Prog.bind_assoc]
  exact .call fallible_fileOp fun _ => .call fallible_readFile fun _ =>
    .call fallible_readFile fun _ => hg _

/-- **The deletion is nine steps away from the start** of the process. -/
theorem superviseExec_deletes {env : ExecEnv} {opts : ExecOpts} :
    DeletesAfter (κ := κ) client id execId 8 (superviseExec client env opts id execId) :=
  .call (fallible_askExec rfl) fun _ => .call (fallible_askExec rfl) fun _ =>
    .readCapped fun _ => .readCapped fun _ => deletesAfter_delete

end Deletes

/-! ## Up to the registration -/

section Prepare

variable {client : Client} {env : ExecEnv} {id : String} {command : List String}

theorem buildAll_takes (builds : List String) :
    (buildAll (κ := κ) client builds).Takes builds.length := by
  induction builds with
  | nil => exact .pure ()
  | cons what rest ih =>
    have htakes : (buildAll (κ := κ) client (what :: rest)).Takes (1 + rest.length) :=
      .bind (.atomic _) fun _ => ih
    rw [Nat.add_comm] at htakes
    exact htakes

theorem createIoDir_takes : (createIoDir (κ := κ) client env).Takes 4 := by
  unfold createIoDir
  split
  · exact .bind (.atomic _) fun _ => .bind (.atomic _) fun _ => .bind (.atomic _) fun _ =>
      .bind (.atomic _) fun _ => .pure _
  · exact .throw _

theorem prepareExec_takes : (prepareExec (κ := κ) client env id command).Takes 8 := by
  unfold prepareExec
  split
  · exact .throw _
  · exact .bind createIoDir_takes fun _ => .bind (.atomic _) fun _ =>
      .bind (.bind (buildAll_takes execBuilds) fun _ => .pure _) fun _ => .pure _

theorem inspectContainer_leaves : Keeps LeavesExecs (inspectContainer (κ := κ) client id) := by
  have hquery : ∀ {α : Type} {c : Call} {answer : World κ → Except Code α},
      Call.leavesExecs c = true → Keeps LeavesExecs (query client c answer) := by
    intro α c answer hc w
    rw [after_ok (query_eq client c answer w)]
    exact .noted _ hc
  refine .bind (.bind (hquery rfl) fun answer => ?_) fun _ =>
    .bind (.bind (hquery rfl) fun answer =>
    ?_) fun _ => .pure _
  · cases answer with
    | ok record => exact .pure _
    | error code => cases code <;> exact .throw _
  · cases answer <;> exact .pure _

theorem prepareExec_leaves :
    (prepareExec (κ := κ) client env id command).Steps LeavesExecs := by
  have hfile : ∀ context, Keeps LeavesExecs (fileOp (κ := κ) client context fun w => w) :=
    fun context w => by
      rcases fileOp_cases client context (fun w => w) w with ⟨-, hr⟩ | ⟨-, hr⟩
      · rw [after_ok hr]
        exact .of_trace_eq rfl
      · rw [after_error hr]
        exact .of_trace_eq rfl
  have hbuild : ∀ builds, (buildAll (κ := κ) client builds).Steps LeavesExecs := by
    intro builds
    induction builds with
    | nil => trivial
    | cons what rest ih =>
      refine .bind (.atomic fun w => ?_) fun _ => ih
      unfold after build
      cases client.buildError w.steps <;> exact .of_trace_eq rfl
  unfold prepareExec createIoDir
  split
  · trivial
  · split
    · exact .bind (.bind (.atomic (hfile _)) fun _ => .bind (.atomic (hfile _)) fun _ =>
        .bind (.atomic (hfile _)) fun _ => .bind (.atomic (hfile _)) fun _ => trivial) fun _ =>
        .bind (.atomic inspectContainer_leaves) fun _ =>
          .bind (.bind (hbuild _) fun _ => trivial) fun _ => trivial
    · trivial

theorem prepareExec_ids {request : ExecProcessRequest} {w w₁ : World κ}
    (h : (prepareExec client env id command).run w = .ok request w₁) :
    request.containerId = id ∧ request.execId = execId env.processId env.count := by
  unfold prepareExec at h
  split at h
  · cases h
  · simp only [Prog.run_bind] at h
    obtain ⟨paths, w₂, -, h⟩ := bind_eq_ok h
    obtain ⟨info, w₃, -, h⟩ := bind_eq_ok h
    obtain ⟨spec, w₄, -, h⟩ := bind_eq_ok h
    cases h
    exact ⟨rfl, rfl⟩

end Prepare

/-! ## No process is left behind -/

/-- None of the eight steps from the start of the process to its deletion is faulted. -/
def Undisturbed (client : Client) (w : World κ) : Prop :=
  ∀ i < 8, client.fault (w.steps + 1 + i) = none

/-- A process that was registered is released in nine more steps. -/
theorem superviseExec_released {client : Client} {env : ExecEnv} {opts : ExecOpts}
    {id execId : String} {w w₁ : World κ} (hw₁ : LeavesExecs w w₁) (m : Nat) :
    Released id execId w ((superviseExec client env opts id execId).dropped m
        (w₁.noted client (.exec id execId) none)) ↔ 8 < m ∧ Undisturbed client w₁ := by
  have hdeletes : DeletesAfter (κ := κ) client id execId 8
    (superviseExec client env opts id execId) :=
    superviseExec_deletes
  have hgrows := hdeletes.grows m (w₁.noted client (.exec id execId) none)
  have hnew : ∀ {e : Call × Option Code}, Call.leavesExecs e.1 = false →
      (e ∈ newEntries w ((superviseExec client env opts id execId).dropped m
          (w₁.noted client (.exec id execId) none)) ↔
        e = (.exec id execId, none) ∨ e ∈ newEntries (w₁.noted client (.exec id execId) none)
          ((superviseExec client env opts id execId).dropped m
            (w₁.noted client (.exec id execId) none))) := by
    intro e he
    rw [newEntries_of_leavesExecs hw₁ ((Grows.noted client w₁ _ _).trans hgrows) he,
      newEntries_noted hgrows, List.mem_cons]
  refine Iff.trans ?_ (hdeletes.issued m (w₁.noted client (.exec id execId) none))
  constructor
  · intro h
    obtain ⟨code, hmem⟩ := h ((hnew rfl).mpr (.inl rfl))
    rcases (hnew rfl).mp hmem with he | hmem
    · cases he
    · exact ⟨code, hmem⟩
  · rintro ⟨code, hmem⟩ -
    exact ⟨code, (hnew rfl).mpr (.inr hmem)⟩

theorem execWithOpts_released (client : Client) (env : ExecEnv) (id : String)
    (command : List String) (opts : ExecOpts) (w : World κ) (n : Nat) :
    Released id (execId env.processId env.count) w
        ((execWithOpts client env id command opts).dropped n w) ↔
      ∀ request w₁, (prepareExec client env id command).run w = .ok request w₁ → 8 < n →
        client.fault w₁.steps = none → 17 < n ∧ Undisturbed client w₁ := by
  have hleaves : (prepareExec (κ := κ) client env id command).Steps LeavesExecs :=
    prepareExec_leaves
  -- as long as the preparation goes on, nothing is registered
  have hbefore : ∀ m, Released id (execId env.processId env.count) w
      ((prepareExec client env id command).dropped m w) := by
    intro m hmem
    rw [newEntries_of_leavesExecs (hleaves.dropped m w) (Std.Refl.refl _) rfl,
      newEntries_self] at hmem
    cases hmem
  unfold execWithOpts
  cases hprep : (prepareExec client env id command).run w with
  | error e w₁ =>
    rw [Prog.dropped_bind_error hprep]
    exact ⟨fun _ request w' h => (by cases h), fun _ => hbefore n⟩
  | ok request w₁ =>
    have hlen := prepareExec_takes w w₁ request hprep
    by_cases hn : n ≤ 8
    · rw [Prog.dropped_bind_of_le (hlen ▸ hn)]
      exact ⟨fun _ _ _ _ hlt => absurd hn (Nat.not_le.mpr hlt), fun _ => hbefore n⟩
    · obtain ⟨m, rfl⟩ : ∃ m, n = 8 + (m + 1) := ⟨n - 9, by omega⟩
      obtain ⟨hid, hexec⟩ := prepareExec_ids hprep
      have hw₁ : LeavesExecs w w₁ := hleaves.keeps.ok hprep
      rw [← hlen, Prog.dropped_bind_ok hprep, hlen, hid, hexec]
      rcases askExec_cases client "exec_create" (.exec id (execId env.processId env.count))
        (fun _ => ()) w₁ with ⟨hf, hr⟩ | ⟨code, hf, hr⟩
      · rw [dropped_call_ok hr, superviseExec_released hw₁]
        refine ⟨fun h request' w' hprep' _ _ => ?_, fun h => ?_⟩
        · cases hprep'
          exact ⟨by omega, h.2⟩
        · obtain ⟨hm, hundisturbed⟩ := h request w₁ rfl (by omega) hf
          exact ⟨by omega, hundisturbed⟩
      · rw [dropped_call_error hr]
        refine ⟨fun _ request' w' hprep' _ hnone => ?_, fun _ hmem => ?_⟩
        · cases hprep'
          rw [hnone] at hf
          cases hf
        · rw [newEntries_of_leavesExecs hw₁ (Grows.noted client w₁ _ _) rfl,
            newEntries_noted (Std.Refl.refl _), newEntries_self, List.mem_singleton] at hmem
          cases hmem

/-- **When no process is left behind**: exactly when nothing between its registration and its
deletion fails, and the future is dropped outside of these steps, if at all. -/
theorem exec_released_iff (client : Client) (env : ExecEnv) (id : String) (command : List String)
    (opts : ExecOpts) (w : World κ) :
    (∀ n, Released id (execId env.processId env.count) w
        ((execWithOpts client env id command opts).dropped n w) ↔
      ∀ request w₁, (prepareExec client env id command).run w = .ok request w₁ → 8 < n →
        client.fault w₁.steps = none → 17 < n ∧ Undisturbed client w₁) ∧
    (Released id (execId env.processId env.count) w
        (after (execWithOpts client env id command opts).run w) ↔
      ∀ request w₁, (prepareExec client env id command).run w = .ok request w₁ →
        client.fault w₁.steps = none → Undisturbed client w₁) := by
  refine ⟨execWithOpts_released client env id command opts w, ?_⟩
  have hdone := execWithOpts_released client env id command opts w
    (max ((execWithOpts client env id command opts).length w) 18)
  rw [Prog.dropped_of_length_le (le_max_left _ _)] at hdone
  have h18 := le_max_right ((execWithOpts client env id command opts).length w) 18
  rw [hdone]
  constructor
  · exact fun h request w₁ hprep hf => (h request w₁ hprep (by omega) hf).2
  · exact fun h request w₁ hprep _ hf => ⟨by omega, h request w₁ hprep hf⟩

/-- A store with one container. -/
def oneContainer : World Unit where
  snapshots := ∅
  containers := (∅ : AList fun _ : String => ContainerRecord).insert "c1"
    { image := "mongo", snapshotter := defaultSnapshotter, snapshotKey := snapshotKeyFor "c1"
      labels := ∅, spec := none }

/-- The eleventh step, the `Start` of a process, fails. -/
def startFails : Client where
  fault n := if n = 10 then some .unavailable else none

/-- A check that runs into its timeout while the process runs leaves it behind, and so does a
command whose process cannot be started. -/
theorem exec_leaks :
    ¬ Released "c1" "exec-1-0" oneContainer
        (runExecCheck {} {} "c1" ["mongosh"] (some 10) oneContainer).2 ∧
      ¬ Released "c1" "exec-1-0" oneContainer
        (after (execWithOpts startFails {} "c1" ["mongosh"] {}).run oneContainer) := by
  have hregistered : ∀ w' : World Unit, (.exec "c1" "exec-1-0", none) ∈ newEntries oneContainer w' →
      (∀ e ∈ newEntries oneContainer w', e.1 ≠ .deleteExec "c1" "exec-1-0") →
      ¬ Released "c1" "exec-1-0" oneContainer w' := by
    intro w' hexec hnone hreleased
    obtain ⟨code, hmem⟩ := hreleased hexec
    exact hnone _ hmem rfl
  constructor
  · exact hregistered _ (by decide +kernel) (by decide +kernel)
  · exact hregistered _ (by decide +kernel) (by decide +kernel)

end ContainerdManager.Task
