import ContainerdManager.Clone.LiveCommit
import ContainerdManager.Lib.Answers
import ContainerdManager.Task.List

/-!
# Waiting for the exit of a task

`wait_for_exit` of `src/task.rs`, request by request, among any other
programs on the same containerd. The exit code it returns is the one the
task had when it was seen stopped, though the task may be gone by then; a
task that is missing is no reason to fail; and once the task has stopped for
good, one round of the loop is enough (`exit_code_reported`).
-/

namespace ContainerdManager.System

open Lib Containerd Container ContainerdManager.Task

variable {κ ι : Type}

/-! ## The loop -/

/-- `inspect_container`, request by request. -/
def inspectSteps (client : Client) (id : String) : Proc κ ContainerInfo := do
  let record ← call (fetchContainerRecord client id)
  let task ← call (getTaskInfo client id)
  return containerToInfo id record task

theorem inspectSteps_run (client : Client) (id : String) :
    (inspectSteps (κ := κ) client id).run = inspectContainer client id := by
  simp only [inspectSteps, call, Prog.run_bind, Prog.run_atomic, Prog.run_pure]
  rfl

def exitTimeout (id : String) (timeout : Nat) : Error :=
  .timeout ("task " ++ id ++ " did not exit within " ++ debugDuration timeout)

/-- What a round makes of an inspection, if it ends the wait. -/
def exitSeen (id : String) : Except Error ContainerInfo → Option (Except Error Int)
  | .ok info =>
    match info.task with
    | some task =>
      if task.status = .stopped then
        match task.exitCode with
        | some code => some (.ok code)
        | none =>
          some (.error (.taskExited ("task " ++ id ++ " stopped but no exit code reported")))
      else none
    | none => none
  | .error (.containerNotFound _) => some (.error (.containerNotFound id))
  | .error _ => none

/-- The end of a round. -/
def endRound (rest : Proc κ Int) : Option (Except Error Int) → Proc κ Int
  | some (.ok code) => return code
  | some (.error e) => throw e
  | none => rest

/-- The loop with `rounds` polls left: each is followed by a sleep, so that the deadline has passed
when there are none. -/
def waitRounds (client : Client) (id : String) (timeout : Nat) : Nat → Proc κ Int
  | 0 => throw (exitTimeout id timeout)
  | rounds + 1 => do
    if ← call (isLate client) then throw (exitTimeout id timeout)
    else do
      let answer ← (inspectSteps client id).attempt
      endRound (waitRounds client id timeout rounds) (exitSeen id answer)

def waitForExit (client : Client) (id : String) (timeout : Nat) : Proc κ Int :=
  waitRounds client id timeout (timeout / (100 * ms) + 1)

/-! ## What its outcomes show -/

/-- The task has stopped with this code. -/
def Exited (client : Client) (id : String) (code : Int) (w : World κ) : Prop :=
  ∃ process, (client.drift w.steps w.tasks).lookup id = some process ∧
    TaskStatus.from process.status = .stopped ∧ code = (min process.exitStatus i32Max : Nat)

/-- Why the wait ends in a state. -/
def EndsWait (client : Client) (id : String) (timeout : Nat) (w : World κ) :
    Except Error Int → Prop
  | .ok code => Exited client id code w
  | .error e => (e = exitTimeout id timeout ∧ client.late w.steps = true) ∨
      (e = .containerNotFound id ∧
        (client.fault w.steps = some .notFound ∨ w.containers.lookup id = none))

/-- What an inspection has seen in a state. -/
def Inspected (client : Client) (id : String) (w : World κ) : Except Error ContainerInfo → Prop
  | .ok info => ∀ task, info.task = some task →
      ∃ process, (client.drift w.steps w.tasks).lookup id = some process ∧ task = taskInfo process
  | .error e => ∀ id', e = .containerNotFound id' →
      client.fault w.steps = some .notFound ∨ w.containers.lookup id = none

/-- The answer of `tasks.Get` in a state. -/
def TaskAnswered (client : Client) (id : String) (w : World κ)
    (r : Except Error (Option TaskInfo)) : Prop :=
  ∃ answer, r = .ok answer ∧ ∀ task, answer = some task →
    ∃ process, (client.drift w.steps w.tasks).lookup id = some process ∧ task = taskInfo process

theorem getTaskInfo_answered (client : Client) (id : String) (w : World κ) :
    TaskAnswered client id w (result (getTaskInfo client id) w) := by
  rcases Clone.getTaskInfo_cases client id w with ⟨process, -, hl, hr⟩ | ⟨code, -, hr⟩
  · rw [result_ok hr]
    exact ⟨_, rfl, fun task htask => ⟨process, hl, (Option.some.inj htask).symm⟩⟩
  · rw [result_ok hr]
    exact ⟨none, rfl, nofun⟩

theorem fetchContainerRecord_absent {client : Client} {id id' : String} {w : World κ}
    (h : result (fetchContainerRecord client id) w = .error (.containerNotFound id')) :
    client.fault w.steps = some .notFound ∨ w.containers.lookup id = none := by
  rcases getContainer_cases client id w with ⟨record, -, -, hr⟩ | ⟨code, hwhy, hr⟩
  · have hok : fetchContainerRecord client id w = .ok record _ := bind_ok hr
    rw [result_ok hok] at h
    cases h
  · have herror : fetchContainerRecord client id w = _ := bind_ok hr
    unfold result at h
    rw [herror] at h
    cases code with
    | notFound => exact hwhy.imp_right fun hwhy => hwhy.2.1
    | _ => cases h

theorem inspectSteps_shows (client : Client) (id : String) :
    (inspectSteps client id).Shows (Inspected (κ := κ) client id) fun _ => False := by
  refine .bind (F := fun w r => ∀ e, r = .error e → Inspected client id w (.error e))
    (L := fun _ => False) (.atomic fun w => .inr fun e he id' hid => ?_) (fun _ => False.elim)
    (fun w record _ => ?_) (fun _ => False.elim) fun w e h => h e rfl
  · subst hid
    exact fetchContainerRecord_absent he
  · refine .bind (F := TaskAnswered client id) (L := fun _ => False)
      (.atomic fun w => .inr (getTaskInfo_answered client id w)) (fun _ => False.elim)
      (fun w' answer hanswer => .inr fun task htask => ?_) (fun _ => False.elim) fun w' e h => ?_
    · obtain ⟨_, hok, htasks⟩ := hanswer
      cases hok
      exact htasks task htask
    · obtain ⟨_, hok, -⟩ := h
      cases hok

theorem exitSeen_shows {client : Client} {id : String} (timeout : Nat) {w : World κ}
    {r : Except Error ContainerInfo} (h : Inspected client id w r) {exit : Except Error Int}
    (hr : exitSeen id r = some exit) : EndsWait client id timeout w exit := by
  cases r with
  | ok info =>
    unfold exitSeen at hr
    dsimp only at hr
    cases htask : info.task with
    | none =>
      rw [htask] at hr
      cases hr
    | some task =>
      obtain ⟨process, hl, rfl⟩ := h task htask
      rw [htask] at hr
      dsimp only at hr
      split at hr
      · rename_i hstopped
        have hcode : (taskInfo process).exitCode =
            some ((min process.exitStatus i32Max : Nat) : Int) := if_pos hstopped
        rw [hcode] at hr
        cases hr
        exact ⟨process, hl, hstopped, rfl⟩
      · cases hr
  | error e =>
    cases e with
    | containerNotFound id' =>
      cases hr
      exact .inr ⟨rfl, h id' rfl⟩
    | _ => cases hr

/-- **The outcome of a wait shows** in a state it took a step in, or the rounds are over. -/
theorem waitRounds_shows (client : Client) (id : String) (timeout rounds : Nat) :
    (waitRounds client id timeout rounds).Shows (EndsWait (κ := κ) client id timeout)
      (· = .error (exitTimeout id timeout)) := by
  induction rounds with
  | zero => exact rfl
  | succ rounds ih =>
    refine .bind (F := fun w r => r = .ok (client.late w.steps)) (L := fun _ => False)
      (.atomic fun w => .inr rfl) (fun _ => False.elim) (fun w late hlate => ?_)
      (fun _ => False.elim) (fun w e h => by cases h)
    cases late with
    | true => exact .inr (.inl ⟨rfl, (Except.ok.inj hlate).symm⟩)
    | false =>
      refine .bind (F := fun w r => ∃ answer, r = .ok answer ∧ Inspected client id w answer)
        (L := fun _ => False)
        (.attempt (inspectSteps_shows client id) (fun _ => False.elim)
          fun w r h => ⟨r, rfl, h⟩) (fun _ => False.elim) (fun w' answer h => ?_)
        (fun _ => False.elim) (fun w' e h => by obtain ⟨_, h, -⟩ := h; cases h)
      obtain ⟨_, hok, hinspected⟩ := h
      cases hok
      cases hexit : exitSeen id answer with
      | none => exact ih.mono fun r hr => .inl (.inl hr)
      | some exit =>
        have hends := exitSeen_shows timeout hinspected hexit
        cases exit with
        | ok code => exact .inr hends
        | error e => exact .inr hends

/-! ## One round is enough -/

/-- The task has stopped, and the next request says so. -/
structure HasExited (client : Client) (id : String) (process : Process) (w : World κ) : Prop where
  inTime : client.late w.steps = false
  answered : client.fault w.steps = none
  recorded : (w.containers.lookup id).isSome
  task : (client.drift w.steps w.tasks).lookup id = some process

section HasExited

variable {client : Client} {id : String} {process : Process}

/-- The inspection shows the task. -/
def ShowsTask (process : Process) (r : Except Error ContainerInfo) : Prop :=
  ∃ info, r = .ok info ∧ info.task = some (taskInfo process)

theorem inspectSteps_throughout : (inspectSteps client id).Throughout
    fun p => p.Soon (HasExited (κ := κ) client id process) (ShowsTask process) 2 := by
  have htask : (call (getTaskInfo client id)).Soon (HasExited (κ := κ) client id process)
      (· = .ok (some (taskInfo process))) 1 := by
    refine .atomic fun w h => ?_
    rcases Clone.getTaskInfo_cases client id w with ⟨found, -, hl, hr⟩ | ⟨code, hwhy, -⟩
    · cases h.task.symm.trans hl
      exact result_ok hr
    · rcases hwhy with hf | hnone
      · exact absurd h.answered hf
      · cases h.task.symm.trans hnone
  have hrecord : (call (fetchContainerRecord client id)).Soon
      (HasExited (κ := κ) client id process) (fun r => ∃ record, r = .ok record) 1 := by
    refine .atomic fun w h => ?_
    rcases fetchContainerRecord_cases client id w with ⟨record, -, -, hr⟩ | ⟨e, code, hwhy, -⟩
    · exact ⟨record, result_ok hr⟩
    · rcases hwhy with hf | hnone
      · exact absurd h.answered hf
      · have hsome := h.recorded
        rw [hnone] at hsome
        cases hsome
  have hrest (record : ContainerRecord) {q : Proc κ (Option TaskInfo)}
      (hq : q.Soon (HasExited client id process) (· = .ok (some (taskInfo process))) 1) :
      (q >>= fun task => pure (containerToInfo id record task)).Soon
        (HasExited client id process) (ShowsTask process) 1 := by
    refine .bind (n := 0) hq (fun task h => .pure ⟨_, rfl, Except.ok.inj h⟩) fun e h => by cases h
  refine .bind (.atomic hrecord) (fun q hq => ?_) fun record => ?_
  · refine .bind hq (fun record _ => hrest record htask) fun e h => ?_
    obtain ⟨_, h⟩ := h
    cases h
  · exact .bind (.atomic htask) (fun q hq => (hrest record hq).mono (by decide)) fun _ => trivial

/-- **Once the task has stopped**, a wait that still goes on is three steps from its exit code. -/
theorem waitRounds_throughout (hstopped : TaskStatus.from process.status = .stopped)
    (timeout rounds : Nat) : (waitRounds client id timeout rounds).Throughout
      fun p => p.Soon (HasExited (κ := κ) client id process)
        (· = .ok ((min process.exitStatus i32Max : Nat) : Int)) 3 := by
  have hstatus : (taskInfo process).status = .stopped := hstopped
  have hcode : (taskInfo process).exitCode = some ((min process.exitStatus i32Max : Nat) : Int) :=
    if_pos hstopped
  induction rounds with
  | zero => trivial
  | succ rounds ih =>
    have hlate : (call (isLate client)).Soon (HasExited (κ := κ) client id process)
        (· = .ok false) 1 := .atomic fun w h => congrArg Except.ok h.inTime
    have hinspect : (inspectSteps client id).attempt.Throughout fun p =>
        p.Soon (HasExited (κ := κ) client id process)
          (fun r => ∃ answer, r = .ok answer ∧ ShowsTask process answer) 2 :=
      .attempt inspectSteps_throughout fun q hq => hq.attempt fun r hr => ⟨r, rfl, hr⟩
    have hround {q : Proc κ (Except Error ContainerInfo)}
        (hq : q.Soon (HasExited client id process)
          (fun r => ∃ answer, r = .ok answer ∧ ShowsTask process answer) 2) :
        (q >>= fun answer => endRound (waitRounds client id timeout rounds)
          (exitSeen id answer)).Soon (HasExited client id process)
            (· = .ok ((min process.exitStatus i32Max : Nat) : Int)) 2 := by
      refine .bind (n := 0) hq (fun answer h => ?_) fun e h => ?_
      · obtain ⟨_, hok, info, rfl, htask⟩ := h
        cases hok
        have hexit : exitSeen id (.ok info) =
            some (.ok ((min process.exitStatus i32Max : Nat) : Int)) := by
          unfold exitSeen
          dsimp only
          rw [htask]
          dsimp only
          rw [if_pos hstatus, hcode]
        rw [hexit]
        exact .pure rfl
      · obtain ⟨_, h, -⟩ := h
        cases h
    refine .bind (.atomic hlate) (fun q hq => ?_) fun late => ?_
    · refine .bind (m := 1) (n := 2) hq (fun late h => ?_) fun e h => by cases h
      cases h
      exact hround (hinspect.now rfl)
    · cases late with
      | true => trivial
      | false =>
        refine .bind hinspect (fun q hq => (hround hq).mono (by decide)) fun answer => ?_
        unfold endRound
        split
        · trivial
        · trivial
        · exact ih

end HasExited

/-! ## Main result -/

/-- **What a wait for an exit returns**, whatever the other programs do: an exit code that the task
had, stopped, when the wait asked for it, that the record was gone, or that the time was up; and
where the next requests all say that the task has stopped with a code, three of them return it. -/
theorem exit_code_reported [DecidableEq ι] (client : Client) (id : String) (timeout : Nat)
    (p₀ : Pool ι (World κ) Error Int) (i : ι) (hwait : p₀.progs i = waitForExit client id timeout)
    (sched : List ι) (p : Pool ι (World κ) Error Int) (hr : run Pool.step p₀ sched = some p) :
    (∀ r, (p.progs i).result? = some r → r = .error (exitTimeout id timeout) ∨
      ∃ before later q, sched = before ++ i :: later ∧ run Pool.step p₀ before = some q ∧
        EndsWait client id timeout q.state r) ∧
    ∀ process, TaskStatus.from process.status = .stopped → (p.progs i).result? = none →
      ∀ later p', Along Pool.step (fun p j => j = i → HasExited client id process p.state)
        p later → run Pool.step p later = some p' →
        (∀ r, (p'.progs i).result? = some r →
          r = .ok ((min process.exitStatus i32Max : Nat) : Int)) ∧
        ((p'.progs i).result? = none → later.count i < 3) := by
  refine ⟨fun r hres => ?_, fun process hstopped hgoes later p' hexited hlater => ?_⟩
  · have hshows : (p₀.progs i).Shows (EndsWait client id timeout)
        (· = .error (exitTimeout id timeout)) := by
      rw [hwait]
      exact waitRounds_shows client id timeout _
    exact Pool.run_shows hshows hr hres
  · have hnear : (p₀.progs i).Throughout fun q => q.Soon (HasExited client id process)
        (· = .ok ((min process.exitStatus i32Max : Nat) : Int)) 3 := by
      rw [hwait]
      exact waitRounds_throughout hstopped timeout _
    exact Pool.run_soon ((Pool.run_throughout hnear hr).now hgoes) hexited hlater

/-- A container whose task runs. -/
def runningWeb : World Unit :=
  { stoppedWorld 0 with
    tasks := (∅ : Tasks).insert "web" { pid := 7, status := .running, exitStatus := 0 } }

/-- The task is killed after three steps. -/
def killedClient : Client where
  drift n tasks :=
    if n = 3 then tasks.insert "web" { pid := 7, status := .stopped, exitStatus := 137 } else tasks

/-- A wait, and a delete of the task. -/
def waitAndDelete : Pool (Fin 2) (World Unit) Error Int where
  state := runningWeb
  progs i := if i = 0 then waitForExit killedClient "web" (1000 * ms)
    else call (deleteTask killedClient "web") >>= fun _ => pure 0

theorem exit_code_of_deleted : ∃ p,
    run Pool.step waitAndDelete [0, 0, 0, 0, 0, 0, 1] = some p ∧
    (p.progs 0).result? = some (.ok 137) ∧ p.state.tasks.lookup "web" = none ∧
    ∃ before q, run Pool.step waitAndDelete before = some q ∧
      Exited killedClient "web" 137 q.state := by
  obtain ⟨p, hr, hres, hgone⟩ := run_eval Pool.step waitAndDelete [0, 0, 0, 0, 0, 0, 1]
    (fun p => (p.progs 0).result? = some (.ok 137) ∧ p.state.tasks.lookup "web" = none)
    (by decide +kernel)
  have hwait : waitAndDelete.progs 0 = waitForExit killedClient "web" (1000 * ms) := rfl
  rcases (exit_code_reported killedClient "web" (1000 * ms) waitAndDelete 0 hwait
    [0, 0, 0, 0, 0, 0, 1] p hr).1 _ hres with h | ⟨before, later, q, -, hq, hexited⟩
  · cases h
  · exact ⟨p, hr, hres, hgone, before, q, hq, hexited⟩

end ContainerdManager.System
