import ContainerdManager.Clone.SourceRestart
import ContainerdManager.Task.StartFailure

/-!
# Commits under a live task

`snapshot_container` and `clone_container` stop their source before they
commit its active snapshot, but only if the first inspect sees it running: a
paused task and one that `tasks.Get` failed to report are left alone.
`commit_dead_iff` says when no commit meets a live task.
-/

namespace ContainerdManager.Clone

open Lib Containerd Container Snapshot ContainerdManager.Task

variable {κ : Type}

/-- Created, running, pausing or paused. -/
def aliveStatus : Status → Bool
  | .created | .running | .pausing | .paused => true
  | _ => false

/-- The container has a live task. -/
def Alive (tasks : Tasks) (id : String) : Prop :=
  ∃ process, tasks.lookup id = some process ∧ aliveStatus process.status = true

/-- Between two steps of the call no task of the container comes alive. -/
def NoRevival (client : Client) (id : String) : Prop :=
  ∀ n tasks, ¬ Alive tasks id → ¬ Alive (client.drift n tasks) id

/-- `NotFound` is an answer, never a fault. -/
def NotFoundTrue (client : Client) : Prop := ∀ n, client.fault n ≠ some .notFound

/-! ## The commits of the calls -/

/-- `snapshot_container` from `w` issues its `Commit` in `v`. -/
def SnapshotCommitsAt (client : Client) (src name : String) (w : World κ) (record : ContainerRecord)
    (v : World κ) : Prop :=
  ∃ wasRunning, stopForSnapshot client src name w = .ok (record, wasRunning) v

/-- `clone_container` from `w` issues its `Commit` in `v`. -/
def CloneCommitsAt (client : Client) (src : String) (w : World κ) (record : ContainerRecord)
    (v : World κ) : Prop :=
  ∃ info w₁, (stopAndFetch client src).run w = .ok (info, record) w₁ ∧
    statSnapshot client record.snapshotter (cloneBaseFor src) w₁ = .ok (.error .notFound) v

def isCommit : Call → Bool
  | .commit .. => true
  | _ => false

/-- No `Commit` was issued. -/
def Uncommitted (w w' : World κ) : Prop :=
  ∃ new, w'.trace = w.trace ++ new ∧ ∀ e ∈ new, isCommit e.1 = false

instance : Std.Refl (Uncommitted (κ := κ)) := ⟨fun _ => ⟨[], by simp, by simp⟩⟩

instance : IsTrans (World κ) Uncommitted where
  trans w₁ w₂ w₃ h h' := by
    obtain ⟨new, ht, hn⟩ := h
    obtain ⟨new', ht', hn'⟩ := h'
    refine ⟨new ++ new', by rw [ht', ht, List.append_assoc], fun e he => ?_⟩
    rcases List.mem_append.mp he with he | he
    · exact hn e he
    · exact hn' e he

theorem Uncommitted.of_calm {w w' : World κ} (h : Calm w w') : Uncommitted w w' := by
  obtain ⟨new, ht, hn⟩ := h.trace
  refine ⟨new, ht, fun e he => ?_⟩
  have hcalm := hn e he
  cases hcall : e.1 <;> rw [hcall] at hcalm <;> first | rfl | cases hcalm

theorem Uncommitted.of_trace {w w' : World κ} (h : w'.trace = w.trace) : Uncommitted w w' :=
  ⟨[], by rw [h, List.append_nil], by simp⟩

theorem Uncommitted.one {w w' : World κ} {call : Call} {r : Option Code}
    (h : w'.trace = w.trace ++ [(call, r)]) (hcall : isCommit call = false) : Uncommitted w w' :=
  ⟨[(call, r)], h, by simpa using hcall⟩

/-- One `Commit` was issued, in `v`. -/
def CommittedIn (w v w' : World κ) (snapshotter name key : String) : Prop :=
  Uncommitted w v ∧ ∃ r rest, w'.trace = v.trace ++ (.commit snapshotter name key, r) :: rest ∧
    ∀ e ∈ rest, isCommit e.1 = false

theorem CommittedIn.of_one {w v v' w' : World κ} {snapshotter name key : String} {r : Option Code}
    (h : Uncommitted w v) (hv : v'.trace = v.trace ++ [(.commit snapshotter name key, r)])
    (hw : Uncommitted v' w') : CommittedIn w v w' snapshotter name key := by
  obtain ⟨rest, ht, hrest⟩ := hw
  refine ⟨h, r, rest, ?_, hrest⟩
  rw [ht, hv, List.append_assoc]
  rfl

theorem CommittedIn.from {w₀ w v w' : World κ} {snapshotter name key : String}
    (h₀ : Uncommitted w₀ w)
    (h : CommittedIn w v w' snapshotter name key) : CommittedIn w₀ v w' snapshotter name key :=
  ⟨IsTrans.trans _ _ _ h₀ h.1, h.2⟩

theorem CommittedIn.then {w v w' w'' : World κ} {snapshotter name key : String}
    (h : CommittedIn w v w' snapshotter name key) (h' : Uncommitted w' w'') :
    CommittedIn w v w'' snapshotter name key := by
  obtain ⟨hbefore, r, rest, ht, hrest⟩ := h
  obtain ⟨new, ht', hnew⟩ := h'
  refine ⟨hbefore, r, rest ++ new, by rw [ht', ht, List.append_assoc, List.cons_append],
    fun e he => ?_⟩
  rcases List.mem_append.mp he with he | he
  · exact hrest e he
  · exact hnew e he

section Requests

variable {client : Client}

theorem snapshotRequest_uncommitted {call : Call} {answer : Snapshots κ → Except Code (Snapshots κ)}
    (hcall : isCommit call = false) : Keeps Uncommitted (snapshotRequest client call answer) := by
  intro w
  rcases snapshotRequest_cases client call answer w with ⟨snaps, -, -, hr⟩ | ⟨code, -, hr⟩
  · rw [after_ok hr]
    exact .one rfl hcall
  · rw [after_ok hr]
    exact .one rfl hcall

theorem snapshotRequest_commits (client : Client) (snapshotter name key : String)
    (answer : Snapshots κ → Except Code (Snapshots κ)) (w : World κ) :
    ∃ committed r w', snapshotRequest client (.commit snapshotter name key) answer w =
      .ok committed w' ∧
      w'.trace = w.trace ++ [(.commit snapshotter name key, r)] := by
  rcases snapshotRequest_cases client (.commit snapshotter name key) answer w with
    ⟨snaps, -, -, hr⟩ | ⟨code, -, hr⟩
  · exact ⟨_, _, _, hr, rfl⟩
  · exact ⟨_, _, _, hr, rfl⟩

end Requests

/-- **`snapshot_container` issues its `Commit` behind the stop, and no other.** -/
theorem snapshotContainer_commits (client : Client) (src name : String)
    (opts : SnapshotContainerOpts) (w : World κ) :
    ((∀ record v, ¬ SnapshotCommitsAt client src name w record v) ∧
      Uncommitted w (after (snapshotContainer client src name opts) w)) ∨
    ∃ record v, SnapshotCommitsAt client src name w record v ∧
      CommittedIn w v (after (snapshotContainer client src name opts) w) record.snapshotter name
        record.snapshotKey := by
  cases hstop : stopForSnapshot client src name w with
  | error e w₁ =>
    refine .inl ⟨fun record v ⟨_, h⟩ => ?_, ?_⟩
    · rw [hstop] at h
      cases h
    · rw [snapshotContainer, after_bind_error hstop]
      exact .of_calm (stopForSnapshot_keeps.error hstop)
  | ok p w₁ =>
    obtain ⟨record, wasRunning⟩ := p
    refine .inr ⟨record, w₁, ⟨wasRunning, hstop⟩, ?_⟩
    rw [snapshotContainer, after_bind_ok hstop]
    obtain ⟨committed, r, w₂, hcommit, ht⟩ := snapshotRequest_commits client
      record.snapshotter name record.snapshotKey (fun snaps => snaps.commit record.snapshotter name
        record.snapshotKey (snapshotLabels record.image opts.description)) w₁
    refine .of_one (.of_calm (stopForSnapshot_keeps.ok hstop)) ht ?_
    dsimp only
    rw [commitSnapshot, after_bind_ok hcommit]
    have hrestart : Keeps Uncommitted
        (restartSource (κ := κ) client src (wasRunning && opts.restartSrc)) :=
      fun w => .of_calm (restartSource_keeps w)
    cases committed with
    | error code => exact (Keeps.bind hrestart fun _ => .throw _) w₂
    | ok _ =>
      refine (Keeps.bind (snapshotRequest_uncommitted rfl) fun prepared => ?_) w₂
      cases prepared with
      | error code => exact .bind (snapshotRequest_uncommitted rfl) fun _ => .throw _
      | ok _ => exact hrestart

theorem createRecord_uncommitted {client : Client} {id : String} {record : ContainerRecord} :
    Keeps (Uncommitted (κ := κ)) (createRecord client id record) := by
  intro w
  rcases createRecord_cases client w id record with ⟨-, -, hr⟩ | ⟨code, hr⟩
  · rw [after_ok hr]
    exact .one rfl rfl
  · rw [after_ok hr]
    exact .one rfl rfl

theorem createContainerWithId_uncommitted {client : Client} {id name image : String}
    {opts : CreateContainerOpts} :
    (createContainerWithId client id name image opts).Steps (Uncommitted (κ := κ)) :=
  createContainerWithId_steps (fun _ _ => .of_calm) (checkName_keeps fun _ _ => .one rfl rfl)
    (fun _ _ => snapshotRequest_uncommitted rfl) (allocBridgeIp_keeps fun _ _ _ => .one rfl rfl)
    (fun _ _ => .of_trace rfl) (fun _ _ _ => createRecord_uncommitted)
    fun _ => snapshotRequest_uncommitted rfl

/-- What a clone does behind its base. -/
theorem cloneRest_uncommitted {client : Client} {snapshotter src dst dstName : String}
    {srcInfo : ContainerInfo} {opts : CloneContainerOpts} :
    Keeps (Uncommitted (κ := κ)) (prepareCloneSnapshot client snapshotter (snapshotKeyFor dst)
      (cloneBaseFor src) dstName >>= fun _ =>
        recordClone client snapshotter dst dstName srcInfo opts).run :=
  (Prog.Steps.bind (prepareCloneSnapshot_steps (snapshotRequest_uncommitted rfl)) fun _ =>
    recordClone_steps (fun _ _ _ => createContainerWithId_uncommitted)
      (snapshotRequest_uncommitted rfl)).keeps

/-- The part of `ensure_clone_base` that commits. -/
theorem commitCloneBase_commits (client : Client) (snapshotter key base : String) (w : World κ) :
    ∃ r w', w'.trace = w.trace ++ [(.commit snapshotter base key, r)] ∧
      Uncommitted w' (after (commitCloneBase client snapshotter key base).run w) := by
  obtain ⟨committed, r, w', hcommit, ht⟩ := snapshotRequest_commits client snapshotter base key
    (fun snaps => snaps.commit snapshotter base key ∅) w
  refine ⟨r, w', ht, ?_⟩
  have hprepare : Keeps Uncommitted (reprepareSource (κ := κ) client snapshotter key base).run := by
    simp only [reprepareSource, call, Prog.run_bind, Prog.run_atomic]
    refine .bind (snapshotRequest_uncommitted rfl) fun prepared => ?_
    cases prepared with
    | ok _ => exact .pure _
    | error code => dsimp only; split <;> first | exact .pure _ | exact .throw _
  simp only [commitCloneBase, commitActive, call, Prog.run_bind, Prog.run_atomic]
  rw [after_bind_ok hcommit]
  cases committed with
  | ok _ => exact hprepare w'
  | error code => dsimp only; split <;> exact Std.Refl.refl w'

/-- The base of a clone, and what follows it. -/
theorem ensureCloneBase_commits (client : Client) (snapshotter key base : String)
    {f : Unit → Op κ String} (hf : ∀ u, Keeps Uncommitted (f u)) (w : World κ) :
    ((∀ v, statSnapshot client snapshotter base w ≠ .ok (.error .notFound) v) ∧
      Uncommitted w (after ((ensureCloneBase client snapshotter key base).run >>= f) w)) ∨
    ∃ v, statSnapshot client snapshotter base w = .ok (.error .notFound) v ∧
      CommittedIn w v (after ((ensureCloneBase client snapshotter key base).run >>= f) w)
        snapshotter base
        key := by
  rcases statSnapshot_cases client w snapshotter base with ⟨snap, -, hr⟩ | ⟨code, -, hr⟩
  · have hensure : (ensureCloneBase client snapshotter key base).run w =
        .ok () (w.noted client (.stat snapshotter base) none) := by
      simp only [ensureCloneBase, call, Prog.run_bind, Prog.run_atomic]
      exact bind_ok hr
    refine .inl ⟨fun v h => ?_, ?_⟩
    · rw [hr] at h
      cases h
    · rw [after_bind_ok hensure]
      exact IsTrans.trans _ _ _ (.one rfl rfl)
        (hf () (w.noted client (.stat snapshotter base) none))
  · by_cases hcode : code = .notFound
    · subst hcode
      have hensure : (ensureCloneBase client snapshotter key base).run w =
          (commitCloneBase client snapshotter key base).run
            (w.noted client (.stat snapshotter base) (some .notFound)) := by
        simp only [ensureCloneBase, call, Prog.run_bind, Prog.run_atomic]
        exact bind_ok hr
      obtain ⟨r, w', ht, hrest⟩ := commitCloneBase_commits client snapshotter key base
        (w.noted client (.stat snapshotter base) (some .notFound))
      refine .inr ⟨_, hr, .of_one (.one rfl rfl) ht (IsTrans.trans _ _ _ hrest ?_)⟩
      cases hcommit : (commitCloneBase client snapshotter key base).run
          (w.noted client (.stat snapshotter base) (some .notFound)) with
      | ok _ w₂ =>
        rw [after_ok hcommit, after_bind_ok (hensure.trans hcommit)]
        exact hf () w₂
      | error e w₂ =>
        rw [after_error hcommit, after_bind_error (hensure.trans hcommit)]
        exact Std.Refl.refl w₂
    · have hensure : (ensureCloneBase client snapshotter key base).run w =
          .error (.containerd "clone_stat_base" code)
            (w.noted client (.stat snapshotter base) (some code)) := by
        simp only [ensureCloneBase, call, Prog.run_bind, Prog.run_atomic]
        rw [bind_ok hr]
        simp only [if_neg hcode]
        rfl
      refine .inl ⟨fun v h => ?_, ?_⟩
      · rw [hr] at h
        cases h
        exact hcode rfl
      · rw [after_bind_error hensure]
        exact .one rfl rfl

/-- **`clone_container` issues its `Commit` behind a `Stat` that finds no base, and no other.** -/
theorem cloneContainer_commits (client : Client) (src dst dstName : String)
    (opts : CloneContainerOpts) (w : World κ) :
    ((∀ record v, ¬ CloneCommitsAt client src w record v) ∧
      Uncommitted w (after (cloneContainer client src dst dstName opts).run w)) ∨
    ∃ record v, CloneCommitsAt client src w record v ∧
      CommittedIn w v (after (cloneContainer client src dst dstName opts).run w) record.snapshotter
        (cloneBaseFor src) record.snapshotKey := by
  rcases cloneContainer_after client src dst dstName opts w with
    ⟨⟨e, w', hfails⟩, hcalm⟩ | ⟨srcInfo, record, w₁, hfetch, hcalm⟩
  · refine .inl ⟨fun record v ⟨info, w₁, hok, _⟩ => ?_, .of_calm hcalm⟩
    cases hfails.symm.trans hok
  · have hw₁ : Uncommitted w w₁ := .of_calm (stopAndFetch_calm.keeps.ok hfetch)
    have hrest : ∀ _ : Unit,
        Keeps (Uncommitted (κ := κ)) (prepareCloneSnapshot client record.snapshotter
        (snapshotKeyFor dst) (cloneBaseFor src) dstName >>= fun _ =>
          recordClone client record.snapshotter dst dstName srcInfo opts).run :=
      fun _ => cloneRest_uncommitted
    rw [cloneFrom, Prog.run_bind] at hcalm
    rcases ensureCloneBase_commits client record.snapshotter record.snapshotKey (cloneBaseFor src)
        hrest w₁ with ⟨hnone, hun⟩ | ⟨v, hstat, hcommitted⟩
    · refine .inl ⟨fun record' v ⟨info, w₁', hok, hstat⟩ => ?_,
        IsTrans.trans _ _ _ hw₁ (IsTrans.trans _ _ _ hun (.of_calm hcalm))⟩
      cases hfetch.symm.trans hok
      exact hnone v hstat
    · exact .inr ⟨record, v, ⟨srcInfo, w₁, hfetch, hstat⟩,
        (hcommitted.from hw₁).then (.of_calm hcalm)⟩

/-! ## What the first inspect sees -/

/-- The `tasks.Get` of the first inspect, the second step, is answered with a task that counts as
running. -/
def SeenRunning (client : Client) (src : String) (w : World κ) : Prop :=
  client.fault (w.steps + 1) = none ∧ ∃ process, (tasksAt client w 2).lookup src = some process ∧
    TaskStatus.from process.status = .running

section Inspect

variable (client : Client) (id : String) (w : World κ)

theorem getTaskInfo_cases :
    (∃ process, client.fault w.steps = none ∧ (client.drift w.steps w.tasks).lookup id =
      some process ∧
      getTaskInfo client id w = .ok (some (taskInfo process)) (w.noted client (.getTask id) none)) ∨
    (∃ code, (client.fault w.steps ≠ none ∨ (client.drift w.steps w.tasks).lookup id = none) ∧
      getTaskInfo client id w = .ok none (w.noted client (.getTask id) (some code))) := by
  unfold getTaskInfo
  rcases query_lookup_cases client (.getTask id) (fun w => w.tasks.lookup id)
    (fun process => process) w with
    ⟨process, hf, hl, hr⟩ | ⟨code, hf | ⟨-, hnone, -⟩, hr⟩
  · exact .inl ⟨process, hf, hl, bind_ok hr⟩
  · exact .inr ⟨code, .inl (by rw [hf]; simp), bind_ok hr⟩
  · exact .inr ⟨code, .inr hnone, bind_ok hr⟩

/-- **What an inspect can do**: its second step decides whether the task counts as running. -/
theorem inspectContainer_cases :
    (∃ info w₁, client.fault w.steps = none ∧ (w.containers.lookup id).isSome ∧
      inspectContainer client id w = .ok info w₁ ∧ Later client id 2 [] w w₁ ∧
      ((info.task.any fun t => t.status = .running) = true ↔ SeenRunning client id w)) ∨
    (∃ e w₁, (client.fault w.steps ≠ none ∨ w.containers.lookup id = none) ∧
      inspectContainer client id w = .error e w₁) := by
  unfold inspectContainer
  rcases fetchContainerRecord_cases client id w with ⟨record, hf, hl, hr⟩ | ⟨e, code, hwhy, hr⟩
  · have h1 := (Later.refl client id w).noted (.getContainer id) none
    have htasks : client.drift (w.noted client (.getContainer id) none).steps
        (w.noted client (.getContainer id) none).tasks = tasksAt client w 2 := h1.advance.tasks
    rw [bind_ok hr]
    refine .inl ?_
    rcases getTaskInfo_cases client id (w.noted client (.getContainer id) none) with
      ⟨process, hf1, ht, hr⟩ | ⟨code, hwhy, hr⟩
    · rw [htasks] at ht
      refine ⟨containerToInfo id record (some (taskInfo process)), _, hf, by rw [hl]; rfl,
        bind_ok hr,
        h1.noted _ _, ?_⟩
      constructor
      · intro hrunning
        exact ⟨hf1, process, ht, by simpa [containerToInfo, taskInfo] using hrunning⟩
      · rintro ⟨-, process', ht', hrunning⟩
        cases ht.symm.trans ht'
        simpa [containerToInfo, taskInfo] using hrunning
    · rw [htasks] at hwhy
      refine ⟨containerToInfo id record none, _, hf, by rw [hl]; rfl, bind_ok hr, h1.noted _ _, ?_⟩
      refine iff_of_false (by simp [containerToInfo]) ?_
      rintro ⟨hf1, process, ht, -⟩
      rcases hwhy with hf1' | hnone
      · exact hf1' hf1
      · cases hnone.symm.trans ht
  · exact .inr ⟨e, _, hwhy, bind_error hr⟩

end Inspect

/-! ## The task at the commit -/

section Task

variable {client : Client} {src : String} {w v : World κ}

theorem deleteTask_gone (htrue : NotFoundTrue client) (h : deleteTask client src w = .ok () v) :
    v.tasks.lookup src = none := by
  unfold deleteTask at h
  rcases taskRequest_cases client (.deleteTask src) (deleteAnswer src) w with
    ⟨tasks, -, ha, hr⟩ | ⟨code, hc, hr⟩
  · rw [bind_ok hr] at h
    cases h
    show tasks.lookup src = none
    unfold deleteAnswer at ha
    split at ha
    · cases ha
    · split at ha
      · cases ha
        exact AList.lookup_erase _ _
      · cases ha
  · rw [bind_ok hr] at h
    cases code <;> cases h
    rcases hc with hf | ⟨-, ha⟩
    · exact absurd hf (htrue _)
    · show (client.drift w.steps w.tasks).lookup src = none
      unfold deleteAnswer at ha
      split at ha
      · assumption
      · split at ha <;> cases ha

theorem retryDelete_gone (htrue : NotFoundTrue client) {retries : Nat}
    (h : retryDelete client src retries w = .ok () v) : v.tasks.lookup src = none := by
  induction retries generalizing w with
  | zero => exact deleteTask_gone htrue h
  | succ retries ih =>
    cases hd : deleteTask client src w with
    | ok _ w₁ =>
      rw [retryDelete, bind_ok (attempt_ok hd)] at h
      cases h
      exact deleteTask_gone htrue hd
    | error e w₁ =>
      rw [retryDelete, bind_ok (attempt_error hd)] at h
      dsimp only at h
      split at h
      · obtain ⟨late, w₂, -, h⟩ := bind_eq_ok h
        cases late with
        | true => cases h
        | false => exact ih h
      · cases h

theorem not_alive_of_gone (h : v.tasks.lookup src = none) : ¬ Alive v.tasks src := by
  rintro ⟨process, hl, -⟩
  cases h.symm.trans hl

/-- **A source that is seen running is dead when it has been stopped and its task deleted.** -/
theorem stopAndFetch_seen (htrue : NotFoundTrue client) (hrevive : NoRevival client src)
    (hseen : SeenRunning client src w) {info : ContainerInfo} {record : ContainerRecord}
    (h : (stopAndFetch client src).run w = .ok (info, record) v) : ¬ Alive v.tasks src := by
  simp only [stopAndFetch, call, Prog.run_bind, Prog.run_atomic] at h
  rcases inspectContainer_cases client src w with ⟨info', w₁, -, -, hr, -, hiff⟩ | ⟨e, w₁, -, hr⟩
  · rw [bind_ok hr, hiff.mpr hseen] at h
    obtain ⟨_, w₂, hstop, h⟩ := bind_eq_ok h
    unfold stopSource at hstop
    simp only [if_true, call, Prog.run_bind, Prog.run_atomic] at hstop
    obtain ⟨_, w₃, -, hdelete⟩ := bind_eq_ok hstop
    have hdead := not_alive_of_gone (retryDelete_gone htrue hdelete)
    rcases fetchContainerRecord_cases client src w₂ with ⟨found, -, -, hr⟩ | ⟨e, code, -, hr⟩
    · rw [bind_ok hr] at h
      cases h
      exact hrevive _ _ hdead
    · rw [bind_error hr] at h
      cases h
  · rw [bind_error hr] at h
    cases h

/-- **A source that is not seen running is left as it is.** -/
theorem stopAndFetch_unseen (hseen : ¬ SeenRunning client src w) (record : ContainerRecord) :
    (∀ info v, (stopAndFetch client src).run w = .ok (info, record) v →
      client.fault w.steps = none ∧ client.fault (w.steps + 2) = none ∧
        w.containers.lookup src = some record ∧ Later client src 3 [] w v) ∧
    (client.fault w.steps = none → client.fault (w.steps + 2) = none →
      w.containers.lookup src = some record →
        ∃ info v, (stopAndFetch client src).run w = .ok (info, record) v) := by
  simp only [stopAndFetch, call, Prog.run_bind, Prog.run_atomic]
  rcases inspectContainer_cases client src w with ⟨info', w₁, hf, -, hr, hlater, hiff⟩ |
    ⟨e, w₁, hwhy, hr⟩
  · have hunseen : (info'.task.any fun t => t.status = .running) = false := by
      rw [← Bool.not_eq_true, hiff]
      exact hseen
    have hsource : (stopSource client src false).run w₁ = .ok () w₁ := rfl
    rw [bind_ok hr, hunseen, bind_ok hsource]
    rcases fetchContainerRecord_cases client src w₁ with ⟨found, hf₂, hl, hr⟩ | ⟨e, code, hwhy, hr⟩
    · rw [hlater.steps] at hf₂
      rw [hlater.containers] at hl
      rw [bind_ok hr]
      refine ⟨fun info v h => ?_, fun _ _ hl' => ?_⟩
      · cases h
        exact ⟨hf, hf₂, hl, hlater.noted _ _⟩
      · cases hl.symm.trans hl'
        exact ⟨_, _, rfl⟩
    · rw [hlater.steps, hlater.containers] at hwhy
      rw [bind_error hr]
      refine ⟨fun info v h => (by cases h), fun _ hf₂ hl => ?_⟩
      rcases hwhy with hf | hnone
      · exact absurd hf₂ hf
      · cases hnone.symm.trans hl
  · rw [bind_error hr]
    refine ⟨fun info v h => (by cases h), fun hf _ hl => ?_⟩
    rcases hwhy with hf' | hnone
    · exact absurd hf hf'
    · cases hnone.symm.trans hl

end Task

/-- Both calls reach their record in the same way. -/
theorem snapshotCommitsAt_iff {client : Client} {src name : String} {w v : World κ}
    {record : ContainerRecord} : SnapshotCommitsAt client src name w record v ↔
      name ≠ "" ∧ ∃ info, (stopAndFetch client src).run w = .ok (info, record) v := by
  unfold SnapshotCommitsAt stopForSnapshot
  by_cases hname : name = ""
  · subst hname
    refine iff_of_false ?_ fun h => h.1 rfl
    rintro ⟨_, h⟩
    cases h
  · have hempty : name.isEmpty = false := by simpa using hname
    rw [hempty]
    simp only [Bool.false_eq_true, if_false, stopAndFetch, call, Prog.run_bind, Prog.run_atomic]
    rcases inspectContainer_cases client src w with ⟨info, w₁, -, -, hr, -, -⟩ | ⟨e, w₁, -, hr⟩
    · simp only [bind_ok hr]
      cases hrunning : info.task.any fun t => t.status = .running with
      | true =>
        simp only [stopSource, if_true, call, Prog.run_bind, Prog.run_atomic]
        constructor
        · rintro ⟨wasRunning, h⟩
          obtain ⟨_, w₂, hstop, h⟩ := bind_eq_ok h
          obtain ⟨_, w₃, hdelete, h⟩ := bind_eq_ok h
          obtain ⟨found, w₄, hfetch, h⟩ := bind_eq_ok h
          cases h
          refine ⟨hname, info, ?_⟩
          rw [bind_ok ((bind_ok hstop).trans hdelete), bind_ok hfetch]
          rfl
        · rintro ⟨-, info', h⟩
          obtain ⟨_, w₃, hsource, h⟩ := bind_eq_ok h
          obtain ⟨_, w₂, hstop, hdelete⟩ := bind_eq_ok hsource
          obtain ⟨found, w₄, hfetch, h⟩ := bind_eq_ok h
          cases h
          refine ⟨true, ?_⟩
          rw [bind_ok hstop, bind_ok hdelete, bind_ok hfetch]
          rfl
      | false =>
        have hsource : (stopSource client src false).run w₁ = .ok () w₁ := rfl
        simp only [Bool.false_eq_true, if_false, bind_ok hsource]
        constructor
        · rintro ⟨wasRunning, h⟩
          obtain ⟨found, w₄, hfetch, h⟩ := bind_eq_ok h
          cases h
          refine ⟨hname, info, ?_⟩
          rw [bind_ok hfetch]
          rfl
        · rintro ⟨-, info', h⟩
          obtain ⟨found, w₄, hfetch, h⟩ := bind_eq_ok h
          cases h
          refine ⟨false, ?_⟩
          rw [bind_ok hfetch]
          rfl
    · simp only [bind_error hr]
      constructor
      · rintro ⟨_, h⟩
        cases h
      · rintro ⟨-, _, h⟩
        cases h

/-- The commits of a source that is not seen running. -/
theorem unseen_commits {client : Client} {src : String} (name : String) {w : World κ}
    {record : ContainerRecord}
    (hseen : ¬ SeenRunning client src w) (hf : client.fault w.steps = none)
    (hf₂ : client.fault (w.steps + 2) = none) (hl : w.containers.lookup src = some record) :
    (name ≠ "" → ∃ v, SnapshotCommitsAt client src name w record v ∧
      (v.advance client).tasks = tasksAt client w 4) ∧
    (client.fault (w.steps + 3) = none →
      w.snapshots.lookup (record.snapshotter, cloneBaseFor src) = none →
      ∃ v, CloneCommitsAt client src w record v ∧
        (v.advance client).tasks = tasksAt client w 5) := by
  obtain ⟨info, v, hrun⟩ := (stopAndFetch_unseen hseen record).2 hf hf₂ hl
  have hlater := ((stopAndFetch_unseen hseen record).1 info v hrun).2.2.2
  refine ⟨fun hname => ⟨v, snapshotCommitsAt_iff.mpr ⟨hname, info, hrun⟩, hlater.advance.tasks⟩,
    fun hf₃ hbase => ?_⟩
  rcases statSnapshot_cases client v record.snapshotter (cloneBaseFor src) with
    ⟨snap, hl', hr⟩ | ⟨code, hc, hr⟩
  · rw [hlater.snapshots, hbase] at hl'
    cases hl'
  · rw [hlater.steps, hf₃] at hc
    rcases hc with hf₃' | ⟨-, rfl, -⟩
    · cases hf₃'
    · exact ⟨_, ⟨info, v, hrun, hr⟩, (hlater.noted _ _).advance.tasks⟩

/-! ## All together -/

/-- A source that is not seen running has no live task when the `Commit` of a snapshot,
the fourth step, is reached. -/
def SnapshotSpares (client : Client) (src name : String) (w : World κ) : Prop :=
  name ≠ "" → client.fault w.steps = none → ¬ SeenRunning client src w →
    client.fault (w.steps + 2) = none → (w.containers.lookup src).isSome →
    ¬ Alive (tasksAt client w 4) src

/-- The same for a clone: its `Commit` is the fifth step, behind a `Stat` that finds no base. -/
def CloneSpares (client : Client) (src : String) (w : World κ) : Prop :=
  ∀ record, client.fault w.steps = none → ¬ SeenRunning client src w →
    client.fault (w.steps + 2) = none → w.containers.lookup src = some record →
    client.fault (w.steps + 3) = none →
    w.snapshots.lookup (record.snapshotter, cloneBaseFor src) = none →
    ¬ Alive (tasksAt client w 5) src

/-- **When no `Commit` meets a live task.** A source that is seen running is dead by then; any other
is committed as it is, so that the two calls keep clear of live tasks exactly if no live task is
reported as not running, by a status or by a failing `Get`, and still alive at the `Commit`. -/
theorem commit_dead_iff (client : Client) (src name : String) (w : World κ)
    (htrue : NotFoundTrue client) (hrevive : NoRevival client src) :
    ((∀ record v, SnapshotCommitsAt client src name w record v →
        ¬ Alive (v.advance client).tasks src) ↔ SnapshotSpares client src name w) ∧
    ((∀ record v, CloneCommitsAt client src w record v → ¬ Alive (v.advance client).tasks src) ↔
      CloneSpares client src w) := by
  by_cases hseen : SeenRunning client src w
  · refine ⟨iff_of_true (fun record v hc => ?_) fun _ _ h => absurd hseen h,
      iff_of_true (fun record v hc => ?_) fun _ _ h => absurd hseen h⟩
    · obtain ⟨-, info, hrun⟩ := snapshotCommitsAt_iff.mp hc
      exact hrevive _ _ (stopAndFetch_seen htrue hrevive hseen hrun)
    · obtain ⟨info, w₁, hrun, hstat⟩ := hc
      have hdead := hrevive w₁.steps _ (stopAndFetch_seen htrue hrevive hseen hrun)
      rcases statSnapshot_cases client w₁ record.snapshotter (cloneBaseFor src) with
        ⟨snap, -, hr⟩ | ⟨code, -, hr⟩
      · cases hr.symm.trans hstat
      · cases hr.symm.trans hstat
        exact hrevive _ _ hdead
  · constructor
    · constructor
      · intro h hname hf _ hf₂ hl
        obtain ⟨record, hl⟩ := Option.isSome_iff_exists.mp hl
        obtain ⟨v, hcommit, htasks⟩ := (unseen_commits name hseen hf hf₂ hl).1 hname
        rw [← htasks]
        exact h record v hcommit
      · intro h record v hc
        obtain ⟨hname, info, hrun⟩ := snapshotCommitsAt_iff.mp hc
        obtain ⟨hf, hf₂, hl, hlater⟩ := (stopAndFetch_unseen hseen record).1 info v hrun
        rw [hlater.advance.tasks]
        exact h hname hf hseen hf₂ (by rw [hl]; rfl)
    · constructor
      · intro h record hf _ hf₂ hl hf₃ hbase
        obtain ⟨v, hcommit, htasks⟩ := (unseen_commits name hseen hf hf₂ hl).2 hf₃ hbase
        rw [← htasks]
        exact h record v hcommit
      · rintro h record v ⟨info, w₁, hrun, hstat⟩
        obtain ⟨hf, hf₂, hl, hlater⟩ := (stopAndFetch_unseen hseen record).1 info w₁ hrun
        rcases statSnapshot_cases client w₁ record.snapshotter (cloneBaseFor src) with
          ⟨snap, -, hr⟩ | ⟨code, hc, hr⟩
        · cases hr.symm.trans hstat
        · cases hr.symm.trans hstat
          rw [(hlater.noted _ _).advance.tasks]
          rw [hlater.steps, hlater.snapshots] at hc
          rcases hc with hf₃ | ⟨hf₃, -, hbase⟩
          · exact absurd hf₃ (htrue _)
          · exact h record hf hseen hf₂ hl hf₃ hbase

/-! ## A paused source -/

/-- The source of `sourceWorld`, with a task. -/
def taskWorld (status : Status) : World Unit :=
  { sourceWorld with tasks :=
    (∅ : Tasks).insert "web" { pid := 7, status := status, exitStatus := 0 } }

/-- The first `tasks.Get` fails. -/
def blindClient : Client where
  fault n := if n = 1 then some .unavailable else none

theorem tasksAt_still {client : Client} (h : client.drift = fun _ tasks => tasks) (w : World κ)
    (n : Nat) :
    tasksAt client w n = w.tasks := by
  induction n with
  | zero => rfl
  | succ n ih => rw [tasksAt, ih, h]

/-- A source that exits on the signal is stopped, deleted and committed by both calls. -/
theorem running_commits :
    (∃ v, SnapshotCommitsAt (signalled none) "web" "v1" (taskWorld .running) sourceRecord v) ∧
      ∃ v, CloneCommitsAt (signalled none) "web" (taskWorld .running) sourceRecord v := by
  have hrecord : (taskWorld .running).containers.lookup "web" = some sourceRecord :=
    AList.lookup_insert _
  constructor
  · have hstopped : (result (stopForSnapshot (signalled none) "web" "v1")
        (taskWorld .running)).toOption.map Prod.snd = some true := by decide +kernel
    obtain ⟨⟨record, wasRunning⟩, hr, -⟩ := Option.map_eq_some_iff.mp hstopped
    obtain ⟨v, hr⟩ := ok_of_result hr
    have hfound := stopForSnapshot_record hr
    cases hrecord.symm.trans hfound
    exact ⟨v, wasRunning, hr⟩
  · have hstopped : (result (stopAndFetch (signalled none) "web").run
        (taskWorld .running)).toOption.isSome = true := by decide +kernel
    obtain ⟨⟨info, record⟩, hr⟩ := Option.isSome_iff_exists.mp hstopped
    obtain ⟨w₁, hr⟩ := ok_of_result hr
    have hfound := stopAndFetch_record hr
    cases hrecord.symm.trans hfound
    have hsnapshots : w₁.snapshots = (taskWorld .running).snapshots :=
      (stopAndFetch_calm.keeps.ok hr).toSameStore.snapshots
    rcases statSnapshot_cases (signalled none) w₁ sourceRecord.snapshotter (cloneBaseFor "web") with
      ⟨snap, hl, -⟩ | ⟨code, hf | ⟨-, rfl, -⟩, hstat⟩
    · have hnone : (taskWorld .running).snapshots.lookup
          (sourceRecord.snapshotter, cloneBaseFor "web") = none := by decide +kernel
      rw [hsnapshots, hnone] at hl
      cases hl
    · cases hf
    · exact ⟨_, info, w₁, hr, hstat⟩

/-- A stopped source is dead when it is committed, and so is one that is seen running, stopped and
deleted. -/
theorem stopped_commits_dead :
    ((∀ record v, SnapshotCommitsAt {} "web" "v1" (taskWorld .stopped) record v →
        ¬ Alive (v.advance {}).tasks "web") ∧
      ∀ record v, CloneCommitsAt {} "web" (taskWorld .stopped) record v →
        ¬ Alive (v.advance {}).tasks "web") ∧
    (∃ v, SnapshotCommitsAt (signalled none) "web" "v1" (taskWorld .running) sourceRecord v ∧
        ¬ Alive (v.advance (signalled none)).tasks "web") ∧
      ∃ v, CloneCommitsAt (signalled none) "web" (taskWorld .running) sourceRecord v ∧
        ¬ Alive (v.advance (signalled none)).tasks "web" := by
  have hdead : ∀ n, ¬ Alive (tasksAt {} (taskWorld .stopped) n) "web" := by
    rintro n ⟨process, hl, halive⟩
    rw [tasksAt_still rfl] at hl
    cases (AList.lookup_insert _).symm.trans hl
    cases halive
  obtain ⟨hsnapshot, hclone⟩ := commit_dead_iff {} "web" "v1" (taskWorld .stopped)
    (fun _ h => by cases h) fun _ _ h => h
  have hrevive : NoRevival (signalled none) "web" := by
    rintro n tasks h ⟨process, hl, halive⟩
    simp only [signalled] at hl
    split at hl
    · cases (AList.lookup_insert _).symm.trans hl
      cases halive
    · exact h ⟨process, hl, halive⟩
  have hseen : SeenRunning (signalled none) "web" (taskWorld .running) :=
    ⟨rfl, _, AList.lookup_insert _, rfl⟩
  obtain ⟨hsnapshot', hclone'⟩ := commit_dead_iff (signalled none) "web" "v1" (taskWorld .running)
    (fun _ h => by cases h) hrevive
  obtain ⟨⟨v, hc⟩, v₂, hc₂⟩ := running_commits
  exact ⟨⟨hsnapshot.mpr fun _ _ _ _ _ => hdead 4, hclone.mpr fun _ _ _ _ _ _ _ => hdead 5⟩,
    ⟨v, hc, hsnapshot'.mpr (fun _ _ hnot => absurd hseen hnot) _ _ hc⟩,
    v₂, hc₂, hclone'.mpr (fun _ _ hnot => absurd hseen hnot) _ _ hc₂⟩

/-- **A paused source, and a running one that the first `tasks.Get` fails to report, are committed
alive** by both calls. -/
theorem commits_alive :
    ((∃ record v, SnapshotCommitsAt {} "web" "v1" (taskWorld .paused) record v ∧
        Alive (v.advance {}).tasks "web") ∧
      ∃ record v, CloneCommitsAt {} "web" (taskWorld .paused) record v ∧
        Alive (v.advance {}).tasks "web") ∧
    (∃ record v, SnapshotCommitsAt blindClient "web" "v1" (taskWorld .running) record v ∧
        Alive (v.advance blindClient).tasks "web") ∧
      ∃ record v, CloneCommitsAt blindClient "web" (taskWorld .running) record v ∧
        Alive (v.advance blindClient).tasks "web" := by
  have hlookup (status : Status) : (taskWorld status).tasks.lookup "web" =
      some { pid := 7, status := status, exitStatus := 0 } := AList.lookup_insert _
  have halive {status : Status} (h : aliveStatus status = true) :
      Alive (taskWorld status).tasks "web" :=
    ⟨_, hlookup status, h⟩
  have hpaused : ¬ SeenRunning {} "web" (taskWorld .paused) := by
    rintro ⟨-, process, hl, hrunning⟩
    rw [tasksAt_still rfl] at hl
    cases (hlookup .paused).symm.trans hl
    cases hrunning
  have hblind : ¬ SeenRunning blindClient "web" (taskWorld .running) := fun h => by cases h.1
  have hrecord (status : Status) : (taskWorld status).containers.lookup "web" = some sourceRecord :=
    AList.lookup_insert _
  obtain ⟨hsnapshot, hclone⟩ := unseen_commits "v1" hpaused rfl rfl (hrecord _)
  obtain ⟨hsnapshot', hclone'⟩ := unseen_commits "v1" hblind rfl rfl (hrecord _)
  obtain ⟨v, hc, ht⟩ := hsnapshot (by decide)
  obtain ⟨v₂, hc₂, ht₂⟩ := hclone rfl rfl
  obtain ⟨v₃, hc₃, ht₃⟩ := hsnapshot' (by decide)
  obtain ⟨v₄, hc₄, ht₄⟩ := hclone' rfl rfl
  rw [tasksAt_still rfl] at ht ht₂ ht₃ ht₄
  exact ⟨⟨⟨_, v, hc, ht ▸ halive rfl⟩, _, v₂, hc₂, ht₂ ▸ halive rfl⟩,
    ⟨_, v₃, hc₃, ht₃ ▸ halive rfl⟩,
    _, v₄, hc₄, ht₄ ▸ halive rfl⟩

end ContainerdManager.Clone
