import ContainerdManager.System.Isolation

/-!
# What a delete asks for, and whom it touches

The requests of one `delete_container`, read off the trace: nothing is
removed before the task is gone, and a call that returns has seen the record
gone and has asked for its root snapshot to be removed. The key it asks for
is computed from the id; `run_keys` says which records name it.
-/

namespace ContainerdManager.System

open Lib Containerd Container Snapshot Clone ContainerdManager.Task

variable {κ : Type}

/-! ## The requests of a delete -/

/-- `containers.Delete` or the `Remove` of a snapshot. -/
def removes : Call → Bool
  | .deleteContainer .. | .remove .. => true
  | _ => false

/-- A `DeleteTask` that succeeded or was answered `NotFound`. -/
def TaskGone (id : String) (e : Call × Option Code) : Prop :=
  e.1 = .deleteTask id ∧ (e.2 = none ∨ e.2 = some .notFound)

/-- Nothing is removed before the task is gone. -/
def TaskFirst (id : String) (requests : List (Call × Option Code)) : Prop :=
  ∀ pre e post, requests = pre ++ e :: post → removes e.1 = true → ∃ gone ∈ pre, TaskGone id gone

theorem not_calm_of_removes {call : Call} (h : removes call = true) : call.calm = false := by
  cases call <;> first | rfl | cases h

theorem taskFirst_of_calm {id : String} {requests : List (Call × Option Code)}
    (h : ∀ e ∈ requests, e.1.calm = true) : TaskFirst id requests := by
  rintro pre e post rfl he
  have := h e (by simp)
  rw [not_calm_of_removes he] at this
  cases this

/-- What follows calm requests among which the task is gone may remove. -/
theorem taskFirst_append {id : String} {first rest : List (Call × Option Code)}
    {gone : Call × Option Code} (h : ∀ e ∈ first, e.1.calm = true) (hmem : gone ∈ first)
    (hgone : TaskGone id gone) : TaskFirst id (first ++ rest) := by
  intro pre e post hsplit he
  refine ⟨gone, ?_, hgone⟩
  rcases List.append_eq_append_iff.mp hsplit with ⟨c, rfl, -⟩ | ⟨c, rfl, hc⟩
  · exact List.mem_append_left c hmem
  · cases c with
    | nil => simpa using hmem
    | cons d c =>
      rw [List.cons_append, List.cons.injEq] at hc
      have := h e (by simp [hc.1])
      rw [not_calm_of_removes he] at this
      cases this

section Requests

variable {client : Client} {id : String}

theorem deleteTask_requests {w w' : World κ} (h : deleteTask client id w = .ok () w') :
    ∃ r, w'.trace = w.trace ++ [(.deleteTask id, r)] ∧ TaskGone id (.deleteTask id, r) := by
  unfold deleteTask at h
  rcases taskRequest_cases client (.deleteTask id) (deleteAnswer id) w with
    ⟨tasks, -, -, hr⟩ | ⟨code, -, hr⟩
  · rw [bind_ok hr] at h
    cases h
    exact ⟨none, rfl, rfl, .inl rfl⟩
  · rw [bind_ok hr] at h
    cases code <;> cases h
    exact ⟨some .notFound, rfl, rfl, .inr rfl⟩

theorem taskDeleted_requests {w w' : World κ} (h : taskDeleted client id w = .ok true w') :
    ∃ r, w'.trace = w.trace ++ [(.deleteTask id, r)] ∧ TaskGone id (.deleteTask id, r) := by
  unfold taskDeleted at h
  cases hd : deleteTask client id w with
  | ok _ w₁ =>
    rw [bind_ok (attempt_ok hd)] at h
    cases h
    exact deleteTask_requests hd
  | error e w₁ =>
    rw [bind_ok (attempt_error hd)] at h
    cases h

theorem deleteRecord_grows : Keeps Grows (deleteRecord (κ := κ) client id) := by
  intro w
  rcases deleteRecord_cases client id w with ⟨record, -, hr⟩ | ⟨code, -, hr⟩
  · rw [after_ok hr]
    exact List.prefix_append _ _
  · rw [after_ok hr]
    exact .noted client w _ _

/-- The `Remove` is on record whatever it came to. -/
theorem removeSnapshot_requests (client : Client) (snapshotter key : String) (w : World κ) :
    ∃ answer r w', removeSnapshot client snapshotter key w = .ok answer w' ∧
      w'.trace = w.trace ++ [(.remove snapshotter key, r)] := by
  rcases removeSnapshot_cases client w snapshotter key with ⟨-, -, -, hr⟩ | ⟨code, -, hr⟩
  · exact ⟨_, _, _, hr, rfl⟩
  · exact ⟨_, _, _, hr, rfl⟩

theorem removeSnapshot_grows {snapshotter key : String} :
    Keeps Grows (removeSnapshot (κ := κ) client snapshotter key) := by
  intro w
  obtain ⟨answer, r, w', hr, ht⟩ := removeSnapshot_requests client snapshotter key w
  rw [after_ok hr]
  exact ⟨_, ht.symm⟩

theorem removeContainer_grows : Keeps Grows (removeContainer (κ := κ) client id).run :=
  (removeContainer_steps (fun _ _ => Calm.grows) deleteRecord_grows
    fun _ => removeSnapshot_grows).keeps

/-- From the `Delete` of the record on. -/
theorem deleteRecord_requests (snapshotter : String) {f : Except Code Unit → Op κ Unit}
    (hf : ∀ deleted, Keeps Grows (f deleted)) (w : World κ) :
    ∃ new, (after (deleteRecord client id >>= fun deleted =>
        removeSnapshot client snapshotter (snapshotKeyFor id) >>= fun _ => f deleted) w).trace =
      w.trace ++ new ∧ ∃ r, (Call.remove snapshotter (snapshotKeyFor id), r) ∈ new := by
  obtain ⟨deleted, w₁, hdelete⟩ : ∃ deleted w₁, deleteRecord client id w = .ok deleted w₁ := by
    rcases deleteRecord_cases client id w with ⟨record, -, hr⟩ | ⟨code, -, hr⟩
    · exact ⟨_, _, hr⟩
    · exact ⟨_, _, hr⟩
  obtain ⟨answer, r, w₂, hremove, ht⟩ :=
    removeSnapshot_requests client snapshotter (snapshotKeyFor id) w₁
  rw [after_bind_ok hdelete, after_bind_ok hremove]
  obtain ⟨first, hfirst⟩ := deleteRecord_grows.ok hdelete
  obtain ⟨last, hlast⟩ := hf deleted w₂
  refine ⟨first ++ [(.remove snapshotter (snapshotKeyFor id), r)] ++ last, ?_, r, by simp⟩
  rw [← hlast, ht, ← hfirst]
  simp only [List.append_assoc]

/-- **Every removal asks for the root snapshot to be removed.** -/
theorem removeContainer_requests (client : Client) (id : String) (w : World κ) :
    ∃ new, (after (removeContainer client id).run w).trace = w.trace ++ new ∧
      ∃ snapshotter r, (Call.remove snapshotter (snapshotKeyFor id), r) ∈ new := by
  simp only [removeContainer, call, Prog.run_bind, Prog.run_atomic]
  have hlast (deleted : Except Code Unit) := fun w : World κ =>
    (cleanupAndReport_keeps client id deleted w).grows
  have hget (r : Option Code) (snapshotter : String) {w' : World κ}
      (hnew : ∃ new, w'.trace = (w.noted client (.getContainer id) r).trace ++ new ∧
        ∃ r, (Call.remove snapshotter (snapshotKeyFor id), r) ∈ new) :
      ∃ new, w'.trace = w.trace ++ new ∧
        ∃ snapshotter r, (Call.remove snapshotter (snapshotKeyFor id), r) ∈ new := by
    obtain ⟨new, ht, r', hmem⟩ := hnew
    refine ⟨(.getContainer id, r) :: new, ?_, snapshotter, r', List.mem_cons_of_mem _ hmem⟩
    rw [ht, noted_trace, List.append_assoc]
    rfl
  rcases getContainer_cases client id w with ⟨record, -, -, hr⟩ | ⟨code, -, hr⟩
  · rw [after_bind_ok hr]
    exact hget none record.snapshotter (deleteRecord_requests record.snapshotter hlast _)
  · rw [after_bind_ok hr]
    exact hget (some code) defaultSnapshotter (deleteRecord_requests defaultSnapshotter hlast _)

theorem recordGone_requests {timeoutMsg : String} {rounds : Nat} {w w' : World κ}
    (hr : (recordGone client id timeoutMsg rounds).run w = .ok () w') :
    ∃ w₁, Grows w w₁ ∧ w'.trace = w₁.trace ++ [(.getContainer id, some .notFound)] := by
  induction rounds generalizing w with
  | zero => cases hr
  | succ rounds ih =>
    simp only [recordGone, call, Prog.run_bind, Prog.run_atomic] at hr
    obtain ⟨late, w₁, hl, hr⟩ := bind_eq_ok hr
    have hw₁ := (isLate_keeps.ok hl).grows
    cases late with
    | true => cases hr
    | false =>
      simp only [Bool.false_eq_true, if_false, Prog.run_bind, Prog.run_atomic] at hr
      obtain ⟨answer, w₂, hinspect, hr⟩ := bind_eq_ok hr
      have hw₂ : Grows w w₂ :=
        IsTrans.trans _ _ _ hw₁ (inspectContainer_keeps.attempt.ok hinspect).grows
      cases answer with
      | ok info =>
        simp only [Prog.run_bind, Prog.run_attempt] at hr
        obtain ⟨_, w₃, hremove, hr⟩ := bind_eq_ok hr
        have hw₃ := IsTrans.trans _ _ _ hw₂ (removeContainer_grows.attempt.ok hremove)
        obtain ⟨w₄, hw₄, ht⟩ := ih hr
        exact ⟨w₄, IsTrans.trans _ _ _ hw₃ hw₄, ht⟩
      | error e =>
        have hother : (recordGone client id timeoutMsg rounds).run w₂ = .ok () w' →
            ∃ w₁, Grows w w₁ ∧ w'.trace = w₁.trace ++ [(.getContainer id, some .notFound)] := by
          intro hr
          obtain ⟨w₄, hw₄, ht⟩ := ih hr
          exact ⟨w₄, IsTrans.trans _ _ _ hw₂ hw₄, ht⟩
        cases e with
        | containerNotFound id' =>
          cases hr
          rw [inspectContainer_notFound (attempt_eq_error hinspect)]
          exact ⟨w₁, hw₁, rfl⟩
        | _ => exact hother hr

/-- The phases up to the first removal: they fail, or the task is gone. -/
theorem deleteContainerTask_phases (timeout : Nat) (w : World κ) :
    (∃ e w', (deleteContainerTask client id timeout).run w = .error e w' ∧ Calm w w') ∨
    ∃ w₁ first, (Calm w w₁ ∧ w₁.trace = w.trace ++ first ∧ ∃ gone ∈ first, TaskGone id gone) ∧
      ∃ msg rounds, (deleteContainerTask client id timeout).run w =
        (attempt (removeContainer client id).run >>= fun _ =>
          (recordGone client id msg rounds).run) w₁ := by
  simp only [deleteContainerTask, call, Prog.run_bind, Prog.run_atomic, Prog.run_attempt]
  obtain ⟨_, hstop⟩ := attempt_eq (stopContainer client id timeout) w
  have hcalm₁ := stopContainer_keeps.attempt.ok hstop
  rw [bind_ok hstop]
  cases hpoll : pollUntil client timeout (100 * ms)
    ("delete_container[phase=delete_task] timed out for " ++ id)
      (taskDeleted client id) (after (stopContainer client id timeout) w) with
  | error e w₂ =>
    rw [bind_error hpoll]
    exact .inl ⟨e, w₂, rfl, IsTrans.trans _ _ _ hcalm₁
      ((pollRounds_keeps taskDeleted_keeps _).error hpoll)⟩
  | ok _ w₂ =>
    rw [bind_ok hpoll]
    obtain ⟨w₃, hcalm₃, hlast⟩ := pollRounds_ok isLate_keeps taskDeleted_keeps hpoll
    obtain ⟨r, ht, hgone⟩ := taskDeleted_requests hlast
    obtain ⟨new₃, hnew₃⟩ := (IsTrans.trans _ _ _ hcalm₁ hcalm₃).grows
    have hcalm₂ := IsTrans.trans _ _ _ hcalm₁ ((pollRounds_keeps taskDeleted_keeps _).ok hpoll)
    cases hgonePoll : pollUntil client timeout (100 * ms)
        ("delete_container[phase=task_record_gone] timed out for " ++ id ++ " within " ++
          debugDuration timeout) (taskRecordGone client id) w₂ with
    | error e w₄ =>
      rw [bind_error hgonePoll]
      exact .inl ⟨e, w₄, rfl, IsTrans.trans _ _ _ hcalm₂
        ((pollRounds_keeps taskRecordGone_keeps _).error hgonePoll)⟩
    | ok _ w₄ =>
      have hcalm₄ := (pollRounds_keeps taskRecordGone_keeps _).ok hgonePoll
      obtain ⟨new₄, hnew₄⟩ := hcalm₄.grows
      rw [bind_ok hgonePoll]
      refine .inr ⟨w₄, new₃ ++ [(.deleteTask id, r)] ++ new₄,
        ⟨IsTrans.trans _ _ _ hcalm₂ hcalm₄, ?_,
        (.deleteTask id, r), by simp, hgone⟩, _, _, rfl⟩
      rw [← hnew₄, ht, ← hnew₃]
      simp only [List.append_assoc]

theorem recordGone_grows (msg : String) (rounds : Nat) :
    Keeps Grows (recordGone (κ := κ) client id msg rounds).run :=
  (recordGone_steps (fun _ _ => Calm.grows) deleteRecord_grows
    (fun _ => removeSnapshot_grows) msg rounds).keeps

/-- **The requests of a delete.** -/
theorem deleteContainerTask_requests (timeout : Nat) (w : World κ) :
    ∃ new, (after (deleteContainerTask client id timeout).run w).trace = w.trace ++ new ∧
      TaskFirst id new ∧
      (result (deleteContainerTask client id timeout).run w = .ok () →
        new.getLast? = some (.getContainer id, some .notFound) ∧
        ∃ snapshotter r, (Call.remove snapshotter (snapshotKeyFor id), r) ∈ new) := by
  rcases deleteContainerTask_phases timeout w with
    ⟨e, w', hr, hcalm⟩ | ⟨w₁, first, ⟨hcalm, ht, gone, hmem, hgone⟩, msg, rounds, hr⟩
  · obtain ⟨new, ht, hnew⟩ := hcalm.trace
    rw [after_error hr, result_error hr]
    exact ⟨new, ht, taskFirst_of_calm hnew, nofun⟩
  · have hfirst : ∀ e ∈ first, e.1.calm = true := by
      obtain ⟨new, ht', hnew⟩ := hcalm.trace
      rwa [List.append_cancel_left (ht.symm.trans ht')]
    obtain ⟨removed, hremoved, hkey⟩ := removeContainer_requests client id w₁
    obtain ⟨answer, hattempt⟩ := attempt_eq (removeContainer client id).run w₁
    rw [bind_ok hattempt] at hr
    obtain ⟨rest, hrest⟩ := recordGone_grows msg rounds (after (removeContainer client id).run w₁)
    have hafter : (after (deleteContainerTask client id timeout).run w).trace =
        w.trace ++ (first ++ (removed ++ rest)) := by
      rw [after, hr, ← after, ← hrest, hremoved, ht]
      simp only [List.append_assoc]
    refine ⟨_, hafter, taskFirst_append hfirst hmem hgone, fun hok => ?_⟩
    obtain ⟨w', hr'⟩ := ok_of_result (a := ()) (by rw [hok]; rfl)
    rw [hr] at hr'
    obtain ⟨w₂, ⟨new, hnew⟩, hlast⟩ := recordGone_requests hr'
    constructor
    · rw [after_ok hr', hlast, ← hnew, List.append_assoc, List.append_cancel_left_eq] at hrest
      rw [hrest]
      simp
    · obtain ⟨snapshotter, r, hmem⟩ := hkey
      exact ⟨snapshotter, r, by simp [hmem]⟩

end Requests

/-! ## The keys records name -/

/-- Every record written meets `P`, which relates an id to a snapshot key. -/
def WritesKeys (P : String → String → Prop) (w w' : World κ) : Prop :=
  ∀ id record, w'.containers.lookup id = some record →
    w.containers.lookup id = some record ∨ P id record.snapshotKey

/-- Every record meets `P`. -/
def KeysMeet (P : String → String → Prop) (w : World κ) : Prop :=
  ∀ id record, w.containers.lookup id = some record → P id record.snapshotKey

/-- A `create_container` of `id` on the snapshot `key`. -/
def Act.Adopts (id key : String) : Act κ → Prop
  | .create _ id' _ _ opts => id' = id ∧ opts.fromExistingSnapshot = some key
  | _ => False

variable {P : String → String → Prop}

instance : Std.Refl (WritesKeys (κ := κ) P) := ⟨fun _ _ _ h => .inl h⟩

instance : IsTrans (World κ) (WritesKeys P) where
  trans w₁ w₂ w₃ h h' id record hl := by
    rcases h' id record hl with hl | hp
    · exact h id record hl
    · exact .inr hp

theorem WritesKeys.of_containers {w w' : World κ} (h : w'.containers = w.containers) :
    WritesKeys P w w' := fun id record hl => .inl (by rwa [h] at hl)

theorem WritesKeys.of_within {ids : String → Prop} {locs : SnapshotKey → Prop} {w w' : World κ}
    (hP : ∀ id, P id (snapshotKeyFor id)) (h : Within ids locs w w') : WritesKeys P w w' := by
  intro id record hl
  rcases h.own id record hl with hl | hkey
  · exact .inl hl
  · exact .inr (hkey ▸ hP id)

theorem snapshotRequest_keys {client : Client} {call : Call}
    {answer : Snapshots κ → Except Code (Snapshots κ)} :
    Keeps (WritesKeys P) (snapshotRequest client call answer) := by
  intro w
  rcases snapshotRequest_cases client call answer w with ⟨snaps, -, -, hr⟩ | ⟨code, -, hr⟩
  · rw [after_ok hr]
    exact .of_containers rfl
  · rw [after_ok hr]
    exact .of_containers rfl

theorem createRecord_keys {client : Client} {id : String} {record : ContainerRecord}
    (h : P id record.snapshotKey) :
    Keeps (WritesKeys (κ := κ) P) (createRecord client id record) := by
  intro w
  rcases createRecord_cases client w id record with ⟨-, -, hr⟩ | ⟨code, hr⟩
  · rw [after_ok hr]
    intro id' record' hl
    by_cases he : id' = id
    · subst he
      cases (AList.lookup_insert _).symm.trans hl
      exact .inr h
    · exact .inl ((AList.lookup_insert_ne he).symm.trans hl)
  · rw [after_ok hr]
    exact .of_containers rfl

/-- **A create writes the key it adopts, or its own.** -/
theorem createContainer_keys (client : Client) (id name image : String) (opts : CreateContainerOpts)
    (h : P id (opts.fromExistingSnapshot.getD (snapshotKeyFor id))) :
    Keeps (WritesKeys (κ := κ) P) (createContainer client id name image opts).run := by
  have hsteps : (createContainerWithId client id name image opts).Steps
      (WritesKeys (κ := κ) P) :=
    createContainerWithId_steps (fun _ _ hcalm => .of_containers hcalm.containers)
      (checkName_keeps fun w r => .of_containers rfl) (fun _ _ => snapshotRequest_keys)
      (allocBridgeIp_keeps fun _ _ _ => .of_containers rfl) (fun _ _ => .of_containers rfl)
      (fun record _ hrecord => createRecord_keys (hrecord ▸ h)) fun _ => snapshotRequest_keys
  exact (createContainer_steps hsteps).keeps

/-- **The keys an act writes**: own keys, unless a create adopts another. -/
theorem apply_keys (hP : ∀ id, P id (snapshotKeyFor id)) {w : World κ} {a : Act κ}
    (ha : ∀ id key, a.Adopts id key → P id key) : WritesKeys P w (a.apply w) := by
  have hall : ∀ {w w' : World κ}, Within (fun _ => True) (fun _ => True) w w' → WritesKeys P w w' :=
    fun h => .of_within hP h
  cases a with
  | create client id name image opts =>
    refine createContainer_keys client id name image opts ?_ w
    cases hfrom : opts.fromExistingSnapshot with
    | none => exact hP id
    | some key => exact ha id key ⟨rfl, hfrom⟩
  | clone client src dst dstName opts =>
    exact hall (cloneContainer_locs client dstName opts trivial (fun _ _ => trivial)
      (fun _ => trivial) fun _ => trivial)
  | snapshot client src name opts =>
    have hkeeps : Keeps (Within (κ := κ) (fun _ => True) (fun _ => True))
        (snapshotContainer client src name opts) :=
      .bind (fun w => .of_calm (stopForSnapshot_keeps w)) fun _ =>
        commitSnapshot_keeps trivial trivial
    exact hall (hkeeps w)
  | restore client name dst dstName opts =>
    exact .of_within hP (restoreContainer_within client name dst dstName opts w)
  | reset client id name opts =>
      exact hall (resetToSnapshot_locs client name opts fun _ _ => trivial)
  | start client id => exact .of_containers (startContainer_keeps w).containers
  | stop client id timeout => exact .of_containers (stopContainer_keeps w).containers
  | delete client id timeout => exact .of_within hP (deleteContainer_within client id timeout w)
  | deleteSnapshot client name => exact .of_within hP (deleteSnapshot_within client name w)
  | write id f =>
    refine .of_containers ?_
    unfold Act.apply writeLayer
    dsimp only
    split
    · rfl
    · split
      · rfl
      · split <;> rfl

/-- **The keys of a run**, whatever fails in it. -/
theorem run_keys (hP : ∀ id, P id (snapshotKeyFor id)) {w w' : World κ} {acts : List (Act κ)}
    (h : KeysMeet P w) (ha : ∀ a ∈ acts, ∀ id key, a.Adopts id key → P id key)
    (hr : run Act.step w acts = some w') : KeysMeet P w' := by
  refine run_inv (fun w a w' h ha hs => ?_) h (along_of_forall ha) hr
  cases hs
  intro id record hl
  rcases apply_keys hP ha id record hl with hl | hp
  · exact h id record hl
  · exact hp

/-! ## How a delete ends -/

section Ends

variable {client : Client} {id : String}

theorem taskDeleted_total (w : World κ) : ∃ done w', taskDeleted client id w = .ok done w' := by
  unfold taskDeleted
  obtain ⟨answer, hr⟩ := attempt_eq (deleteTask client id) w
  rw [bind_ok hr]
  cases answer <;> exact ⟨_, _, rfl⟩

theorem taskRecordGone_total (w : World κ) :
    ∃ done w', taskRecordGone client id w = .ok done w' := by
  unfold taskRecordGone
  obtain ⟨answer, hr⟩ := attempt_eq (inspectContainer client id) w
  rw [bind_ok hr]
  cases answer with
  | error e => exact ⟨_, _, rfl⟩
  | ok info =>
    dsimp only
    split
    · obtain ⟨_, hd⟩ := attempt_eq (deleteTask client id) (after (inspectContainer client id) w)
      exact ⟨_, _, bind_ok hd⟩
    · exact ⟨_, _, rfl⟩

theorem recordGone_error {timeoutMsg : String} {rounds : Nat} {w w' : World κ} {e : Error}
    (hr : (recordGone client id timeoutMsg rounds).run w = .error e w') :
    e = .timeout timeoutMsg := by
  induction rounds generalizing w with
  | zero =>
    cases hr
    rfl
  | succ rounds ih =>
    simp only [recordGone, call, Prog.run_bind, Prog.run_atomic] at hr
    have hl : isLate client w = .ok (client.late w.steps) (w.advance client) := rfl
    rw [bind_ok hl] at hr
    cases hlate : client.late w.steps with
    | true =>
      rw [hlate] at hr
      cases hr
      rfl
    | false =>
      simp only [hlate, Bool.false_eq_true, if_false, Prog.run_bind, Prog.run_atomic] at hr
      obtain ⟨answer, hinspect⟩ := attempt_eq (inspectContainer client id) (w.advance client)
      rw [bind_ok hinspect] at hr
      cases answer with
      | ok info =>
        simp only [Prog.run_bind, Prog.run_attempt] at hr
        obtain ⟨_, hremove⟩ := attempt_eq (removeContainer client id).run
          (after (inspectContainer client id) (w.advance client))
        rw [bind_ok hremove] at hr
        exact ih hr
      | error e => cases e <;> first | exact ih hr | cases hr

/-- **Only a deadline makes a delete fail.** -/
theorem deleteContainerTask_error {timeout : Nat} {w w' : World κ} {e : Error}
    (hr : (deleteContainerTask client id timeout).run w = .error e w') :
    ∃ msg, e = .timeout msg := by
  simp only [deleteContainerTask, call, Prog.run_bind, Prog.run_atomic, Prog.run_attempt] at hr
  obtain ⟨_, hstop⟩ := attempt_eq (stopContainer client id timeout) w
  rw [bind_ok hstop] at hr
  cases hpoll : pollUntil client timeout (100 * ms)
      ("delete_container[phase=delete_task] timed out for " ++ id) (taskDeleted client id)
      (after (stopContainer client id timeout) w) with
  | error e' w₁ =>
    rw [bind_error hpoll] at hr
    cases hr
    exact ⟨_, pollRounds_error taskDeleted_total hpoll⟩
  | ok _ w₁ =>
    rw [bind_ok hpoll] at hr
    cases hgone : pollUntil client timeout (100 * ms)
        ("delete_container[phase=task_record_gone] timed out for " ++ id ++ " within " ++
          debugDuration timeout) (taskRecordGone client id) w₁ with
    | error e' w₂ =>
      rw [bind_error hgone] at hr
      cases hr
      exact ⟨_, pollRounds_error taskRecordGone_total hgone⟩
    | ok _ w₂ =>
      rw [bind_ok hgone] at hr
      obtain ⟨_, hremove⟩ := attempt_eq (removeContainer client id).run w₂
      rw [bind_ok hremove] at hr
      exact ⟨_, recordGone_error hr⟩

theorem deleteRecord_keys {P : String → String → Prop} :
    Keeps (WritesKeys (κ := κ) P) (deleteRecord client id) := by
  intro w
  rcases deleteRecord_cases client id w with ⟨record, -, hr⟩ | ⟨code, -, hr⟩
  · rw [after_ok hr]
    intro id' record' hl
    by_cases he : id' = id
    · subst he
      exact absurd hl (by simp)
    · exact .inl ((AList.lookup_erase_ne he).symm.trans hl)
  · rw [after_ok hr]
    exact .of_containers rfl

/-- A removal makes no record. -/
theorem removeContainer_absent {w : World κ} (hc : w.containers.lookup id = none) :
    (after (removeContainer client id).run w).containers.lookup id = none := by
  have hsteps : (removeContainer (κ := κ) client id).Steps (WritesKeys fun _ _ => False) :=
    removeContainer_steps (fun _ _ hcalm => .of_containers hcalm.containers) deleteRecord_keys
      fun _ => snapshotRequest_keys
  cases hl : (after (removeContainer client id).run w).containers.lookup id with
  | none => rfl
  | some record =>
    rcases hsteps.keeps w id record hl with hl | hfalse
    · rw [hc] at hl
      cases hl
    · exact hfalse.elim

/-- The client meets no fault, is never late, and tasks come to be only by its own requests. -/
structure Unhindered (client : Client) (id : String) : Prop where
  requests : ∀ n, client.fault n = none
  clock : ∀ n, client.late n = false
  tasks : ∀ n tasks, tasks.lookup id = none → (client.drift n tasks).lookup id = none

variable (h : Unhindered client id) {w : World κ}

include h

theorem Unhindered.stop (timeout : Nat) (ht : w.tasks.lookup id = none) :
    (after (stopContainer client id timeout) w).tasks.lookup id = none := by
  have hquery : ∀ {α : Type} (call : Call) (answer : World κ → Except Code α), call.calm = true →
      Keeps (Untasked id) (query client call answer) := by
    intro α call answer _ w hn
    rw [after_ok (query_eq client call answer w)]
    exact h.tasks _ _ hn
  exact stopContainer_frame hquery (fun w hn => h.tasks _ _ hn) w ht

theorem Unhindered.taskDeleted (ht : w.tasks.lookup id = none) :
    ∃ w', taskDeleted client id w = .ok true w' := by
  have hnone := h.tasks w.steps w.tasks ht
  have hans : deleteAnswer id (client.drift w.steps w.tasks) = .error .notFound := by
    rw [deleteAnswer, hnone]
  have hdelete : ∃ w', deleteTask client id w = .ok () w' := by
    unfold deleteTask
    rcases taskRequest_cases client (.deleteTask id) (deleteAnswer id) w with
      ⟨tasks, -, ha, hr⟩ | ⟨code, hf | ⟨-, ha⟩, hr⟩
    · exact ⟨_, bind_ok hr⟩
    · rw [h.requests] at hf
      cases hf
    · rw [hans] at ha
      cases ha
      exact ⟨_, bind_ok hr⟩
  obtain ⟨w', hd⟩ := hdelete
  exact ⟨w', bind_ok (attempt_ok hd)⟩

theorem Unhindered.inspect (hc : w.containers.lookup id = none) :
    inspectContainer client id w =
      .error (.containerNotFound id) (w.noted client (.getContainer id) (some .notFound)) := by
  rcases getContainer_cases client id w with ⟨record, -, hl, -⟩ | ⟨code, hf | ⟨-, -, rfl⟩, hr⟩
  · rw [hc] at hl
    cases hl
  · rw [h.requests] at hf
    cases hf
  · exact bind_error (bind_ok hr)

theorem Unhindered.recordGone (timeoutMsg : String) (rounds : Nat)
    (hc : w.containers.lookup id = none) :
    ∃ w', (recordGone client id timeoutMsg (rounds + 1)).run w = .ok () w' := by
  have hl : isLate client w = .ok false (w.advance client) := by
    rw [isLate, h.clock]
  have hinspect := attempt_error (h.inspect (w := w.advance client) hc)
  simp only [Task.recordGone, call, Prog.run_bind, Prog.run_atomic]
  rw [bind_ok hl]
  simp only [Bool.false_eq_true, if_false, Prog.run_bind, Prog.run_atomic]
  rw [bind_ok hinspect]
  exact ⟨_, rfl⟩

/-- **Deleting an absent container succeeds.** -/
theorem Unhindered.delete (timeout : Nat) (hc : w.containers.lookup id = none)
    (ht : w.tasks.lookup id = none) :
    ∃ w', (deleteContainerTask client id timeout).run w = .ok () w' := by
  simp only [deleteContainerTask, call, Prog.run_bind, Prog.run_atomic, Prog.run_attempt]
  obtain ⟨_, hstop⟩ := attempt_eq (stopContainer client id timeout) w
  have hc₁ : (after (stopContainer client id timeout) w).containers.lookup id = none := by
    rw [(stopContainer_keeps w).containers]
    exact hc
  obtain ⟨w₁, hdeleted⟩ :=
    h.taskDeleted (w := (after (stopContainer client id timeout) w).advance client)
    (h.tasks _ _ (h.stop timeout ht))
  have hc₂ : w₁.containers.lookup id = none := by
    rw [(taskDeleted_keeps.ok hdeleted).containers]
    exact hc₁
  have hgone : taskRecordGone client id (w₁.advance client) =
      .ok true ((w₁.advance client).noted client (.getContainer id) (some .notFound)) :=
    bind_ok (attempt_error (h.inspect (w := w₁.advance client) hc₂))
  rw [bind_ok hstop, bind_ok (pollUntil_first (h.clock _) hdeleted),
    bind_ok (pollUntil_first (h.clock _) hgone)]
  obtain ⟨_, hremove⟩ := attempt_eq (removeContainer client id).run
    ((w₁.advance client).noted client (.getContainer id) (some .notFound))
  have hc₃ : (after (removeContainer client id).run
      ((w₁.advance client).noted client (.getContainer id) (some .notFound))).containers.lookup id =
      none := removeContainer_absent hc₂
  rw [bind_ok hremove]
  exact h.recordGone _ _ hc₃

end Ends

/-! ## All together -/

/-- **What a delete does.** Whatever fails, it removes nothing before the task is gone, and
it returns only after a `Get` that found the record gone and a `Remove` of the container's
own key, which every record of the container names that was not created on another
snapshot. Deleting an absent container succeeds, and keeps every container that was not
created on that container's snapshot. -/
theorem deleteContainerTask_spec (client : Client) (id : String) (timeout : Nat) (w : World κ) :
    (∃ new, (after (deleteContainerTask client id timeout).run w).trace = w.trace ++ new ∧
      TaskFirst id new ∧
      (result (deleteContainerTask client id timeout).run w = .ok () →
        new.getLast? = some (.getContainer id, some .notFound) ∧
        ∃ snapshotter r, (Call.remove snapshotter (snapshotKeyFor id), r) ∈ new)) ∧
    (∀ (w₀ : World κ) (acts : List (Act κ)), w₀.containers.lookup id = none →
      (∀ a ∈ acts, ∀ key, ¬ a.Adopts id key) → run Act.step w₀ acts = some w →
      ∀ record, w.containers.lookup id = some record → record.snapshotKey = snapshotKeyFor id) ∧
    ((∀ n, client.fault n = none) → w.containers.lookup id = none →
      (result (deleteContainerTask client id timeout).run w = .ok () ∨
        ∃ msg, result (deleteContainerTask client id timeout).run w = .error (.timeout msg)) ∧
      (Unhindered client id → w.tasks.lookup id = none →
        result (deleteContainerTask client id timeout).run w = .ok ()) ∧
      ∀ (w₀ : World κ) (acts : List (Act κ)), w₀.containers = ∅ →
        (∀ a ∈ acts, ∀ id', id' ≠ id → ¬ a.Adopts id' (snapshotKeyFor id)) →
        run Act.step w₀ acts = some w →
        ∀ id' record, id' ≠ id → w.containers.lookup id' = some record →
          (after (deleteContainerTask client id timeout).run w).containers.lookup id' =
            some record ∧
          (after (deleteContainerTask client id timeout).run w).snapshots.lookup
              (record.snapshotter, record.snapshotKey) =
            w.snapshots.lookup (record.snapshotter, record.snapshotKey)) := by
  refine ⟨deleteContainerTask_requests timeout w, fun w₀ acts hnone hadopts hrun record hl => ?_,
    fun _ habsent => ⟨?_, fun h htask => ?_,
      fun w₀ acts hempty hadopts hrun id' record hne hl => ?_⟩⟩
  · refine run_keys (P := fun id' key => id' = id → key = snapshotKeyFor id)
      (fun id' he => by rw [he]) ?_ ?_ hrun id record hl rfl
    · rintro id' record' hl' rfl
      rw [hnone] at hl'
      cases hl'
    · rintro a ha id' key hadopt rfl
      exact absurd hadopt (hadopts a ha key)
  · cases hr : (deleteContainerTask client id timeout).run w with
    | ok _ w' => exact .inl (result_ok hr)
    | error e w' =>
      obtain ⟨msg, rfl⟩ := deleteContainerTask_error hr
      exact .inr ⟨msg, result_error hr⟩
  · obtain ⟨w', hr⟩ := h.delete timeout habsent htask
    exact result_ok hr
  · have hkey : record.snapshotKey ≠ snapshotKeyFor id := by
      refine run_keys (P := fun id' key => id' ≠ id → key ≠ snapshotKeyFor id)
        (fun id' hne he => hne (snapshotKeyFor_injective he)) ?_ ?_ hrun id' record hl hne
      · intro id' record' hl'
        rw [hempty] at hl'
        cases hl'
      · rintro a ha id' key hadopt hne rfl
        exact hadopts a ha id' hne hadopt
    have hwithin := deleteContainerTask_within client id timeout w
    rw [hwithin.records id' hne]
    exact ⟨hl, hwithin.snapshots _ hkey⟩

/-- The `Remove` of a delete fails, and a second container is created on the snapshot
that is left. -/
def adoptedLeftover : List (Act Nat) :=
  [.create {} "c1" "web" "mongo" { network := .host },
    .delete { fault := fun n => if n = 23 then some .unavailable else none } "c1" 0,
    .create {} "c2" "db" "mongo" { network := .host, fromExistingSnapshot := some "c1-snapshot" }]

/-- **A second delete of the first container takes the snapshot from the second.** -/
theorem delete_takes_adopted_snapshot :
    ¬ ∀ (w₀ : World Nat) (acts : List (Act Nat)) (w : World Nat), w₀.containers = ∅ →
      run Act.step w₀ acts = some w → ∀ id timeout, w.containers.lookup id = none →
      ∀ id' record, id' ≠ id → w.containers.lookup id' = some record →
        (after (deleteContainerTask {} id timeout).run w).snapshots.lookup
            (record.snapshotter, record.snapshotKey) =
          w.snapshots.lookup (record.snapshotter, record.snapshotKey) := by
  intro h
  obtain ⟨w, hr, habsent, hrecord, hsnap, hgone⟩ := run_eval Act.step zeroImage adoptedLeftover
    (fun w => w.containers.lookup "c1" = none ∧
      (w.containers.lookup "c2").map (fun r => (r.snapshotter, r.snapshotKey)) =
        some ("overlayfs", "c1-snapshot") ∧
      ((w.snapshots.lookup ("overlayfs", "c1-snapshot")).map Snapshot.kind = some .active) ∧
      (after (deleteContainerTask {} "c1" 0).run w).snapshots.lookup ("overlayfs", "c1-snapshot") =
        none) (by decide +kernel)
  obtain ⟨record, hl, hkey⟩ := Option.map_eq_some_iff.mp hrecord
  have hsame := h zeroImage adoptedLeftover w rfl hr "c1" 0 habsent "c2" record (by decide) hl
  have hloc : (record.snapshotter, record.snapshotKey) = ("overlayfs", "c1-snapshot") := hkey
  rw [hloc, hgone] at hsame
  rw [← hsame] at hsnap
  cases hsnap

end ContainerdManager.System
