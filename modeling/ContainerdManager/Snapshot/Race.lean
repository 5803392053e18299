import ContainerdManager.Snapshot.Container
import ContainerdManager.Lib.Pool
import ContainerdManager.Lib.Refine

/-!
# Snapshots of one source that race

`snapshotSteps` is `snapshot_container` with every request to the snapshot
service a step of its own. Any number of such calls on one source take
turns, whatever fails in them. Between a `Commit` and the `Prepare` or
`Remove` that ends its call the source's key is missing, so that no other
`Commit` goes through: the store always is what the calls that have come to
that end leave one after another, in the order of their commits, or one
`Commit` further.
-/

namespace ContainerdManager.Snapshot

open Lib Containerd ContainerdManager.Task

variable {ι κ : Type}

/-! ## Request by request -/

/-- From the `Commit` on. -/
def commitSteps (client : Client) (src name : String) (opts : SnapshotContainerOpts)
    (record : ContainerRecord) (wasRunning : Bool) : Proc κ Unit := do
  let restart := wasRunning && opts.restartSrc
  match ← call (snapshotRequest client
      (.commit record.snapshotter name record.snapshotKey) fun snaps =>
        snaps.commit record.snapshotter name record.snapshotKey
          (snapshotLabels record.image opts.description)) with
  | .error code => do
    call (restartSource client src restart)
    throw (if code = .alreadyExists then .snapshotAlreadyExists name
      else .containerd "snapshot_commit" code)
  | .ok () =>
    match ← call (snapshotRequest client
      (.prepare record.snapshotter record.snapshotKey name) fun snaps =>
        snaps.prepare record.snapshotter record.snapshotKey name ∅) with
    | .error code => do
      -- roll back the snapshot; the outcome is ignored
      let _ ← call (snapshotRequest client (.remove record.snapshotter name) fun snaps =>
        snaps.remove record.snapshotter name)
      throw (.containerd "snapshot_reprepare_src" code)
    | .ok () => call (restartSource client src restart)

/-- The part before the `Commit` changes no snapshot and no record; it is one step. -/
def snapshotSteps (client : Client) (src name : String) (opts : SnapshotContainerOpts) :
    Proc κ Unit := do
  let (record, wasRunning) ← call (stopForSnapshot client src name)
  commitSteps client src name opts record wasRunning

theorem commitSteps_run (client : Client) (src name : String) (opts : SnapshotContainerOpts)
    (record : ContainerRecord) (wasRunning : Bool) :
    (commitSteps (κ := κ) client src name opts record wasRunning).run =
      commitSnapshot client src name opts record wasRunning := by
  simp only [commitSteps, call, Prog.run_bind, Prog.run_atomic]
  unfold commitSnapshot
  congr 1
  funext committed
  cases committed with
  | error code => simp only [Prog.run_bind, Prog.run_atomic, Prog.run_throw]
  | ok _ =>
    simp only [Prog.run_bind, Prog.run_atomic]
    congr 1
    funext prepared
    cases prepared with
    | error code => simp only [Prog.run_bind, Prog.run_atomic, Prog.run_throw]
    | ok _ => simp only [Prog.run_atomic]

/-- Alone, the steps are the operation. -/
theorem snapshotSteps_run (client : Client) (src name : String) (opts : SnapshotContainerOpts) :
    (snapshotSteps (κ := κ) client src name opts).run = snapshotContainer client src name opts := by
  simp only [snapshotSteps, call, Prog.run_bind, Prog.run_atomic, commitSteps_run]
  rfl

/-! ## One call after another -/

/-- Calls on one source. -/
structure Savers (ι : Type) where
  src : String
  record : ContainerRecord
  client : ι → Client
  name : ι → String
  opts : ι → SnapshotContainerOpts

/-- How a call whose `Commit` went through has ended. -/
inductive Fate where
  | saved
  | rolledBack
  /-- The source's layer is left in the committed snapshot. -/
  | left
  deriving DecidableEq, Repr

namespace Savers

variable (S : Savers ι)

def key : SnapshotKey := (S.record.snapshotter, S.record.snapshotKey)

def loc (i : ι) : SnapshotKey := (S.record.snapshotter, S.name i)

def labels (i : ι) : Labels := snapshotLabels S.record.image (S.opts i).description

def commit (i : ι) (snaps : Snapshots κ) : Except Code (Snapshots κ) :=
  snaps.commit S.record.snapshotter (S.name i) S.record.snapshotKey (S.labels i)

def reprepare (i : ι) (snaps : Snapshots κ) : Except Code (Snapshots κ) :=
  snaps.prepare S.record.snapshotter S.record.snapshotKey (S.name i) ∅

def rollback (i : ι) (snaps : Snapshots κ) : Except Code (Snapshots κ) :=
  snaps.remove S.record.snapshotter (S.name i)

/-- What a call leaves that no other call comes between. -/
inductive Leaves : ι × Fate → Snapshots κ → Snapshots κ → Prop where
  | saved {i : ι} {s mid s' : Snapshots κ} : S.commit i s = .ok mid →
      S.reprepare i mid = .ok s' → Leaves (i, .saved) s s'
  | rolledBack {i : ι} {s mid s' : Snapshots κ} {n : Nat} {code : Code} :
      (S.client i).fault n = some code → S.commit i s = .ok mid →
      S.rollback i mid = .ok s' → Leaves (i, .rolledBack) s s'
  | left {i : ι} {s mid : Snapshots κ} {n : Nat} {code : Code} :
      (S.client i).fault n = some code → S.commit i s = .ok mid → Leaves (i, .left) s mid

def pool (w : World κ) : Pool ι (World κ) Error Unit where
  state := w
  progs i := snapshotSteps (S.client i) S.src (S.name i) (S.opts i)

/-- What the order of the ends says about a call that has returned. -/
def Accounts (order : List (ι × Fate)) (i : ι) : Except Error Unit → Prop
  | .ok _ => (i, .saved) ∈ order
  | .error e => (∀ fate, (i, fate) ∉ order) ∨
      (∃ code, e = .containerd "snapshot_reprepare_src" code) ∧
        ∃ fate, fate ≠ .saved ∧ (i, fate) ∈ order

/-- **The calls have ended one after another in this order**: each at most once and none before
it began, the store is what they leave, or one `Commit` of a call further that has not returned,
and every call that has returned is accounted for. -/
structure Linear (w : World κ) (t : Pool ι (World κ) Error Unit) (sched : List ι)
    (order : List (ι × Fate)) : Prop where
  once : (order.map Prod.fst).Nodup
  began : ∀ e ∈ order, e.1 ∈ sched
  store : Path S.Leaves w.snapshots order t.state.snapshots ∨
    ∃ i s, (t.progs i).result? = none ∧ Path S.Leaves w.snapshots order s ∧
      S.commit i s = .ok t.state.snapshots
  results : ∀ i r, (t.progs i).result? = some r → Accounts order i r

/-! ## The agreement -/

/-- The calls that have ended, and the one between its `Commit` and its end. -/
structure Order (ι : Type) where
  ended : List (ι × Fate)
  mid : Option ι

def Order.calls (c : Order ι) : List ι := c.ended.map Prod.fst ++ c.mid.toList

/-- The store the order says. -/
def Store (s₀ : Snapshots κ) (s : Snapshots κ) (c : Order ι) : Prop :=
  match c.mid with
  | none => Path S.Leaves s₀ c.ended s
  | some i => ∃ s', Path S.Leaves s₀ c.ended s' ∧ S.commit i s' = .ok s

structure Inv (s₀ : Snapshots κ) (w : World κ) (c : Order ι) : Prop where
  found : w.containers.lookup S.src = some S.record
  store : S.Store s₀ w.snapshots c
  once : c.calls.Nodup

/-- How call `i` may move the order on. -/
inductive Turn (i : ι) : Order ι → Order ι → Prop where
  | stays (c : Order ι) : Turn i c c
  | commits (ended : List (ι × Fate)) : Turn i ⟨ended, none⟩ ⟨ended, some i⟩
  | ends (ended : List (ι × Fate)) (fate : Fate) :
      Turn i ⟨ended, some i⟩ ⟨ended ++ [(i, fate)], none⟩

def proto (s₀ : Snapshots κ) : Proto ι (World κ) (Order ι) where
  inv := S.Inv s₀
  guar i _ c _ c' := Turn i c c'

/-- Its `Commit` has not gone through. -/
def Waiting (i : ι) (_ : World κ) (c : Order ι) : Prop := i ∉ c.calls

def Halfway (i : ι) (_ : World κ) (c : Order ι) : Prop := c.mid = some i

/-- Its `Prepare` has failed. -/
def Unprepared (i : ι) (w : World κ) (c : Order ι) : Prop :=
  (∃ n code, (S.client i).fault n = some code) ∧ Halfway i w c

def Ended (i : ι) (fate : Fate) (_ : World κ) (c : Order ι) : Prop := (i, fate) ∈ c.ended

def Failed (i : ι) (w : World κ) (c : Order ι) : Prop := ∃ fate, fate ≠ .saved ∧ Ended i fate w c

variable {S} {s₀ : Snapshots κ} {i : ι}

theorem Turn.ended_prefix {c c' : Order ι} (h : Turn i c c') : c.ended <+: c'.ended := by
  cases h with
  | stays => exact List.prefix_refl _
  | commits => exact List.prefix_refl _
  | ends ended fate => exact List.prefix_append _ _

theorem Turn.mem_calls {c c' : Order ι} (h : Turn i c c') {j : ι} (hj : j ∈ c'.calls) :
    j ∈ c.calls ∨ j = i := by
  cases h with
  | stays => exact .inl hj
  | commits ended =>
    simp only [Order.calls, Option.toList_some, Option.toList_none, List.append_nil,
      List.mem_append, List.mem_singleton] at hj ⊢
    exact hj
  | ends ended fate =>
    simp only [Order.calls, Option.toList_some, Option.toList_none, List.append_nil,
      List.map_append, List.map_cons, List.map_nil, List.mem_append, List.mem_singleton] at hj ⊢
    exact hj.imp_left .inl

theorem stable_waiting : Stable (S.proto s₀) i (Waiting i) := by
  intro j hj w c w' c' _ hg _ hP hmem
  rcases hg.mem_calls hmem with h | h
  · exact hP h
  · exact hj h.symm

theorem stable_halfway : Stable (S.proto s₀) i (Halfway i) := by
  intro j hj w c w' c' _ hg _ hP
  cases hg with
  | stays => exact hP
  | commits => cases hP
  | ends => cases hP; exact absurd rfl hj

theorem stable_unprepared : Stable (S.proto s₀) i (S.Unprepared i) :=
  stable_halfway.and_const _

theorem stable_ended {fate : Fate} : Stable (S.proto s₀) i (Ended i fate) :=
  fun _ _ _ _ _ _ _ hg _ hP => hg.ended_prefix.subset hP

theorem stable_failed : Stable (S.proto s₀) i (Failed i) := by
  intro j hj w c w' c' h₀ hg h₁ ⟨fate, hne, hP⟩
  exact ⟨fate, hne, stable_ended j hj w c w' c' h₀ hg h₁ hP⟩

theorem Inv.of_sameStore {w w' : World κ} {c : Order ι} (h : S.Inv s₀ w c) (hs : SameStore w w') :
    S.Inv s₀ w' c := by
  refine ⟨?_, ?_, h.once⟩
  · rw [hs.containers]
    exact h.found
  · rw [hs.snapshots]
    exact h.store

/-! ## The requests -/

theorem commit_eq_ok {s mid : Snapshots κ} (h : S.commit i s = .ok mid) :
    s.lookup (S.loc i) = none ∧ ∃ snap, s.lookup S.key = some snap ∧ snap.kind = .active ∧
      mid = s.committed S.record.snapshotter (S.name i) S.record.snapshotKey snap (S.labels i) :=
  Snapshots.commit_eq_ok h

/-- After a `Commit` the source's key is missing. -/
theorem key_missing {s mid : Snapshots κ} (h : S.commit i s = .ok mid) :
    mid.lookup S.key = none := by
  obtain ⟨hfree, snap, hsnap, -, rfl⟩ := commit_eq_ok h
  exact Snapshots.lookup_committed_key hfree hsnap

/-- Nothing but a fault stops the second `Prepare`. -/
theorem reprepare_ok {s mid : Snapshots κ} (h : S.commit i s = .ok mid) :
    ∃ s', S.reprepare i mid = .ok s' := by
  obtain ⟨hfree, snap, hsnap, -, rfl⟩ := commit_eq_ok h
  exact Snapshots.prepare_committed hfree hsnap _ _

/-- A `Commit` goes through when no other call is halfway. -/
theorem safe_commit (i : ι) :
    Safe (S.proto s₀) i (Replied (Halfway i) (Waiting i)) (Waiting i)
      (call (snapshotRequest (S.client i)
        (.commit S.record.snapshotter (S.name i) S.record.snapshotKey) fun snaps =>
          snaps.commit S.record.snapshotter (S.name i) S.record.snapshotKey
            (snapshotLabels S.record.image (S.opts i).description))) := by
  refine .atomic (.replied stable_halfway stable_waiting) fun w c hi hwait _ => ?_
  rcases snapshotRequest_cases (S.client i)
      (.commit S.record.snapshotter (S.name i) S.record.snapshotKey) (S.commit i) w with
    ⟨snaps, -, hans, hr⟩ | ⟨code, -, hr⟩
  · obtain ⟨ended, mid⟩ := c
    cases mid with
    | none =>
      have hr' : snapshotRequest (S.client i)
          (.commit S.record.snapshotter (S.name i) S.record.snapshotKey) (fun snaps =>
            snaps.commit S.record.snapshotter (S.name i) S.record.snapshotKey
              (snapshotLabels S.record.image (S.opts i).description)) w = _ := hr
      rw [after_ok hr', result_ok hr']
      refine ⟨⟨ended, some i⟩, ⟨hi.found, ⟨w.snapshots, hi.store, hans⟩, ?_⟩, .commits _, rfl⟩
      have hnodup : (ended.map Prod.fst ++ []).Nodup := hi.once
      have hnot : i ∉ ended.map Prod.fst ++ [] := hwait
      rw [List.append_nil] at hnodup hnot
      exact List.nodup_append.mpr ⟨hnodup, List.nodup_singleton _, fun a ha b hb => by
        rw [List.mem_singleton.mp hb]
        rintro rfl
        exact hnot ha⟩
    | some j =>
      -- another call is halfway: the key is missing
      obtain ⟨s, -, hcommit⟩ := hi.store
      obtain ⟨-, snap, hsnap, -⟩ := commit_eq_ok hans
      cases (key_missing hcommit).symm.trans hsnap
  · have hr' : snapshotRequest (S.client i)
        (.commit S.record.snapshotter (S.name i) S.record.snapshotKey) (fun snaps =>
          snaps.commit S.record.snapshotter (S.name i) S.record.snapshotKey
            (snapshotLabels S.record.image (S.opts i).description)) w = _ := hr
    rw [after_ok hr', result_ok hr']
    exact ⟨c, hi.of_sameStore (.noted _ w _ _), .stays c, hwait⟩

/-- The call that is halfway ends, in the way its last request went. -/
theorem Inv.ends {w : World κ} {c : Order ι} (h : S.Inv s₀ w c) (hmid : c.mid = some i)
    (w' : World κ) (hrecs : w'.containers = w.containers) {fate : Fate}
    (hleaves : ∀ s, S.commit i s = .ok w.snapshots → S.Leaves (i, fate) s w'.snapshots) :
    ∃ c', S.Inv s₀ w' c' ∧ Turn i c c' ∧ (i, fate) ∈ c'.ended := by
  obtain ⟨ended, mid⟩ := c
  cases hmid
  obtain ⟨s, hpath, hcommit⟩ := h.store
  refine ⟨⟨ended ++ [(i, fate)], none⟩, ⟨hrecs ▸ h.found, hpath.concat (hleaves s hcommit), ?_⟩,
    .ends _ _, List.mem_append_right _ (List.mem_singleton_self _)⟩
  have hnodup : (ended.map Prod.fst ++ [i]).Nodup := h.once
  show ((ended ++ [(i, fate)]).map Prod.fst ++ []).Nodup
  rw [List.map_append, List.append_nil]
  exact hnodup

theorem safe_reprepare (i : ι) :
    Safe (S.proto s₀) i (Replied (Ended i .saved) (S.Unprepared i)) (Halfway i)
      (call (snapshotRequest (S.client i)
        (.prepare S.record.snapshotter S.record.snapshotKey (S.name i)) (S.reprepare i))) := by
  refine .atomic (.replied stable_ended stable_unprepared) fun w c hi hmid _ => ?_
  rcases snapshotRequest_cases (S.client i)
      (.prepare S.record.snapshotter S.record.snapshotKey (S.name i)) (S.reprepare i) w with
    ⟨snaps, -, hans, hr⟩ | ⟨code, hc, hr⟩
  · rw [after_ok hr, result_ok hr]
    exact hi.ends hmid { w.noted (S.client i)
      (.prepare S.record.snapshotter S.record.snapshotKey (S.name i)) none with snapshots := snaps }
        rfl fun s hcommit => .saved hcommit hans
  · rw [after_ok hr, result_ok hr]
    have hfault : (S.client i).fault w.steps = some code := by
      rcases hc with hc | ⟨-, hans⟩
      · exact hc
      · have hstore := hi.store
        rw [Store, hmid] at hstore
        obtain ⟨s, -, hcommit⟩ := hstore
        obtain ⟨s', hs'⟩ := reprepare_ok hcommit
        cases hans.symm.trans hs'
    exact ⟨c, hi.of_sameStore (.noted _ w _ _), .stays c, ⟨_, _, hfault⟩, hmid⟩

/-- The rollback, whether its `Remove` goes through or not. -/
theorem safe_rollback (i : ι) :
    Safe (S.proto s₀) i (Replied (Failed i) (Failed i)) (S.Unprepared i)
      (call (snapshotRequest (S.client i) (.remove S.record.snapshotter (S.name i))
        (S.rollback i))) := by
  refine .atomic (.replied stable_failed stable_failed)
    fun w c hi ⟨⟨n, code, hfault⟩, hmid⟩ _ => ?_
  rcases snapshotRequest_cases (S.client i) (.remove S.record.snapshotter (S.name i))
      (S.rollback i) w with ⟨snaps, -, hans, hr⟩ | ⟨code', -, hr⟩
  · rw [after_ok hr, result_ok hr]
    obtain ⟨c', hi', hturn, hmem⟩ := hi.ends hmid { w.noted (S.client i)
      (.remove S.record.snapshotter (S.name i)) none with snapshots := snaps } rfl
        fun s hcommit => .rolledBack hfault hcommit hans
    exact ⟨c', hi', hturn, .rolledBack, nofun, hmem⟩
  · rw [after_ok hr, result_ok hr]
    obtain ⟨c', hi', hturn, hmem⟩ := hi.ends hmid (w.noted (S.client i)
      (.remove S.record.snapshotter (S.name i)) (some code')) rfl
        fun s hcommit => .left hfault hcommit
    exact ⟨c', hi', hturn, .left, nofun, hmem⟩

/-- The record read is the source's. -/
theorem safe_stop (i : ι) :
    Safe (S.proto s₀) i
      (fun r w c => (∀ found, r = .ok found → found.1 = S.record) ∧ Waiting i w c) (Waiting i)
      (call (stopForSnapshot (S.client i) S.src (S.name i))) := by
  refine .atomic (fun r => stable_waiting.and_const _) fun w c hi hwait _ => ?_
  have hs : SameStore w (after (stopForSnapshot (S.client i) S.src (S.name i)) w) :=
    (stopForSnapshot_keeps w).toSameStore
  refine ⟨c, hi.of_sameStore hs, .stays c, fun found hfound => ?_, hwait⟩
  cases hr : stopForSnapshot (S.client i) S.src (S.name i) w with
  | ok found' w' =>
    rw [result_ok hr] at hfound
    cases hfound
    exact Option.some.inj ((stopForSnapshot_record hr).symm.trans hi.found)
  | error e w' =>
    rw [result_error hr] at hfound
    cases hfound

theorem safe_restart (i : ι) {φ : Order ι → Prop} (hst : Stable (S.proto s₀) i fun _ => φ)
    (restart : Bool) :
    Safe (S.proto s₀) i (fun r _ c => r = .ok () ∧ φ c) (fun _ => φ)
      (call (restartSource (S.client i) S.src restart)) := by
  refine .atomic (fun _ => hst.and_const _) fun w c hi hP _ => ?_
  obtain ⟨w', hr, hs⟩ := restartSource_ok (S.client i) S.src restart w
  rw [after_ok hr, result_ok hr]
  exact ⟨c, hi.of_sameStore hs, .stays c, rfl, hP⟩

/-- What has become of a call that has returned. -/
def Returned (i : ι) : Except Error Unit → World κ → Order ι → Prop
  | .ok _ => Ended i .saved
  | .error e => fun w c => Waiting i w c ∨
      (∃ code, e = .containerd "snapshot_reprepare_src" code) ∧ Failed i w c

/-- **One call among others** keeps to the agreement from beginning to end. -/
theorem safe_snapshotSteps (i : ι) :
    Safe (S.proto s₀) i (Returned (κ := κ) i) (Waiting i)
      (snapshotSteps (S.client i) S.src (S.name i) (S.opts i)) := by
  unfold snapshotSteps
  refine .bind (safe_stop i) (fun found => ?_) fun _ w c _ h => .inl h.2
  by_cases hfound : found.1 = S.record
  · obtain ⟨record, wasRunning⟩ := found
    cases hfound
    refine Safe.pre (P := Waiting i) ?_ fun _ _ _ h => h.2
    unfold commitSteps
    refine .bind (safe_commit i) (fun committed => ?_) fun _ _ _ _ h => h.elim
    cases committed with
    | error code =>
      refine .bind (safe_restart i stable_waiting _) (fun _ => ?_) fun _ _ _ _ h => .inl h.2
      exact .throw fun _ _ _ h => .inl h.2
    | ok _ =>
      refine .bind (safe_reprepare i) (fun prepared => ?_) fun _ _ _ _ h => h.elim
      cases prepared with
      | error code =>
        refine .bind (safe_rollback i) (fun answer => ?_) fun _ _ _ _ h => h.elim
        cases answer <;> exact .throw fun _ _ _ h => .inr ⟨⟨code, rfl⟩, h⟩
      | ok _ =>
        refine (safe_restart i stable_ended _).post fun r w c _ ⟨hr, h⟩ => ?_
        cases hr
        exact h
  · exact .unreachable fun _ _ _ h => hfound (h.1 found rfl)

/-! ## All calls -/

theorem agrees [DecidableEq ι] {w : World κ} (h : w.containers.lookup S.src = some S.record) :
    (S.pool w).Agrees (S.proto w.snapshots) Returned ⟨[], none⟩ :=
  ⟨⟨h, .nil _, List.nodup_nil⟩, fun i => ⟨Waiting i, stable_waiting, List.not_mem_nil,
    safe_snapshotSteps i⟩⟩

/-- The call that is halfway has not returned. -/
theorem halfway_runs {w : World κ} {t : Pool ι (World κ) Error Unit} {c : Order ι}
    (h : t.Agrees (S.proto w.snapshots) Returned c) (hmid : c.mid = some i) :
    (t.progs i).result? = none := by
  cases hres : (t.progs i).result? with
  | none => rfl
  | some r =>
    have hcall : i ∈ c.mid.toList := by simp [hmid]
    have honce := List.nodup_append.mp h.1.once
    have hnot (fate : Fate) : (i, fate) ∉ c.ended := fun hmem =>
      honce.2.2 i (List.mem_map.mpr ⟨_, hmem, rfl⟩) i hcall rfl
    have hret := h.returned hres
    cases r with
    | ok _ => exact absurd hret (hnot _)
    | error e =>
      rcases hret with hwait | ⟨-, fate, -, hended⟩
      · exact absurd (List.mem_append_right _ hcall) hwait
      · exact absurd hended (hnot _)

theorem linear_of_agrees {w : World κ} {t : Pool ι (World κ) Error Unit} {c : Order ι}
    {sched : List ι} (h : t.Agrees (S.proto w.snapshots) Returned c)
    (hbegan : ∀ i ∈ c.calls, i ∈ sched) : S.Linear w t sched c.ended := by
  refine ⟨(List.nodup_append.mp h.1.once).1, fun e he => ?_, ?_, fun i r hres => ?_⟩
  · exact hbegan _ (List.mem_append_left _ (List.mem_map.mpr ⟨e, he, rfl⟩))
  · have hstore := h.1.store
    unfold Store at hstore
    cases hmid : c.mid with
    | none => rw [hmid] at hstore; exact .inl hstore
    | some i =>
      rw [hmid] at hstore
      obtain ⟨s, hpath, hcommit⟩ := hstore
      exact .inr ⟨i, s, halfway_runs h hmid, hpath, hcommit⟩
  · have hret := h.returned hres
    cases r with
    | ok _ => exact hret
    | error e =>
      rcases hret with hwait | ⟨he, hfailed⟩
      · refine .inl fun fate hmem => hwait (List.mem_append_left _ ?_)
        exact List.mem_map.mpr ⟨_, hmem, rfl⟩
      · exact .inr ⟨he, hfailed⟩

/-- Every run keeps to the agreement, and only calls that have begun are in its order. -/
theorem run_agrees [DecidableEq ι] {w : World κ} (h : w.containers.lookup S.src = some S.record)
    {sched : List ι} {t : Pool ι (World κ) Error Unit}
    (hr : run Pool.step (S.pool w) sched = some t) :
    ∃ c, t.Agrees (S.proto w.snapshots) Returned c ∧ ∀ i ∈ c.calls, i ∈ sched := by
  refine Pool.run_agrees_by (J := fun c => ∀ i ∈ c.calls, i ∈ sched)
    (fun _ _ _ => trivial) (fun i hi _ c _ c' hg hJ j hj => ?_) (agrees h) nofun hr
  rcases hg.mem_calls hj with hj | rfl
  · exact hJ j hj
  · exact hi

end Savers

open Savers

/-- **Snapshots of one source are linearizable.** In every interleaving of any number of calls,
whatever fails in them, the calls end in one order: a later look at the run finds the same order
gone on, the store is what the calls leave one after another in that order, when all have returned,
and before that perhaps one `Commit` further; every call that returned `Ok` is in the order and
saved the source, and every other call that has returned left the store as it was, unless it
returned the error of the second `Prepare`. -/
theorem snapshots_linearize [DecidableEq ι] (S : Savers ι) (w : World κ)
    (hfound : w.containers.lookup S.src = some S.record) (sched sched' : List ι)
    (t t' : Pool ι (World κ) Error Unit) (hr : run Pool.step (S.pool w) sched = some t)
    (hr' : run Pool.step t sched' = some t') :
    ∃ order later, S.Linear w t sched order ∧ S.Linear w t' (sched ++ sched') (order ++ later) ∧
      (t'.Done → Path S.Leaves w.snapshots (order ++ later) t'.state.snapshots) := by
  obtain ⟨c, hagrees, hbegan⟩ := run_agrees hfound hr
  have hkeep : ∀ i ∈ sched', ∀ (s : World κ) (d : Order ι) (s' : World κ) (d' : Order ι),
      (S.proto w.snapshots).guar i s d s' d' →
      (c.ended <+: d.ended ∧ ∀ j ∈ d.calls, j ∈ sched ++ sched') →
      c.ended <+: d'.ended ∧ ∀ j ∈ d'.calls, j ∈ sched ++ sched' := by
    intro i hi _ d _ d' hg ⟨hpre, hmem⟩
    refine ⟨hpre.trans hg.ended_prefix, fun j hj => ?_⟩
    rcases hg.mem_calls hj with hj | rfl
    · exact hmem j hj
    · exact List.mem_append_right _ hi
  obtain ⟨c', hagrees', ⟨later, hlater⟩, hbegan'⟩ := Pool.run_agrees_by (fun _ _ _ => trivial)
    hkeep hagrees ⟨List.prefix_refl _, fun i hi => List.mem_append_left _ (hbegan i hi)⟩ hr'
  have hlinear' := linear_of_agrees hagrees' hbegan'
  rw [← hlater] at hlinear'
  refine ⟨c.ended, later, linear_of_agrees hagrees hbegan, hlinear', fun hdone => ?_⟩
  rcases hlinear'.store with hpath | ⟨i, s, hres, -⟩
  · exact hpath
  · obtain ⟨r, hr⟩ := hdone i
    rw [hres] at hr
    cases hr

/-! ## Two calls -/

/-- Two calls, with the same name or with two. -/
def twoSavers (same : Bool) (client : Client) : Savers Bool where
  src := "web"
  record := webRecord
  client _ := client
  name first := if first || same then "v1" else "v2"
  opts _ := {}

instance (t : Pool Bool (World Nat) Error Unit) : Decidable t.Done :=
  decidable_of_iff
      ((t.progs true).result?.isSome = true ∧ (t.progs false).result?.isSome = true) <| by
    simp only [Pool.Done, Bool.forall_bool, Option.isSome_iff_exists]
    exact and_comm

/-- Containerd is away for one request, the second `Prepare` of the second call. -/
def awayOnce : Client where
  fault n := if n = 9 then some .unavailable else none

/-- Both calls begin before either commits. The second commits before the first has returned, fails
and takes back what it committed. -/
theorem two_snapshots_linearize : ∃ t t' order later,
    run Pool.step ((twoSavers false awayOnce).pool webWorld) [true, false, true] = some t ∧
    run Pool.step t [true, false, false, false, true] = some t' ∧
    (twoSavers false awayOnce).Linear webWorld t [true, false, true] order ∧
    (∀ first, (t.progs first).result? = none) ∧ (true, .saved) ∈ order ++ later ∧
    (t'.progs false).result?.any (fun r => !r.isOk) = true ∧
    Path (twoSavers false awayOnce).Leaves webWorld.snapshots (order ++ later)
      t'.state.snapshots := by
  obtain ⟨t, hr, hruns⟩ := run_eval Pool.step ((twoSavers false awayOnce).pool webWorld)
    [true, false, true] (fun t => ∀ first, (t.progs first).result? = none) (by decide +kernel)
  obtain ⟨t', hboth, hdone, hok, hfailed⟩ := run_eval Pool.step
    ((twoSavers false awayOnce).pool webWorld)
    ([true, false, true] ++ [true, false, false, false, true])
    (fun t' => t'.Done ∧ (t'.progs true).result? = some (.ok ()) ∧
      (t'.progs false).result?.any (fun r => !r.isOk) = true) (by decide +kernel)
  obtain ⟨m, hm, hr'⟩ := run_append.mp hboth
  cases hr.symm.trans hm
  obtain ⟨order, later, hlinear, hlinear', hpath⟩ := snapshots_linearize (twoSavers false awayOnce)
    webWorld (AList.lookup_insert _) _ _ t t' hr hr'
  exact ⟨t, t', order, later, hr, hr', hlinear, hruns, hlinear'.results true _ hok, hfailed,
    hpath hdone⟩

/-! ## Without faults -/

namespace Savers

variable (S : Savers ι)

/-- From `s` to `s'` the calls of `order` saved the source, which has the content `x`. -/
structure Saved (x : κ) (order : List (ι × Fate)) (s s' : Snapshots κ) : Prop where
  source : ∃ last, s'.lookup S.key = some last ∧ last.kind = .active ∧ last.content = x
  names : ∀ e ∈ order, s.lookup (S.loc e.1) = none ∧ ∃ saved, s'.lookup (S.loc e.1) = some saved ∧
    saved.kind = .committed ∧ saved.content = x ∧ saved.labels = S.labels e.1
  distinct : (order.map fun e => S.name e.1).Nodup
  fates : ∀ e ∈ order, e.2 = .saved
  others : ∀ loc, loc ≠ S.key → (∀ e ∈ order, loc ≠ S.loc e.1) → s'.lookup loc = s.lookup loc

variable {S}

/-- One call that saved the source. -/
theorem lookup_saved {i : ι} {s mid s' : Snapshots κ} {snap : Snapshot κ}
    (hsnap : s.lookup S.key = some snap) (hcommit : S.commit i s = .ok mid)
    (hprep : S.reprepare i mid = .ok s') :
    s.lookup (S.loc i) = none ∧
      s'.lookup S.key = some
        { kind := .active, parent := S.name i, labels := ∅, content := snap.content } ∧
      s'.lookup (S.loc i) = some { snap with kind := .committed, labels := S.labels i } ∧
      ∀ loc, loc ≠ S.key → loc ≠ S.loc i → s'.lookup loc = s.lookup loc := by
  obtain ⟨hfree, found, hfound, -, rfl⟩ := commit_eq_ok hcommit
  cases hsnap.symm.trans hfound
  have hne : S.loc i ≠ S.key := Snapshots.name_ne_key hfree hsnap
  obtain ⟨-, base, hbase, -, rfl⟩ := Snapshots.prepare_eq_ok hprep
  have hname : (s.committed S.record.snapshotter (S.name i) S.record.snapshotKey snap
      (S.labels i)).lookup (S.loc i) =
        some { snap with kind := .committed, labels := S.labels i } :=
    Snapshots.lookup_committed_name
  cases hname.symm.trans hbase
  refine ⟨hfree, AList.lookup_insert _, ?_, fun loc hk hn => ?_⟩
  · exact (AList.lookup_insert_ne hne).trans hname
  · exact (AList.lookup_insert_ne hk).trans (Snapshots.lookup_committed_of_ne hn hk)

/-- **What calls leave that all saved the source**, one after another. -/
theorem saved_of_path {x : κ} {order : List (ι × Fate)} {s s' : Snapshots κ}
    (h : Path S.Leaves s order s') (hfault : ∀ i n, (S.client i).fault n = none)
    (hs : ∃ snap, s.lookup S.key = some snap ∧ snap.kind = .active ∧ snap.content = x) :
    S.Saved x order s s' := by
  induction h with
  | nil s => exact ⟨hs, nofun, List.nodup_nil, nofun, fun _ _ _ => rfl⟩
  | @cons s u v e order hleaves _ ih =>
    obtain ⟨snap, hsnap, -, rfl⟩ := hs
    cases hleaves with
    | rolledBack hf => rw [hfault] at hf; cases hf
    | left hf => rw [hfault] at hf; cases hf
    | @saved i _ mid _ hcommit hprep =>
      obtain ⟨hfree, hkey, hname, hothers⟩ := lookup_saved hsnap hcommit hprep
      obtain ⟨hsource, hnames, hdistinct, hfates, hlater⟩ := ih ⟨_, hkey, rfl, rfl⟩
      have hne : S.loc i ≠ S.key := by
        intro heq
        rw [heq, hsnap] at hfree
        cases hfree
      -- a later call of the same name would have found it taken
      have hnew : ∀ e ∈ order, S.loc i ≠ S.loc e.1 := by
        intro e he heq
        obtain ⟨hnone, -⟩ := hnames e he
        rw [← heq, hname] at hnone
        cases hnone
      refine ⟨hsource, ?_, ?_, List.forall_mem_cons.mpr ⟨rfl, hfates⟩, fun loc hk hloc => ?_⟩
      · intro e he
        rcases List.mem_cons.mp he with rfl | he
        · exact ⟨hfree, _, (hlater _ hne hnew).trans hname, rfl, rfl, rfl⟩
        · obtain ⟨hnone, hsaved⟩ := hnames e he
          refine ⟨?_, hsaved⟩
          rw [← hothers (S.loc e.1) (fun heq => ?_) (hnew e he).symm]
          · exact hnone
          · rw [heq, hkey] at hnone
            cases hnone
      · refine List.nodup_cons.mpr ⟨fun hmem => ?_, hdistinct⟩
        obtain ⟨e, he, heq⟩ := List.mem_map.mp hmem
        exact hnew e he (by rw [loc, loc, heq])
      · rw [hlater loc hk fun e he => hloc e (List.mem_cons_of_mem _ he),
          hothers loc hk (hloc (i, .saved) List.mem_cons_self)]

end Savers

/-- **Snapshots that race keep the source.** Without faults, when all calls have returned, the
source has an active snapshot with its old content, every call that returned `Ok` has its own name,
free before, with that content and its labels, no two of them have one name, and no other snapshot
has changed. -/
theorem racing_snapshots_keep_source [DecidableEq ι] (S : Savers ι) (w : World κ)
    (hfound : w.containers.lookup S.src = some S.record) (snap : Snapshot κ)
    (hsnap : w.snapshots.lookup S.key = some snap) (hkind : snap.kind = .active)
    (hfault : ∀ i n, (S.client i).fault n = none) (sched : List ι)
    (t : Pool ι (World κ) Error Unit) (hr : run Pool.step (S.pool w) sched = some t)
    (hdone : t.Done) :
    (∃ last, t.state.snapshots.lookup S.key = some last ∧ last.kind = .active ∧
      last.content = snap.content) ∧
    (∀ i, (t.progs i).result? = some (.ok ()) → w.snapshots.lookup (S.loc i) = none ∧
      ∃ saved, t.state.snapshots.lookup (S.loc i) = some saved ∧ saved.kind = .committed ∧
        saved.content = snap.content ∧ saved.labels = S.labels i) ∧
    (∀ i j, (t.progs i).result? = some (.ok ()) → (t.progs j).result? = some (.ok ()) →
      S.name i = S.name j → i = j) ∧
    ∀ loc, loc ≠ S.key → (∀ i, (t.progs i).result? = some (.ok ()) → loc ≠ S.loc i) →
      t.state.snapshots.lookup loc = w.snapshots.lookup loc := by
  obtain ⟨c, hagrees, hbegan⟩ := run_agrees hfound hr
  have hlinear := linear_of_agrees hagrees hbegan
  have hpath : Path S.Leaves w.snapshots c.ended t.state.snapshots := by
    rcases hlinear.store with hpath | ⟨i, s, hres, -⟩
    · exact hpath
    · obtain ⟨r, hr⟩ := hdone i
      rw [hres] at hr
      cases hr
  have hsaved := saved_of_path hpath hfault ⟨snap, hsnap, hkind, rfl⟩
  have hmem (i : ι) (hi : (t.progs i).result? = some (.ok ())) : (i, .saved) ∈ c.ended :=
    hlinear.results i _ hi
  refine ⟨hsaved.source, fun i hi => hsaved.names _ (hmem i hi), fun i j hi hj hname => ?_,
    fun loc hk hloc => hsaved.others loc hk fun e he => ?_⟩
  · have hinj := List.inj_on_of_nodup_map hsaved.distinct (hmem i hi) (hmem j hj) hname
    exact congrArg Prod.fst hinj
  · obtain ⟨r, hres⟩ := hdone e.1
    have hacc := hlinear.results e.1 r hres
    cases r with
    | ok _ => exact hloc e.1 hres
    | error err =>
      -- a call in the order that returned an error has met a fault
      rcases hacc with hnot | ⟨-, fate, hne, hfate⟩
      · exact absurd he (hnot e.2)
      · exact absurd (hsaved.fates _ hfate) hne

/-- Of two calls with one name the first to commit wins; the other comes while it is halfway. -/
theorem one_name_won_once : ∃ t,
    run Pool.step ((twoSavers true {}).pool webWorld)
      [true, false, true, false, true, false, true] = some t ∧
    (t.progs true).result? = some (.ok ()) ∧ (t.progs false).result? ≠ some (.ok ()) ∧
    ∃ last, t.state.snapshots.lookup ("overlayfs", "web") = some last ∧ last.kind = .active ∧
      last.content = 7 := by
  obtain ⟨t, hr, hdone, hok⟩ := run_eval Pool.step ((twoSavers true {}).pool webWorld)
    [true, false, true, false, true, false, true]
    (fun t => t.Done ∧ (t.progs true).result? = some (.ok ())) (by decide +kernel)
  obtain ⟨hsource, -, hone, -⟩ := racing_snapshots_keep_source (twoSavers true {}) webWorld
    (AList.lookup_insert _) webLayer (AList.lookup_insert _) rfl (fun _ _ => rfl) _ t hr hdone
  refine ⟨t, hr, hok, fun hother => ?_, hsource⟩
  cases hone true false hok hother rfl

end ContainerdManager.Snapshot
