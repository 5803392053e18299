import ContainerdManager.Snapshot.Race
import ContainerdManager.System.Isolation
import ContainerdManager.System.Jobs

/-!
# Records and their root snapshots

Creates, clones, restores, deletions, snapshots and deletions of snapshots in
one namespace take turns request by request, and any request may fail. A
container that nobody deletes, clones or snapshots keeps its record and its
root snapshot, and a new one gets both or no record: its maker prepares the
root before it writes the record, and takes the root away only when there is
no record. Nobody else touches either (`Sparing`).
-/

namespace ContainerdManager.System

open Lib Containerd Container Snapshot Clone ContainerdManager.Task

variable {κ ι : Type}

/-! ## Calls -/

/-- `delete_snapshot`, request by request. -/
def deleteSnapshotSteps (client : Client) (name : String) : Proc κ Unit := do
  let _ ← call (statManagedSnapshot client defaultSnapshotter name)
  match ← call (removeSnapshot client defaultSnapshotter name) with
  | .ok () => return ()
  | .error code =>
    throw (if code = .notFound then .snapshotNotFound name else .containerd "snapshot_delete" code)

/-- Alone, the steps are the operation. -/
theorem deleteSnapshotSteps_run (client : Client) (name : String) :
    (deleteSnapshotSteps (κ := κ) client name).run = Snapshot.deleteSnapshot client name := by
  simp only [deleteSnapshotSteps, call, Prog.run_bind, Prog.run_atomic]
  unfold Snapshot.deleteSnapshot
  congr 1
  funext _
  congr 1
  funext answer
  cases answer <;> rfl

inductive StoreJob where
  | records (job : Job)
  | snapshot (src name : String) (opts : SnapshotContainerOpts)
  | deleteSnapshot (name : String)

def StoreJob.prog (client : Client) : StoreJob → Proc κ Unit
  | .records job => job.prog client
  | .snapshot src name opts => snapshotSteps client src name opts
  | .deleteSnapshot name => deleteSnapshotSteps client name

/-- The container the call makes. -/
def StoreJob.makes : StoreJob → Option String
  | .records (.create id ..) => some id
  | .records (.clone _ dst ..) => some dst
  | .records (.restore _ dst ..) => some dst
  | _ => none

/-- The container whose root snapshot the call commits or removes. -/
def StoreJob.takes : StoreJob → Option String
  | .records (.delete id _) => some id
  | .records (.clone src ..) => some src
  | .snapshot src .. => some src
  | _ => none

/-- Names of snapshots are plain, and `create_container` prepares the root snapshot itself. -/
def StoreJob.Proper : StoreJob → Prop
  | .records (.create _ _ _ opts) => opts.fromExistingSnapshot = none
  | .snapshot _ name _ => PlainName name
  | .deleteSnapshot name => PlainName name
  | _ => True

def storePool (client : ι → Client) (job : ι → StoreJob) (w : World κ) :
    Pool ι (World κ) Error Unit where
  state := w
  progs i := (job i).prog (client i)

/-! ## Roots -/

def rootOf (id : String) : SnapshotKey := (defaultSnapshotter, snapshotKeyFor id)

/-- The record names the container's own root snapshot. -/
def OwnRoot (id : String) (record : ContainerRecord) : Prop :=
  (record.snapshotter, record.snapshotKey) = rootOf id

/-- New records name their own roots, and the containers in `S` keep their records and roots. -/
structure Sparing (S : String → Prop) (w w' : World κ) : Prop where
  own : ∀ id record, w'.containers.lookup id = some record →
    w.containers.lookup id = some record ∨ OwnRoot id record
  record : ∀ id, S id → w'.containers.lookup id = w.containers.lookup id
  root : ∀ id, S id → w'.snapshots.lookup (rootOf id) = w.snapshots.lookup (rootOf id)

section Sparing

variable {S : String → Prop} {client : Client}

instance : Std.Refl (Sparing (κ := κ) S) :=
  ⟨fun _ => ⟨fun _ _ h => .inl h, fun _ _ => rfl, fun _ _ => rfl⟩⟩

instance : IsTrans (World κ) (Sparing S) where
  trans w₁ w₂ w₃ h h' := by
    refine ⟨fun id record hl => ?_, fun id hid => (h'.record id hid).trans (h.record id hid),
      fun id hid => (h'.root id hid).trans (h.root id hid)⟩
    rcases h'.own id record hl with hl | hown
    · exact h.own id record hl
    · exact .inr hown

theorem Sparing.mono {S' : String → Prop} {w w' : World κ} (h : Sparing S w w')
    (hS : ∀ id, S' id → S id) : Sparing S' w w' :=
  ⟨h.own, fun id hid => h.record id (hS id hid), fun id hid => h.root id (hS id hid)⟩

theorem Sparing.of_snapshots {w w' : World κ} (hc : w'.containers = w.containers)
    (hs : ∀ id, S id → w'.snapshots.lookup (rootOf id) = w.snapshots.lookup (rootOf id)) :
    Sparing S w w' :=
  ⟨fun _ _ hl => .inl (hc ▸ hl), fun _ _ => by rw [hc], hs⟩

theorem Sparing.of_sameStore {w w' : World κ} (h : SameStore w w') : Sparing S w w' :=
  .of_snapshots h.containers fun _ _ => by rw [h.snapshots]

theorem Sparing.of_calm {w w' : World κ} (h : Calm w w') : Sparing S w w' :=
  .of_sameStore h.toSameStore

/-- Changes of other snapshots. -/
theorem Sparing.of_within {w w' : World κ} (h : Within (fun _ => False) (fun loc => ∀ id, S id →
    loc ≠ rootOf id) w w') : Sparing S w w' :=
  ⟨fun id _ hl => .inl ((h.records id fun hf => hf).symm.trans hl),
    fun id _ => h.records id fun hf => hf, fun id hid => h.snapshots _ fun hne => hne id hid rfl⟩

theorem checkName_spares {name : String} : Keeps (Sparing (κ := κ) S) (checkName client name) :=
  checkName_keeps fun w r => .of_sameStore (.noted client w _ r)

theorem statManagedSnapshot_spares {snapshotter name : String} :
    Keeps (Sparing (κ := κ) S) (statManagedSnapshot client snapshotter name) :=
  statManagedSnapshot_keeps (statSnapshot_keeps fun w r => .of_sameStore (.noted client w _ r))

theorem deleteRecord_spares {id : String} (hid : ¬ S id) :
    Keeps (Sparing (κ := κ) S) (deleteRecord client id) := by
  have hwithin : Keeps (Within (· = id) fun _ => False) (deleteRecord (κ := κ) client id) :=
    deleteRecord_within rfl
  intro w
  have h := hwithin w
  refine ⟨fun id' record hl => ?_, fun id' hs => h.records id' fun e => hid (e ▸ hs),
    fun _ _ => h.snapshots _ fun hf => hf⟩
  rcases deleteRecord_cases client id w with ⟨_, -, hr⟩ | ⟨code, -, hr⟩
  · rw [after_ok hr] at hl
    have hl' : (w.containers.erase id).lookup id' = some record := hl
    by_cases he : id' = id
    · subst he
      rw [AList.lookup_erase] at hl'
      cases hl'
    · exact .inl ((AList.lookup_erase_ne he).symm.trans hl')
  · rw [after_ok hr] at hl
    exact .inl hl

theorem createRecord_spares {id : String} {record : ContainerRecord} (hid : ¬ S id)
    (hown : OwnRoot id record) : Keeps (Sparing (κ := κ) S) (createRecord client id record) := by
  intro w
  rcases createRecord_cases client w id record with ⟨-, -, hr⟩ | ⟨code, hr⟩
  · rw [after_ok hr]
    refine ⟨fun id' record' hl => ?_, fun id' hs => AList.lookup_insert_ne fun e => hid (e ▸ hs),
      fun _ _ => rfl⟩
    by_cases he : id' = id
    · subst he
      cases (AList.lookup_insert _).symm.trans hl
      exact .inr hown
    · exact .inl ((AList.lookup_insert_ne he).symm.trans hl)
  · rw [after_ok hr]
    exact .of_sameStore (.noted client w _ _)

end Sparing

/-! ## The agreement -/

/-- Nobody deletes, clones or snapshots the container. -/
def Left (job : ι → StoreJob) (id : String) : Prop := ∀ i, (job i).takes ≠ some id

/-- What the calls agree on: a record names its own root, which is there if the container is left
alone; call `i` spares every such container but the one it makes. -/
def rootsProto (job : ι → StoreJob) : Proto ι (World κ) Unit where
  inv w _ := (∀ id record, w.containers.lookup id = some record → OwnRoot id record) ∧
    ∀ id, Left job id → w.containers.lookup id ≠ none →
      Active w defaultSnapshotter (snapshotKeyFor id)
  guar i w _ w' _ := Sparing (fun id => Left job id ∧ (job i).makes ≠ some id) w w'

/-- A fact about the record and the root of a container, if it is left alone. -/
def About (job : ι → StoreJob) (id : String)
    (P : Option ContainerRecord → Option (Containerd.Snapshot κ) → Prop) (w : World κ) (_ : Unit) :
    Prop :=
  Left job id → P (w.containers.lookup id) (w.snapshots.lookup (rootOf id))

/-- There is no record. -/
def Fresh (job : ι → StoreJob) (id : String) : World κ → Unit → Prop :=
  About job id fun record _ => record = none

/-- There is no record, but its root. -/
def Rooted (job : ι → StoreJob) (id : String) : World κ → Unit → Prop :=
  About job id fun record root => record = none ∧ ∃ snap ∈ root, snap.kind = .active

/-- How the maker of a container ends: with a record, or without. -/
def Made {ε α : Type} (job : ι → StoreJob) (id : String) (r : Except ε α) :
    World κ → Unit → Prop :=
  About job id fun record _ => match r with
    | .ok _ => record ≠ none
    | .error _ => record = none

/-- What a request for the root leaves. -/
def Laid {ε δ α : Type} (job : ι → StoreJob) (id : String) :
    Except ε (Except δ α) → World κ → Unit → Prop :=
  Replied (Rooted job id) (Fresh job id)

section Agreement

variable {job : ι → StoreJob} {i : ι} {id : String} {α : Type}
  {P : Option ContainerRecord → Option (Containerd.Snapshot κ) → Prop}

theorem root_ne {src : String} (hsrc : ¬ Left job src) (hleft : Left job id)
    (snapshotter : String) :
    (snapshotter, snapshotKeyFor src) ≠ rootOf id := fun e =>
  hsrc (snapshotKeyFor_injective (Prod.mk.inj e).2 ▸ hleft)

theorem Rooted.fresh {w : World κ} (h : Rooted job id w ()) : Fresh job id w () :=
  fun hleft => (h hleft).1

/-- A step that spares whoever is left alone. -/
theorem spared_inv {w w' : World κ} (h : (rootsProto job).inv w ()) (hs : Sparing (Left job) w w') :
    (rootsProto job).inv w' () := by
  obtain ⟨hown, hroots⟩ := h
  refine ⟨fun id record hl => ?_, fun id hleft hrec => ?_⟩
  · rcases hs.own id record hl with hl | ho
    · exact hown id record hl
    · exact ho
  · rw [hs.record id hleft] at hrec
    obtain ⟨snap, hl, hkind⟩ := hroots id hleft hrec
    exact ⟨snap, (hs.root id hleft).trans hl, hkind⟩

theorem spared_about {w w' : World κ} (hs : Sparing (Left job) w w') (h : About job id P w ()) :
    About job id P w' () := by
  intro hleft
  rw [hs.record id hleft, hs.root id hleft]
  exact h hleft

/-- A step of the container's maker, as long as there is no record. -/
theorem own_inv {w w' : World κ} (h : (rootsProto job).inv w ()) (hfresh : Fresh job id w ())
    (hc : w'.containers = w.containers)
    (hs : Sparing (fun id' => Left job id' ∧ id' ≠ id) w w') : (rootsProto job).inv w' () := by
  obtain ⟨hown, hroots⟩ := h
  refine ⟨fun id' record hl => hown id' record (hc ▸ hl), fun id' hleft hrec => ?_⟩
  rw [hc] at hrec
  by_cases he : id' = id
  · subst he
    exact absurd (hfresh hleft) hrec
  · obtain ⟨snap, hl, hkind⟩ := hroots id' hleft hrec
    exact ⟨snap, (hs.root id' ⟨hleft, he⟩).trans hl, hkind⟩

variable (hnew : (job i).makes = some id) (hdistinct : ∀ j, j ≠ i → (job j).makes ≠ some id)

include hdistinct in
/-- What the maker of a container knows of it stays so. -/
theorem stable_about : Stable (rootsProto job) i (About job id P) := by
  rintro j hj w ⟨⟩ w' ⟨⟩ - hs - h hleft
  rw [hs.record id ⟨hleft, hdistinct j hj⟩, hs.root id ⟨hleft, hdistinct j hj⟩]
  exact h hleft

/-- **Frame** for steps that spare whoever is left alone. -/
theorem safe_spared {R : World κ → Unit → Prop} (hst : Stable (rootsProto job) i R)
    (hR : ∀ w w', Sparing (Left job) w w' → R w () → R w' ()) {φ : α → Prop} {p : Proc κ α}
    (hp : p.Steps (Sparing (Left job))) (hφ : p.Returns φ) :
    Safe (rootsProto job) i (fun r w c => R w c ∧ ∀ a, r = .ok a → φ a) R p := by
  refine .returning hp hφ hst ?_
  rintro w ⟨⟩ w' hi hr - hs
  exact ⟨(), spared_inv hi hs, hs.mono fun _ h => h.1, hR w w' hs hr⟩

/-- The same for one that nothing is known of. -/
theorem safe_bystander {p : Proc κ α} (hp : p.Steps (Sparing (Left job))) :
    Safe (rootsProto job) i (fun _ _ _ => True) (fun _ _ => True) p :=
  (safe_spared (fun _ _ _ _ _ _ _ _ _ _ => trivial) (fun _ _ _ _ => trivial) hp (.any p)).post
    fun _ _ _ _ _ => trivial

include hdistinct in
theorem safe_about {φ : α → Prop} {p : Proc κ α} (hp : p.Steps (Sparing (Left job)))
    (hφ : p.Returns φ) :
    Safe (rootsProto job) i (fun r w c => About job id P w c ∧ ∀ a, r = .ok a → φ a)
      (About job id P) p :=
  safe_spared (stable_about hdistinct) (fun _ _ => spared_about) hp hφ

include hdistinct in
theorem safe_quiet {p : Proc κ α} (hp : p.Steps (Sparing (Left job))) :
    Safe (rootsProto job) i (fun _ => About job id P) (About job id P) p :=
  (safe_about hdistinct hp (.any p)).post fun _ _ _ _ h => h.1

include hdistinct in
/-- A step that spares whoever is left alone, and does not fail. -/
theorem safe_total {m : Op κ Unit} (hm : Keeps (Sparing (Left job)) m)
    (htotal : ∀ w, ∃ w', m w = .ok () w') :
    Safe (rootsProto job) i (fun r w c => (∃ u, r = .ok u) ∧ About job id P w c) (About job id P)
      (call m) := by
  refine .atomic (fun _ => (stable_about hdistinct).and_const _) ?_
  rintro w ⟨⟩ hi h -
  obtain ⟨w', hr⟩ := htotal w
  have hs := hm.ok hr
  rw [after_ok hr, result_ok hr]
  exact ⟨(), spared_inv hi hs, hs.mono fun _ h => h.1, ⟨(), rfl⟩, spared_about hs h⟩

omit hdistinct in
theorem lock_spares (ready : World κ → Bool) (held : Bool) {S : String → Prop} :
    (Prog.await ready fun w => { w with allocLock := held } : Proc κ Unit).Steps (Sparing S) :=
  .await fun _ => .of_sameStore ⟨rfl, rfl⟩

include hdistinct in
/-- Releasing the lock does not fail. -/
theorem unlock_safe :
    Safe (rootsProto job) i (fun r w c => (∃ u, r = .ok u) ∧ About job id P w c) (About job id P)
      (Prog.await (fun _ => true) fun w => { w with allocLock := false } : Proc κ Unit) := by
  refine .await ((stable_about hdistinct).and_const _) ?_
  rintro w ⟨⟩ hi h - -
  have hs : Sparing (Left job) w { w with allocLock := false } := .of_sameStore ⟨rfl, rfl⟩
  exact ⟨(), spared_inv hi hs, hs.mono fun _ h => h.1, ⟨(), rfl⟩, spared_about hs h⟩

omit hdistinct in
/-- A record that is read names its own root. -/
theorem readRecord_safe {β : Type} {src : String} {R : World κ → Unit → Prop}
    (hst : Stable (rootsProto job) i R)
    (hR : ∀ w w', Sparing (Left job) w w' → R w () → R w' ()) {m : Op κ β}
    {record : β → ContainerRecord} (hm : Keeps Calm m)
    (hread : ∀ w w' b, m w = .ok b w' → w.containers.lookup src = some (record b)) :
    Safe (rootsProto job) i (fun r w c => (∀ b, r = .ok b → OwnRoot src (record b)) ∧ R w c) R
      (call m) := by
  refine .atomic (fun _ => hst.and_const _) ?_
  rintro w ⟨⟩ hi h -
  have hs : Sparing (Left job) w (after m w) := .of_calm (hm w)
  refine ⟨(), spared_inv hi hs, hs.mono fun _ h => h.1, fun b hb => ?_, hR w _ hs h⟩
  obtain ⟨w', hr⟩ := ok_of_result (congrArg Except.toOption hb)
  exact hi.1 src _ (hread w w' b hr)

include hnew hdistinct

/-! ## Making a container -/

/-- The root is prepared before there is a record. -/
theorem prepareSnapshot_safe {client : Client} {parent : String} :
    Safe (rootsProto (κ := κ) job) i (Laid job id) (Fresh job id)
      (call (prepareSnapshot client defaultSnapshotter (snapshotKeyFor id) parent)) := by
  refine .atomic (fun r => (stable_about hdistinct).replied (stable_about hdistinct) r) ?_
  rintro w ⟨⟩ hi hfresh -
  rcases prepareSnapshot_cases client w defaultSnapshotter (snapshotKeyFor id) parent with
    ⟨base, -, -, -, -, hr⟩ | ⟨code, -, hr⟩
  · rw [after_ok hr, result_ok hr]
    have hs : Sparing (fun id' => Left job id' ∧ id' ≠ id) w
        { w.noted client (.prepare defaultSnapshotter (snapshotKeyFor id) parent) none with
          snapshots := w.snapshots.insert (rootOf id)
            { kind := .active, parent := parent, labels := ∅, content := base.content } } :=
      .of_snapshots rfl fun id' h => AList.lookup_insert_ne fun e =>
        h.2 (snapshotKeyFor_injective (Prod.mk.inj e).2)
    refine ⟨(), own_inv hi hfresh rfl hs, hs.mono fun id' h => ⟨h.1, fun e => ?_⟩,
      fun hleft => ⟨hfresh hleft, ?_⟩⟩
    · subst e
      exact h.2 hnew
    · exact ⟨_, AList.lookup_insert _, rfl⟩
  · rw [after_ok hr, result_ok hr]
    have hs : Sparing (Left job) w (w.noted client
        (.prepare defaultSnapshotter (snapshotKeyFor id) parent) (some code)) :=
      .of_sameStore (.noted client w _ _)
    exact ⟨(), spared_inv hi hs, hs.mono fun _ h => h.1, spared_about hs hfresh⟩

/-- The root is taken away again while there is no record. -/
theorem removeSnapshot_safe {client : Client} :
    Safe (rootsProto (κ := κ) job) i (fun _ => Fresh job id) (Fresh job id)
      (call (removeSnapshot client defaultSnapshotter (snapshotKeyFor id))) := by
  refine .atomic (fun _ => stable_about hdistinct) ?_
  rintro w ⟨⟩ hi hfresh -
  have hs : Sparing (fun id' => Left job id' ∧ id' ≠ id) w
      (after (removeSnapshot client defaultSnapshotter (snapshotKeyFor id)) w) :=
    .of_within (removeSnapshot_within (fun id' h e =>
      h.2 (snapshotKeyFor_injective (Prod.mk.inj e).2).symm) w)
  have hc : (after (removeSnapshot client defaultSnapshotter (snapshotKeyFor id)) w).containers =
      w.containers := by
    rcases removeSnapshot_cases client w defaultSnapshotter (snapshotKeyFor id) with
      ⟨-, -, -, hr⟩ | ⟨code, -, hr⟩ <;> rw [after_ok hr] <;> rfl
  refine ⟨(), own_inv hi hfresh hc hs, hs.mono fun id' h => ⟨h.1, fun e => ?_⟩, fun hleft => ?_⟩
  · exact h.2 (e ▸ hnew)
  · rw [hc]
    exact hfresh hleft

/-- A record is written over its root. -/
theorem commitRecord_rooted {client : Client} {name : String} {wePrepared : Bool}
    {record : ContainerRecord} (hown : OwnRoot id record) :
    Safe (rootsProto (κ := κ) job) i (Made job id) (Rooted job id)
      (commitRecord client id name (snapshotKeyFor id) wePrepared record) := by
  refine .bind (Q := Replied (Made job id (.ok () : Except Error Unit)) (Rooted job id))
    (.atomic (fun r => (stable_about hdistinct).replied (stable_about hdistinct) r) ?_)
    (fun answer => ?_) fun e _ _ _ h => h.elim
  · rintro w ⟨⟩ hi hrooted -
    rcases createRecord_cases client w id record with ⟨-, -, hr⟩ | ⟨code, hr⟩
    · rw [after_ok hr, result_ok hr]
      have hs : Keeps (Sparing (κ := κ) fun id' => Left job id' ∧ (job i).makes ≠ some id')
          (createRecord client id record) := createRecord_spares (fun h => h.2 hnew) hown
      have hs := hs.ok hr
      refine ⟨(), ⟨fun id' record' hl => ?_, fun id' hleft hrec => ?_⟩, hs, fun hleft hnone => ?_⟩
      · exact (hs.own id' record' hl).elim (hi.1 id' record') fun h => h
      · by_cases he : id' = id
        · subst he
          exact (hrooted hleft).2
        · have hne : (job i).makes ≠ some id' := fun h => he (Option.some.inj (h.symm.trans hnew))
          rw [hs.record id' ⟨hleft, hne⟩] at hrec
          exact hi.2 id' hleft hrec
      · cases (AList.lookup_insert _).symm.trans hnone
    · rw [after_ok hr, result_ok hr]
      have hs : Sparing (Left job) w (w.noted client (.createContainer id record) (some code)) :=
        .of_sameStore (.noted client w _ _)
      exact ⟨(), spared_inv hi hs, hs.mono fun _ h => h.1, spared_about hs hrooted⟩
  · cases answer with
    | ok _ => exact fun _ _ _ h => h
    | error code =>
      dsimp only
      split
      · refine .bind (Q := fun _ => Fresh job id) ?_ (fun _ _ _ _ h => h) fun _ _ _ _ h => h
        exact (removeSnapshot_safe hnew hdistinct).pre fun _ _ _ h => Rooted.fresh h
      · exact fun _ _ _ h => Rooted.fresh h

/-- What a create starts from: no record, and the root it adopts. -/
def Given (job : ι → StoreJob) (id : String) (opts : CreateContainerOpts) : World κ → Unit → Prop :=
  About job id fun record root => record = none ∧
    (opts.fromExistingSnapshot = none ∨ ∃ snap ∈ root, snap.kind = .active)

/-- How a create goes on: it has the root, under the container's own key. -/
def Readied {ε : Type} (job : ι → StoreJob) (id : String) :
    Except ε (ImageMetadata × String × Bool) → World κ → Unit → Prop :=
  Ends (fun r w c => Rooted job id w c ∧ r.2.1 = snapshotKeyFor id) (Fresh job id)

theorem prepareContainer_rooted {client : Client} {name image : String} {opts : CreateContainerOpts}
    (hfrom : opts.fromExistingSnapshot = none ∨
      opts.fromExistingSnapshot = some (snapshotKeyFor id)) :
    Safe (rootsProto (κ := κ) job) i (Readied job id) (Given job id opts)
      (prepareContainer client id name image opts) := by
  have hfresh (w : World κ) (h : Given job id opts w ()) : Fresh job id w () := fun hleft =>
    (h hleft).1
  unfold prepareContainer
  cases validateIdentifier name with
  | error e => exact fun w _ _ h => hfresh w h
  | ok _ =>
    refine .bind (safe_quiet hdistinct (.atomic checkName_spares)) (fun _ => ?_)
      fun _ w _ _ h => hfresh w h
    refine .bind (safe_quiet hdistinct (.atomic fun w => .of_calm (getImage_keeps w)))
      (fun digest => ?_) fun _ w _ _ h => hfresh w h
    refine .bind (safe_quiet hdistinct (getImageMetadata_calm.mono fun _ _ => Sparing.of_calm))
      (fun metadata => ?_) fun _ w _ _ h => hfresh w h
    refine .bind (Q := Ends (fun (r : String × Bool) w c =>
      Rooted job id w c ∧ r.1 = snapshotKeyFor id) (Fresh job id)) ?_ (fun _ _ _ _ h => h)
      fun _ _ _ _ h => h
    unfold prepareRootfs
    split
    · rename_i key hsome
      rw [hsome] at hfrom
      refine fun w _ _ h => ⟨fun hleft => ?_, by simpa using hfrom⟩
      obtain ⟨hrec, hroot⟩ := h hleft
      exact ⟨hrec, hroot.resolve_left (by rw [hsome]; simp)⟩
    · refine .bind ((prepareSnapshot_safe hnew hdistinct).pre fun w _ _ h => hfresh w h)
        (fun answer => ?_) fun _ _ _ _ h => h.elim
      cases answer with
      | ok _ => exact fun _ _ _ h => ⟨h, rfl⟩
      | error code => exact fun _ _ _ h => h

/-- **A create** leaves a record on its root, or no record. -/
theorem createWithId_made {client : Client} {name image : String} {opts : CreateContainerOpts}
    (hfrom : opts.fromExistingSnapshot = none ∨
      opts.fromExistingSnapshot = some (snapshotKeyFor id)) :
    Safe (rootsProto (κ := κ) job) i (Made job id) (Given job id opts)
      (createContainerWithId client id name image opts) := by
  refine .bind (prepareContainer_rooted hnew hdistinct hfrom)
    (fun ⟨metadata, key, wePrepared⟩ => ?_) fun _ _ _ _ h => h
  by_cases hkey : key = snapshotKeyFor id
  · subst hkey
    have hfinish : Safe (rootsProto (κ := κ) job) i (Made job id) (Rooted job id)
        (setupAndCommit client id name image opts metadata (snapshotKeyFor id) wePrepared) := by
      have hsteps : (setup (κ := κ) client id name image opts metadata
          (snapshotKeyFor id)).Steps (Sparing (Left job)) :=
        setup_steps (fun _ _ => Sparing.of_calm)
          (allocBridgeIp_keeps fun _ _ _ => .of_sameStore ⟨rfl, rfl⟩)
      refine .bind (safe_about hdistinct hsteps setup_key) (fun record => ?_)
        fun _ _ _ _ h => Rooted.fresh h.1
      by_cases hown : OwnRoot id record
      · exact (commitRecord_rooted hnew hdistinct hown).pre fun _ _ _ h => h.1
      · refine .unreachable fun _ _ _ h => hown ?_
        obtain ⟨hsnapshotter, hkey⟩ := h.2 record rfl
        rw [OwnRoot, hsnapshotter, hkey]
        rfl
    dsimp only
    split
    · refine .bind (Q := fun _ => Rooted job id)
        ((safe_quiet hdistinct (lock_spares _ true)).pre fun _ _ _ h => h.1) (fun _ => ?_)
        fun _ _ _ _ h => Rooted.fresh h
      exact .ensuring_ok hfinish fun r => unlock_safe hdistinct
    · exact hfinish.pre fun _ _ _ h => h.1
  · exact .unreachable fun _ _ _ h => hkey h.2

theorem createContainer_made {client : Client} {name image : String} {opts : CreateContainerOpts}
    (hfrom : opts.fromExistingSnapshot = none) :
    Safe (rootsProto (κ := κ) job) i (Made job id) (Fresh job id)
      (createContainer client id name image opts) := by
  unfold createContainer
  split
  · exact fun _ _ _ h => h
  · exact (createWithId_made hnew hdistinct (.inl hfrom)).pre fun _ _ _ h hleft =>
      ⟨h hleft, .inl hfrom⟩

/-- A create that adopts the root its caller prepared. -/
theorem adopt_made {client : Client} {name image : String} {opts : CreateContainerOpts}
    (hfrom : opts.fromExistingSnapshot = some (snapshotKeyFor id)) :
    Safe (rootsProto (κ := κ) job) i (Made job id) (Rooted job id)
      (createContainerWithId client id name image opts) :=
  (createWithId_made hnew hdistinct (.inr hfrom)).pre fun _ _ _ h hleft =>
    ⟨(h hleft).1, .inr (h hleft).2⟩

/-- The rollback of a restore or a clone. -/
theorem rollback_made {client : Client} {e : Error} :
    Safe (rootsProto (κ := κ) job) i (Made job id) (Fresh job id)
      (call (removeSnapshot client defaultSnapshotter (snapshotKeyFor id)) >>= fun _ =>
        throw e : Proc κ String) :=
  .bind (removeSnapshot_safe hnew hdistinct) (fun _ _ _ _ h => h) fun _ _ _ _ h => h

theorem restoreContainer_made {client : Client} {snapshotName dstName : String}
    {opts : RestoreContainerOpts} :
    Safe (rootsProto (κ := κ) job) i (Made job id) (Fresh job id)
      (restoreContainer client snapshotName id dstName opts) := by
  unfold restoreContainer
  split
  · exact fun _ _ _ h => h
  refine .bind (safe_quiet hdistinct (.atomic statManagedSnapshot_spares)) (fun image => ?_)
    fun _ _ _ _ h => h
  refine .bind (prepareSnapshot_safe hnew hdistinct) (fun answer => ?_) fun _ _ _ _ h => h.elim
  cases answer with
  | error code => exact fun _ _ _ h => h
  | ok _ =>
    refine .bind (Q := Ends (Made job id) fun _ _ => False)
      (.attempt (adopt_made hnew hdistinct rfl) fun _ _ _ _ h => h)
      (fun r => ?_) fun _ _ _ _ h => h.elim
    cases r with
    | ok _ => exact fun _ _ _ h => h
    | error e => exact rollback_made hnew hdistinct

omit hnew hdistinct in
/-- The base is committed from a root that is not left alone, under a key that is no root. -/
theorem ensureCloneBase_spares {client : Client} {src : String} (hsrc : ¬ Left job src) :
    (ensureCloneBase (κ := κ) client defaultSnapshotter (snapshotKeyFor src)
      (cloneBaseFor src)).Steps (Sparing (Left job)) := by
  have hkey : ∀ id, Left job id → (defaultSnapshotter, snapshotKeyFor src) ≠ rootOf id :=
    fun id hleft => root_ne hsrc hleft _
  have hbase : ∀ id, Left job id → (defaultSnapshotter, cloneBaseFor src) ≠ rootOf id :=
    fun id _ e => snapshotKeyFor_ne_base id src (Prod.mk.inj e).2.symm
  exact ensureCloneBase_steps
    (statSnapshot_keeps fun w r => .of_sameStore (.noted client w _ r))
    (fun w => .of_within (commit_within hbase hkey w))
    fun w => .of_within (prepareSnapshot_within hkey w)

theorem cloneFrom_made {client : Client} {src dstName : String} {srcInfo : ContainerInfo}
    {opts : CloneContainerOpts} {record : ContainerRecord} (hsrc : ¬ Left job src)
    (hrecord : OwnRoot src record) :
    Safe (rootsProto (κ := κ) job) i (Made job id) (Fresh job id)
      (cloneFrom client src id dstName srcInfo opts record) := by
  obtain ⟨hsnapshotter, hkey⟩ := Prod.mk.inj hrecord
  unfold cloneFrom
  rw [hsnapshotter, hkey]
  refine .bind (safe_quiet hdistinct (ensureCloneBase_spares hsrc)) (fun _ => ?_)
    fun _ _ _ _ h => h
  refine .bind (Q := Ends (fun _ => Rooted job id) (Fresh job id)) ?_ (fun _ => ?_)
    fun _ _ _ _ h => h
  · refine .bind (prepareSnapshot_safe hnew hdistinct) (fun answer => ?_) fun _ _ _ _ h => h.elim
    cases answer with
    | ok _ => exact fun _ _ _ h => h
    | error code => exact fun _ _ _ h => h
  · refine .bind (Q := Ends (Made job id) fun _ _ => False)
      (.attempt (Q := Made job id) ?_ fun _ _ _ _ h => h) (fun r => ?_) fun _ _ _ _ h => h.elim
    · unfold createCloneRecord
      cases hopts : cloneOpts srcInfo (snapshotKeyFor id) opts with
      | error e => exact fun _ _ _ h => Rooted.fresh h
      | ok createOpts => exact adopt_made hnew hdistinct (cloneOpts_snapshot hopts)
    · cases r with
      | ok _ => exact fun _ _ _ h => h
      | error e => exact rollback_made hnew hdistinct

theorem cloneContainer_made {client : Client} {src dstName : String} {opts : CloneContainerOpts}
    (hsrc : ¬ Left job src) :
    Safe (rootsProto (κ := κ) job) i (Made job id) (Fresh job id)
      (cloneContainer client src id dstName opts) := by
  refine .bind (safe_quiet hdistinct (.atomic fun w => .of_calm (inspectContainer_keeps w)))
    (fun srcInfo => ?_) fun _ _ _ _ h => h
  refine .bind (safe_quiet hdistinct (stopSource_calm.mono fun _ _ => Sparing.of_calm))
    (fun _ => ?_) fun _ _ _ _ h => h
  refine .ensuring_ok (Q := Made job id) ?_ fun r => ?_
  · refine .bind (readRecord_safe (stable_about hdistinct) (fun _ _ => spared_about)
      fetchContainerRecord_keeps fun w w' record => fetchContainerRecord_ok) (fun record => ?_)
      fun _ _ _ _ h => h.2
    by_cases hown : OwnRoot src record
    · exact (cloneFrom_made hnew hdistinct hsrc hown).pre fun _ _ _ h => h.2
    · exact .unreachable fun _ _ _ h => hown (h.1 record rfl)
  · refine safe_total hdistinct (fun w => .of_calm (restartSource_keeps w)) fun w => ?_
    obtain ⟨w', hr, -⟩ := restartSource_ok client src _ w
    exact ⟨w', hr⟩

omit hnew hdistinct in
/-- A snapshot commits a root that is not left alone, under a plain name. -/
theorem commitSteps_spares {client : Client} {src name : String} {opts : SnapshotContainerOpts}
    {record : ContainerRecord} {wasRunning : Bool} (hsrc : ¬ Left job src) (hname : PlainName name)
    (hrecord : OwnRoot src record) :
    (commitSteps (κ := κ) client src name opts record wasRunning).Steps (Sparing (Left job)) := by
  have hkey : ∀ id, Left job id → (record.snapshotter, record.snapshotKey) ≠ rootOf id :=
    fun id hleft e => root_ne hsrc hleft _ (hrecord.symm.trans e)
  have hplain : ∀ id, Left job id → (record.snapshotter, name) ≠ rootOf id :=
    fun id _ e => hname.1 id (Prod.mk.inj e).2
  have hrestart (restart : Bool) :
      (call (restartSource (κ := κ) client src restart)).Steps (Sparing (Left job)) :=
    .atomic fun w => .of_calm (restartSource_keeps w)
  unfold commitSteps
  refine .bind (.atomic fun w => .of_within (commit_within hplain hkey w)) fun committed => ?_
  cases committed with
  | error code => exact .bind (hrestart _) fun _ => trivial
  | ok _ =>
    refine .bind (.atomic fun w => .of_within (prepareSnapshot_within hkey w)) fun prepared => ?_
    cases prepared with
    | error code =>
      exact .bind (.atomic fun w => .of_within (removeSnapshot_within hplain w)) fun _ => trivial
    | ok _ => exact hrestart _

end Agreement

/-! ## All together -/

section Pool

variable {job : ι → StoreJob}

/-- **A call that makes no container** spares whoever is left alone. -/
theorem storeJob_bystander {client : Client} {i : ι} (hproper : (job i).Proper)
    (hmakes : (job i).makes = none) :
    Safe (rootsProto (κ := κ) job) i (fun _ _ _ => True) (fun _ _ => True)
      ((job i).prog client) := by
  have htakes : ∀ src, (job i).takes = some src → ¬ Left job src := fun src h hleft => hleft i h
  cases hi : job i with
  | records r =>
    cases r with
    | create id name image opts => rw [hi] at hmakes; cases hmakes
    | clone src dst dstName opts => rw [hi] at hmakes; cases hmakes
    | restore snapshotName dst dstName opts => rw [hi] at hmakes; cases hmakes
    | delete id timeout =>
      have hid : ¬ Left job id := htakes id (by rw [hi]; rfl)
      exact safe_bystander (deleteContainer_steps (fun _ _ => Sparing.of_calm)
        (deleteRecord_spares hid) (fun snapshotter w => .of_within
          (removeSnapshot_within (fun id' hleft => root_ne hid hleft snapshotter) w)) timeout)
  | snapshot src name opts =>
    have hsrc : ¬ Left job src := htakes src (by rw [hi]; rfl)
    have hname : PlainName name := by rw [hi] at hproper; exact hproper
    refine .bind (readRecord_safe (fun _ _ _ _ _ _ _ _ _ _ => trivial) (fun _ _ _ _ => trivial)
      stopForSnapshot_keeps fun w w' b h => stopForSnapshot_record h) (fun ⟨record, wasRunning⟩ =>
        ?_) fun _ _ _ _ _ => trivial
    by_cases hown : OwnRoot src record
    · exact (safe_bystander (commitSteps_spares hsrc hname hown)).pre fun _ _ _ _ => trivial
    · exact .unreachable fun _ _ _ h => hown (h.1 _ rfl)
  | deleteSnapshot name =>
    have hname : PlainName name := by rw [hi] at hproper; exact hproper
    refine safe_bystander (.bind (.atomic statManagedSnapshot_spares) fun _ => .bind (.atomic
      fun w => .of_within (removeSnapshot_within (fun id _ e => hname.1 id (Prod.mk.inj e).2) w))
      fun answer => ?_)
    cases answer <;> trivial

/-- **A call that makes a container** leaves its record on its root, or no record. -/
theorem storeJob_made {client : Client} {i : ι} {id : String} (hproper : (job i).Proper)
    (hnew : (job i).makes = some id) (hdistinct : ∀ j, j ≠ i → (job j).makes ≠ some id) :
    Safe (rootsProto (κ := κ) job) i (Made job id) (Fresh job id) ((job i).prog client) := by
  have htakes : ∀ src, (job i).takes = some src → ¬ Left job src := fun src h hleft => hleft i h
  have hdone {p : Proc κ String} (hp : Safe (rootsProto (κ := κ) job) i (Made job id)
      (Fresh job id) p) : Safe (rootsProto (κ := κ) job) i (Made job id) (Fresh job id)
        (p >>= fun _ => pure ()) := .bind hp (fun _ _ _ _ h => h) fun _ _ _ _ h => h
  cases hi : job i with
  | records r =>
    cases r with
    | create id' name image opts =>
      have hid : id' = id := by rw [hi] at hnew; exact Option.some.inj hnew
      subst hid
      rw [hi] at hproper
      exact hdone (createContainer_made hnew hdistinct hproper)
    | clone src dst dstName opts =>
      have hid : dst = id := by rw [hi] at hnew; exact Option.some.inj hnew
      subst hid
      exact hdone (cloneContainer_made hnew hdistinct (htakes src (by rw [hi]; rfl)))
    | restore snapshotName dst dstName opts =>
      have hid : dst = id := by rw [hi] at hnew; exact Option.some.inj hnew
      subst hid
      exact hdone (restoreContainer_made hnew hdistinct)
    | delete id' timeout => rw [hi] at hnew; cases hnew
  | snapshot src name opts => rw [hi] at hnew; cases hnew
  | deleteSnapshot name => rw [hi] at hnew; cases hnew

end Pool

/-- What is there before the calls: records name their own roots, containers that are left alone
have them, and ids are generated for the new containers, each its own. -/
structure StoreStart (job : ι → StoreJob) (w : World κ) : Prop where
  own : ∀ id record, w.containers.lookup id = some record → OwnRoot id record
  roots : ∀ id, Left job id → w.containers.lookup id ≠ none →
    Active w defaultSnapshotter (snapshotKeyFor id)
  fresh : ∀ i id, (job i).makes = some id → w.containers.lookup id = none
  distinct : ∀ i j id, (job i).makes = some id → (job j).makes = some id → i = j

theorem storePool_agrees (client : ι → Client) {job : ι → StoreJob}
    (hproper : ∀ i, (job i).Proper) {w : World κ} (h : StoreStart job w) :
    (storePool client job w).Agrees (rootsProto job)
      (fun i r w c => ∀ id, (job i).makes = some id → Made job id r w c) () := by
  refine ⟨⟨h.own, h.roots⟩, fun i => ?_⟩
  cases hmakes : (job i).makes with
  | none =>
    refine ⟨fun _ _ => True, fun _ _ _ _ _ _ _ _ _ _ => trivial, trivial, ?_⟩
    refine (storeJob_bystander (hproper i) hmakes).post fun _ _ _ _ _ id hid => ?_
    cases hmakes.symm.trans hid
  | some id =>
    have hdistinct : ∀ j, j ≠ i → (job j).makes ≠ some id := fun j hj hid =>
      hj (h.distinct j i id hid hmakes)
    refine ⟨Fresh job id, stable_about hdistinct, fun _ => h.fresh i id hmakes, ?_⟩
    refine (storeJob_made (hproper i) hmakes hdistinct).post fun _ _ _ _ hmade id' hid => ?_
    cases hmakes.symm.trans hid
    exact hmade

/-- **Records and roots** in every interleaving, whatever fails: of the containers that are left
alone, those that were there keep their record and their root snapshot as they are, a new one has
its record once its call has returned and none if that failed, and every record has its root. -/
theorem records_backed [DecidableEq ι] (client : ι → Client) (job : ι → StoreJob)
    (hproper : ∀ i, (job i).Proper) (w : World κ) (h : StoreStart job w) (sched : List ι)
    (p : Pool ι (World κ) Error Unit) (hr : run Pool.step (storePool client job w) sched = some p)
    (id : String) (hleft : Left job id) :
    (∀ record, p.state.containers.lookup id = some record →
      Active p.state record.snapshotter record.snapshotKey) ∧
    (∀ i, (job i).makes = some id →
      ((p.progs i).result? = some (.ok ()) → (p.state.containers.lookup id).isSome) ∧
      ∀ e, (p.progs i).result? = some (.error e) → p.state.containers.lookup id = none) ∧
    ((∀ i, (job i).makes ≠ some id) →
      p.state.containers.lookup id = w.containers.lookup id ∧
      p.state.snapshots.lookup (rootOf id) = w.snapshots.lookup (rootOf id)) := by
  obtain ⟨⟨c, hagrees⟩, hs⟩ : (∃ c, p.Agrees (rootsProto job)
      (fun i r w c => ∀ id, (job i).makes = some id → Made job id r w c) c) ∧
      Sparing (fun id => Left job id ∧ ∀ i, (job i).makes ≠ some id) w p.state := by
    refine run_inv (I := fun p : Pool ι (World κ) Error Unit => (∃ c, p.Agrees (rootsProto job)
        (fun i r w c => ∀ id, (job i).makes = some id → Made job id r w c) c) ∧
        Sparing (fun id => Left job id ∧ ∀ i, (job i).makes ≠ some id) w p.state) ?_
      ⟨⟨(), storePool_agrees client hproper h⟩, Std.Refl.refl _⟩
      (along_of_forall (p := fun _ => True) fun _ _ => trivial) hr
    rintro p i p' ⟨⟨c, hagrees⟩, hs⟩ - hstep
    obtain ⟨c', hagrees', hguar⟩ := hagrees.step hstep trivial
    have hspared : Sparing (fun id => Left job id ∧ (job i).makes ≠ some id) p.state p'.state :=
      hguar
    exact ⟨⟨c', hagrees'⟩, IsTrans.trans _ _ _ hs (hspared.mono fun _ h => ⟨h.1, h.2 i⟩)⟩
  refine ⟨fun record hl => ?_, fun i hmakes => ⟨fun hres => ?_, fun e hres => ?_⟩, fun hnew => ?_⟩
  · obtain ⟨hsnapshotter, hkey⟩ := Prod.mk.inj (hagrees.1.1 id record hl)
    rw [hsnapshotter, hkey]
    exact hagrees.1.2 id hleft (by rw [hl]; simp)
  · exact Option.isSome_iff_ne_none.mpr (hagrees.returned hres id hmakes hleft)
  · exact hagrees.returned hres id hmakes hleft
  · exact ⟨hs.record id ⟨hleft, hnew⟩, hs.root id ⟨hleft, hnew⟩⟩

/-! ## A clone, a create and a deletion -/

/-- The source of a clone, and the image of a create. -/
def sideWorld : World Unit :=
  { Clones.imageWorld with
    snapshots := Clones.imageWorld.snapshots.insert (defaultSnapshotter, "chain")
      { kind := .committed, parent := "", labels := ∅, content := () } }

/-- The source is cloned and deleted while another container is created. -/
def sideJobs : Fin 3 → StoreJob
  | 0 => .records (.clone "web" "c2" "copy" {})
  | 1 => .records (.create "c3" "api" "mongo" { network := .host })
  | 2 => .records (.delete "web" 1000)

/-- The record of the create is refused. -/
def sideClient (_ : Fin 3) : Client where
  fault n := if n = 36 then some .unavailable else none

def sideTurns : List (Fin 3) :=
  (List.replicate 10 [0, 1, 2]).flatten ++ [0, 1, 0, 1, 0, 1] ++ List.replicate 13 0

theorem sideJobs_makes (i : Fin 3) :
    (sideJobs i).makes = (match i with | 0 => some "c2" | 1 => some "c3" | 2 => none) := by
  match i with
  | 0 | 1 | 2 => rfl

theorem sideWorld_start : StoreStart sideJobs sideWorld where
  own id record hl := by
    by_cases hid : id = "web"
    · subst hid
      cases (AList.lookup_insert _).symm.trans hl
      rfl
    · cases (AList.lookup_insert_ne hid).symm.trans hl
  roots id hleft hl := by
    have hid : id ≠ "web" := fun h => hleft 2 (h ▸ rfl)
    exact absurd (AList.lookup_insert_ne hid) hl
  fresh i id hid := by
    rw [sideJobs_makes] at hid
    match i with
    | 0 | 1 => cases hid; decide +kernel
    | 2 => cases hid
  distinct i j id hi hj := by
    rw [sideJobs_makes] at hi hj
    match i, j with
    | 0, 0 | 1, 1 => rfl
    | 0, 1 | 1, 0 => exact absurd (hi.trans hj.symm) (by decide)
    | 2, _ => cases hi
    | 0, 2 | 1, 2 => cases hj

theorem side_by_side_backed : ∃ p,
    run Pool.step (storePool sideClient sideJobs sideWorld) sideTurns = some p ∧
    (p.state.containers.lookup "c2").isSome ∧ p.state.containers.lookup "c3" = none ∧
    p.state.containers.lookup "web" = none := by
  obtain ⟨p, hr, h0, h1, hweb⟩ := run_eval Pool.step
    (storePool sideClient sideJobs sideWorld) sideTurns
    (fun p => (p.progs 0).result? = some (.ok ()) ∧
      (p.progs 1).result? = some (.error (.containerd "create_container" .unavailable)) ∧
      p.state.containers.lookup "web" = none) (by decide +kernel)
  have hproper (i : Fin 3) : (sideJobs i).Proper := by
    match i with
    | 0 | 2 => trivial
    | 1 => rfl
  have hleft (id : String) (hid : id ≠ "web") : Left sideJobs id := fun i h => by
    match i with
    | 0 | 2 => exact hid (Option.some.inj h).symm
    | 1 => cases h
  have hbacked :=
    records_backed sideClient sideJobs hproper sideWorld sideWorld_start sideTurns p hr
  exact ⟨p, hr, ((hbacked "c2" (hleft _ (by decide))).2.1 0 rfl).1 h0,
    ((hbacked "c3" (hleft _ (by decide))).2.1 1 rfl).2 _ h1, hweb⟩

end ContainerdManager.System
