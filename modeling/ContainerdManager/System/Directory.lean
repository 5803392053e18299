import ContainerdManager.Lib.Refine
import ContainerdManager.Rootfs.Refinement
import ContainerdManager.System.Leaks
import ContainerdManager.System.Names
import ContainerdManager.Task.Filters

/-!
# Names over a run

What `resolve_name` returns after any run of calls, one after the other, any
of whose requests may fail. A `Directory` is what is left of the records
once only their names matter; an act may enter a container under a free
name, or take one out, and does nothing else to it (`apply_changes`). So a
name leads to the container created under it until that container is
deleted. Names are compared by label: a name a container was created under is
valid, and a lookup by another text is answered by its filter (`Task.Filters`).
-/

namespace ContainerdManager.System

open Lib Containerd Container Snapshot Clone Rootfs ContainerdManager.Task

variable {κ : Type}

/-! ## Directories -/

/-- The name label of every container; the inner `none` is a container without one. -/
abbrev Directory := String → Option (Option String)

inductive Entry where
  | enter (id name : String)
  | leave (id : String)
  /-- Neither. -/
  | pass
  deriving DecidableEq

namespace Directory

def Has (d : Directory) (id name : String) : Prop := d id = some (some name)

/-- No two containers have one name. -/
def Unique (d : Directory) : Prop := ∀ id id' name, d.Has id name → d.Has id' name → id = id'

/-- What an entry may do, whatever fails. -/
inductive Changes : Entry → Directory → Directory → Prop where
  | stays (e : Entry) (d : Directory) : Changes e d d
  | enters {d : Directory} {id name : String} : d id = none → (∀ other, ¬ d.Has other name) →
      Changes (.enter id name) d (Function.update d id (some (some name)))
  | leaves (d : Directory) (id : String) : Changes (.leave id) d (Function.update d id none)

variable {d d' : Directory} {e : Entry} {id name : String}

theorem has_update {r : Option (Option String)} {id' : String} :
    Has (Function.update d id r) id' name ↔
      id' = id ∧ r = some (some name) ∨ id' ≠ id ∧ d.Has id' name := by
  unfold Has
  by_cases h : id' = id
  · subst h
    simp
  · simp [h]

theorem Changes.unique (h : Changes e d d') (hd : d.Unique) : d'.Unique := by
  cases h with
  | stays => exact hd
  | @enters _ id name hid hname =>
    intro i j n hi hj
    rcases has_update.mp hi with ⟨rfl, hn⟩ | ⟨-, hold⟩
    · cases hn
      rcases has_update.mp hj with ⟨rfl, -⟩ | ⟨-, hold'⟩
      · rfl
      · exact absurd hold' (hname j)
    · rcases has_update.mp hj with ⟨-, hn⟩ | ⟨-, hold'⟩
      · cases hn
        exact absurd hold (hname i)
      · exact hd i j n hold hold'
  | leaves _ id =>
    intro i j n hi hj
    rcases has_update.mp hi with ⟨-, hn⟩ | ⟨-, hold⟩
    · cases hn
    · rcases has_update.mp hj with ⟨-, hn⟩ | ⟨-, hold'⟩
      · cases hn
      · exact hd i j n hold hold'

/-- A container keeps its name until it leaves. -/
theorem Changes.has (h : Changes e d d') (hd : d.Has id name) (he : e ≠ .leave id) :
    d'.Has id name := by
  cases h with
  | stays => exact hd
  | enters hid _ =>
    refine has_update.mpr (.inr ⟨?_, hd⟩)
    rintro rfl
    rw [Has, hid] at hd
    cases hd
  | leaves _ id' => exact has_update.mpr (.inr ⟨fun h => he (h ▸ rfl), hd⟩)

/-- A name is free until it is entered. -/
theorem Changes.free (h : Changes e d d') (hd : ∀ other, ¬ d.Has other name)
    (he : ∀ id, e ≠ .enter id name) (other : String) : ¬ d'.Has other name := by
  cases h with
  | stays => exact hd other
  | @enters _ id n _ _ =>
    intro hh
    rcases has_update.mp hh with ⟨-, hn⟩ | ⟨-, hh⟩
    · cases hn
      exact he id rfl
    · exact hd other hh
  | leaves _ id =>
    intro hh
    rcases has_update.mp hh with ⟨-, hn⟩ | ⟨-, hh⟩
    · cases hn
    · exact hd other hh

/-- Leaving twice is leaving. -/
theorem Changes.leave_trans {d'' : Directory} (h : Changes (.leave id) d d')
    (h' : Changes (.leave id) d' d'') : Changes (.leave id) d d'' := by
  cases h with
  | stays => exact h'
  | leaves =>
    cases h' with
    | stays => exact .leaves d id
    | leaves => rw [Function.update_idem]; exact .leaves d id

end Directory

open Directory

/-! ## The directory of a store -/

def directory (w : World κ) : Directory := fun id =>
  (w.containers.lookup id).map fun record => record.labels.lookup nameLabel

theorem has_directory {w : World κ} {id name : String} :
    (directory w).Has id name ↔
      ∃ record, w.containers.lookup id = some record ∧
        record.labels.lookup nameLabel = some name := by
  unfold Has directory
  rw [Option.map_eq_some_iff]

theorem has_iff_mem {w : World κ} {id name : String} :
    (directory w).Has id name ↔ id ∈ namedContainers name w :=
  has_directory.trans mem_namedContainers.symm

theorem unique_directory {w : World κ} : (directory w).Unique ↔ UniqueNames w := by
  constructor
  · intro h id record id' record' name hid hid' hname hname'
    exact h id id' name (has_directory.mpr ⟨record, hid, hname⟩)
      (has_directory.mpr ⟨record', hid', hname'⟩)
  · intro h id id' name hid hid'
    obtain ⟨record, hl, hname⟩ := has_directory.mp hid
    obtain ⟨record', hl', hname'⟩ := has_directory.mp hid'
    exact h id record id' record' name hl hl' hname hname'

theorem directory_congr {w w' : World κ}
    (h : ∀ id, w'.containers.lookup id = w.containers.lookup id) : directory w' = directory w := by
  funext id
  rw [directory, directory, h]

theorem directory_of_containers {w w' : World κ} (h : w'.containers = w.containers) :
    directory w' = directory w := directory_congr fun _ => by rw [h]

/-- What the names of the records go through. -/
def Renames (e : Entry) (w w' : World κ) : Prop := Changes e (directory w) (directory w')

theorem Renames.of_containers {e : Entry} {w w' : World κ} (h : w'.containers = w.containers) :
    Renames e w w' := by
  rw [Renames, directory_of_containers h]
  exact .stays e _

theorem Renames.of_within {locs : SnapshotKey → Prop} {e : Entry} {w w' : World κ}
    (h : Within (fun _ => False) locs w w') : Renames e w w' := by
  rw [Renames, directory_congr fun id => h.records id not_false]
  exact .stays e _

/-! ## New containers -/

/-- A container entered under a name that was free. -/
structure Entered (id name : String) (w w' : World κ) : Prop where
  fresh : w.containers.lookup id = none
  free : namedContainers name w = []
  named : ∃ record, record.labels.lookup nameLabel = some name ∧
    w'.containers = w.containers.insert id record

/-- The operation fails and leaves the records alone, or enters the container. -/
def Enters (id name : String) (m : Op κ String) (w : World κ) : Prop :=
  (∃ e w', m w = .error e w' ∧ w'.containers = w.containers) ∨
    ∃ w', m w = .ok id w' ∧ Entered id name w w'

theorem Entered.directory_eq {id name : String} {w w' : World κ} (h : Entered id name w w') :
    directory w' = Function.update (directory w) id (some (some name)) := by
  obtain ⟨record, hname, hconts⟩ := h.named
  funext i
  by_cases hi : i = id
  · subst hi
    rw [Function.update_self, directory, hconts, AList.lookup_insert, Option.map_some, hname]
  · rw [Function.update_of_ne hi, directory, hconts, AList.lookup_insert_ne hi]
    rfl

theorem Entered.renames {id name : String} {w w' : World κ} (h : Entered id name w w') :
    Renames (.enter id name) w w' := by
  rw [Renames, h.directory_eq]
  refine .enters (by rw [directory, h.fresh]; rfl) fun other hh => ?_
  rw [has_iff_mem, h.free] at hh
  cases hh

theorem Enters.renames {id name : String} {m : Op κ String} {w : World κ}
    (h : Enters id name m w) : Renames (.enter id name) w (after m w) := by
  rcases h with ⟨e, w', hr, hc⟩ | ⟨w', hr, he⟩
  · rw [after_error hr]
    exact .of_containers hc
  · rw [after_ok hr]
    exact he.renames

theorem Entered.of_containers {id name : String} {w w₁ w' : World κ} (h : Entered id name w₁ w')
    (hc : w₁.containers = w.containers) : Entered id name w w' where
  fresh := hc ▸ h.fresh
  free := by
    have := h.free
    unfold namedContainers at this ⊢
    rwa [← hc]
  named := hc ▸ h.named

/-- A create that returns looked for its name and found no container. -/
theorem prepareContainer_free {client : Client} {id name image : String}
    {opts : CreateContainerOpts} {r : ImageMetadata × String × Bool} {w w' : World κ}
    (h : (prepareContainer client id name image opts).run w = .ok r w') :
    namedContainers name w = [] := by
  unfold prepareContainer at h
  cases hval : validateIdentifier name with
  | error e =>
    rw [hval] at h
    cases h
  | ok =>
    rw [hval] at h
    simp only [call, Prog.run_bind, Prog.run_atomic] at h
    obtain ⟨_, w₁, hname, -⟩ := bind_eq_ok h
    rcases checkName_cases client w name with ⟨-, hnone, -⟩ | ⟨e, r, hr⟩
    · exact hnone
    · cases hname.symm.trans hr

/-- **What a create does to the names**, on a root snapshot of its own or on one it was given. -/
theorem createWithId_enters (client : Client) (id name image : String) (opts : CreateContainerOpts)
    (w : World κ) :
    Enters id name (createContainerWithId client id name image opts).run w := by
  cases hr : (createContainerWithId client id name image opts).run w with
  | ok r w' =>
    obtain ⟨rfl, metadata, bridge, hcreated⟩ := createContainerWithId_ok hr
    refine .inr ⟨w', hr, hcreated.fresh, ?_, _, lookup_name _ _ _ _ _ _, hcreated.containers⟩
    simp only [createContainerWithId, Prog.run_bind] at hr
    obtain ⟨prepared, w₁, hprep, -⟩ := bind_eq_ok hr
    exact prepareContainer_free hprep
  | error e w' =>
    refine .inl ⟨e, w', hr, ?_⟩
    cases hfrom : opts.fromExistingSnapshot with
    | some key => exact (createContainerWithId_error hfrom hr).containers
    | none =>
      rcases createWithId_prepares client id name image hfrom w with
        ⟨e', w'', hr', hc⟩ | ⟨w'', _, _, hr', -⟩
      · cases hr.symm.trans hr'
        exact hc
      · cases hr.symm.trans hr'

theorem createContainer_enters (client : Client) (id name image : String)
    (opts : CreateContainerOpts) (w : World κ) :
    Enters id name (createContainer client id name image opts).run w := by
  unfold createContainer
  split
  · exact .inl ⟨_, w, rfl, rfl⟩
  · exact createWithId_enters client id name image opts w

theorem restoreContainer_enters (client : Client) (snapshotName dst dstName : String)
    (opts : RestoreContainerOpts) (w : World κ) :
    Enters dst dstName (restoreContainer client snapshotName dst dstName opts).run w := by
  rcases restoreContainer_cases client snapshotName dst dstName opts w with
    ⟨e, w₁, hr, hs⟩ | ⟨image, w₁, hroot, -, hok, herror⟩
  · exact .inl ⟨e, w₁, hr, hs.containers⟩
  · have hc : w₁.containers = w.containers := hroot.inputs.containers
    rcases createWithId_enters client dst dstName image (restoreOpts opts (snapshotKeyFor dst)) w₁
      with ⟨e, w₂, hcreate, hc₂⟩ | ⟨w₂, hcreate, he⟩
    · obtain ⟨answer, w₃, hremove, hr⟩ := herror e w₂ hcreate
      have hc₃ : w₃.containers = w₂.containers := (snapshotRequest_inputs.ok hremove).containers
      exact .inl ⟨e, w₃, hr, hc₃.trans (hc₂.trans hc)⟩
    · exact .inr ⟨w₂, hok dst w₂ hcreate, he.of_containers hc⟩

theorem recordClone_enters (client : Client) (snapshotter dst dstName : String)
    (srcInfo : ContainerInfo) (opts : CloneContainerOpts) (w : World κ) :
    Enters dst dstName (recordClone client snapshotter dst dstName srcInfo opts).run w := by
  have hcreate : Enters dst dstName
      (createCloneRecord client dst dstName srcInfo (snapshotKeyFor dst) opts).run w := by
    unfold createCloneRecord
    split
    · exact .inl ⟨_, w, rfl, rfl⟩
    · exact createWithId_enters client dst dstName srcInfo.image _ w
  simp only [recordClone, Prog.run_bind, Prog.run_attempt]
  rcases hcreate with ⟨e, w₁, hr, hc⟩ | ⟨w₁, hr, he⟩
  · rw [Enters, bind_ok (attempt_error hr)]
    simp only [call, Prog.run_bind, Prog.run_atomic]
    rcases removeSnapshot_cases client w₁ snapshotter (snapshotKeyFor dst) with
      ⟨-, -, -, hrem⟩ | ⟨code, -, hrem⟩
    · exact .inl ⟨e, _, bind_ok hrem, hc⟩
    · exact .inl ⟨e, _, bind_ok hrem, hc⟩
  · exact .inr ⟨w₁, bind_ok (attempt_ok hr), he⟩

theorem Enters.bind_keeps {α : Type} {id name : String} {m : Op κ α} {f : α → Op κ String}
    {w : World κ} (hm : Keeps (fun w w' : World κ => w'.containers = w.containers) m)
    (hf : ∀ a w₁, m w = .ok a w₁ → Enters id name (f a) w₁) : Enters id name (m >>= f) w := by
  cases hr : m w with
  | error e w₁ => exact .inl ⟨e, w₁, bind_error hr, hm.error hr⟩
  | ok a w₁ =>
    have hc : w₁.containers = w.containers := hm.ok hr
    rw [Enters, bind_ok hr]
    rcases hf a w₁ hr with ⟨e, w₂, hr₂, hc₂⟩ | ⟨w₂, hr₂, he⟩
    · exact .inl ⟨e, w₂, hr₂, hc₂.trans hc⟩
    · exact .inr ⟨w₂, hr₂, he.of_containers hc⟩

/-- Only records matter to the names. -/
def SameRecords (w w' : World κ) : Prop := w'.containers = w.containers

instance : Std.Refl (SameRecords (κ := κ)) := ⟨fun _ => rfl⟩

instance : IsTrans (World κ) SameRecords := ⟨fun _ _ _ h h' => Eq.trans h' h⟩

theorem snapshotRequest_records {client : Client} {call : Call}
    {answer : Snapshots κ → Except Code (Snapshots κ)} :
    Keeps SameRecords (snapshotRequest client call answer) := fun w =>
  (snapshotRequest_inputs w).containers

theorem cloneFrom_enters (client : Client) (src dst dstName : String) (srcInfo : ContainerInfo)
    (opts : CloneContainerOpts) (record : ContainerRecord) (w : World κ) :
    Enters dst dstName (cloneFrom client src dst dstName srcInfo opts record).run w := by
  simp only [cloneFrom, Prog.run_bind]
  have hbase : (ensureCloneBase (κ := κ) client record.snapshotter record.snapshotKey
      (cloneBaseFor src)).Steps SameRecords :=
    ensureCloneBase_steps (statSnapshot_keeps fun _ _ => rfl) snapshotRequest_records
      snapshotRequest_records
  have hprep : (prepareCloneSnapshot (κ := κ) client record.snapshotter (snapshotKeyFor dst)
      (cloneBaseFor src) dstName).Steps SameRecords :=
    prepareCloneSnapshot_steps snapshotRequest_records
  refine .bind_keeps hbase.keeps fun _ w₁ _ => .bind_keeps hprep.keeps fun _ w₂ _ => ?_
  exact recordClone_enters client record.snapshotter dst dstName srcInfo opts w₂

theorem cloneContainer_enters (client : Client) (src dst dstName : String)
    (opts : CloneContainerOpts) (w : World κ) :
    Enters dst dstName (cloneContainer client src dst dstName opts).run w := by
  rcases cloneContainer_run client src dst dstName opts w with
    ⟨-, e, w₁, hr, hs⟩ | ⟨srcInfo, record, w₁, hfetch, hok, herror⟩
  · exact .inl ⟨e, w₁, hr, hs.containers⟩
  · have hc : w₁.containers = w.containers := (stopAndFetch_calm.keeps.ok hfetch).containers
    rcases cloneFrom_enters client src dst dstName srcInfo opts record w₁ with
      ⟨e, w₂, hr, hc₂⟩ | ⟨w₂, hr, he⟩
    · obtain ⟨w₃, hr₃, hs⟩ := herror e w₂ hr
      exact .inl ⟨e, w₃, hr₃, hs.containers.trans (hc₂.trans hc)⟩
    · obtain ⟨w₃, hr₃, hs⟩ := hok dst w₂ hr
      refine .inr ⟨w₃, hr₃, (he.of_containers hc).fresh, (he.of_containers hc).free, ?_⟩
      rw [hs.containers]
      exact (he.of_containers hc).named

/-! ## Every act is an entry -/

def Act.entry : Act κ → Entry
  | .create _ id name _ _ => .enter id name
  | .clone _ _ dst dstName _ | .restore _ _ dst dstName _ => .enter dst dstName
  | .delete _ id _ => .leave id
  | _ => .pass

instance (id : String) : Std.Refl (Renames (κ := κ) (.leave id)) :=
  ⟨fun _ => .of_containers rfl⟩

instance (id : String) : IsTrans (World κ) (Renames (.leave id)) :=
  ⟨fun _ _ _ h h' => Changes.leave_trans h h'⟩

theorem deleteRecord_renames {client : Client} {id : String} :
    Keeps (Renames (κ := κ) (.leave id)) (deleteRecord client id) := by
  intro w
  rcases deleteRecord_cases client id w with ⟨_, -, hr⟩ | ⟨code, -, hr⟩
  · rw [after_ok hr]
    have hd : directory { w.noted client (.deleteContainer id) none with
        containers := w.containers.erase id } = Function.update (directory w) id none := by
      funext i
      by_cases hi : i = id
      · subst hi
        simp [directory]
      · rw [Function.update_of_ne hi, directory, directory, AList.lookup_erase_ne hi]
    rw [Renames, hd]
    exact .leaves _ id
  · rw [after_ok hr]
    exact .of_containers rfl

theorem deleteContainer_renames (client : Client) (id : String) (timeout : Nat) (w : World κ) :
    Renames (.leave id) w (after (deleteContainer client id timeout).run w) := by
  have hsteps : (deleteContainer client id timeout).Steps (Renames (κ := κ) (.leave id)) :=
    deleteContainer_steps (fun _ _ h => .of_containers h.containers) deleteRecord_renames
      (fun _ w => .of_containers (snapshotRequest_records w)) timeout
  exact hsteps.keeps w

/-- **Every act does to the names what its entry may do**, from any store, whatever its
requests come to. -/
theorem apply_changes (w : World κ) (a : Act κ) : Renames a.entry w (a.apply w) := by
  cases a with
  | create client id name image opts =>
    exact (createContainer_enters client id name image opts w).renames
  | clone client src dst dstName opts =>
    exact (cloneContainer_enters client src dst dstName opts w).renames
  | restore client name dst dstName opts =>
    exact (restoreContainer_enters client name dst dstName opts w).renames
  | delete client id timeout => exact deleteContainer_renames client id timeout w
  | snapshot client src name opts =>
    have h : Within (fun _ => False) (fun _ => True) w
        (after (snapshotContainer client src name opts) w) :=
      snapshotContainer_frame (fun _ _ => .of_calm) fun record wasRunning w₁ _ _ =>
        commitSnapshot_keeps trivial trivial w₁
    exact .of_within h
  | reset client id name opts =>
    have h : Within (fun _ => False) (fun _ => True) w
        (after (resetToSnapshot client id name opts) w) :=
      resetToSnapshot_locs client name opts fun _ _ => trivial
    exact .of_within h
  | start client id => exact .of_containers (startContainer_keeps w).containers
  | stop client id timeout => exact .of_containers (stopContainer_keeps w).containers
  | deleteSnapshot client name => exact .of_within (deleteSnapshot_within client name w)
  | write id f =>
    refine .of_containers ?_
    show (writeLayer id f w).containers = w.containers
    unfold writeLayer
    repeat' split
    all_goals rfl

/-! ## Runs -/

theorem run_unique {w w' : World κ} {acts : List (Act κ)} (h : UniqueNames w)
    (hr : run Act.step w acts = some w') : UniqueNames w' := by
  refine run_inv (fun w a w' h _ hs => ?_) h (along_of_forall (p := fun _ => True) fun _ _ =>
    trivial) hr
  cases hs
  exact unique_directory.mp ((apply_changes w a).unique (unique_directory.mpr h))

theorem run_has {w w' : World κ} {acts : List (Act κ)} {id name : String}
    (h : (directory w).Has id name) (hkeep : ∀ a ∈ acts, a.entry ≠ .leave id)
    (hr : run Act.step w acts = some w') : (directory w').Has id name := by
  refine run_inv (I := fun w => (directory w).Has id name)
    (fun w a w' h ha hs => ?_) h (along_of_forall (p := (·.entry ≠ .leave id)) hkeep) hr
  cases hs
  exact (apply_changes w a).has h ha

/-! ## Lookups -/

theorem namedContainers_eq {w : World κ} {id name : String} (h : UniqueNames w)
    (hhas : (directory w).Has id name) : namedContainers name w = [id] := by
  have hlen := (uniqueNames_iff w).mp h name
  have hmem := has_iff_mem.mp hhas
  match hl : namedContainers name w with
  | [] => rw [hl] at hmem; cases hmem
  | [x] => rw [hl] at hmem; rw [List.mem_singleton.mp hmem]
  | _ :: _ :: _ => rw [hl] at hlen; simp at hlen

/-- The answer of a lookup that found the containers `ids`. -/
def resolved (name : String) (ids : List String) : Except Error String :=
  match ids.getLast? with
  | none => .error (.containerNotFound name)
  | some id =>
    match validateIdentifier id with
    | .error e => .error e
    | .ok () => .ok id

theorem result_resolveName (client : Client) (name : String) (w : World κ) :
    result (resolveName client name) w =
      match client.fault w.steps with
      | none => resolved name (namedContainers name w)
      | some code => .error (.containerd "resolve_name" code) := by
  unfold result resolveName
  rw [bind_ok (query_eq client (.listNamed name) _ w)]
  unfold queried
  cases client.fault w.steps with
  | some code => rfl
  | none =>
    have hadv : namedContainers name (w.advance client) = namedContainers name w := rfl
    dsimp only
    rw [hadv, resolved]
    cases (namedContainers name w).getLast? with
    | none => rfl
    | some id =>
      dsimp only
      cases validateIdentifier id with
      | error e => rfl
      | ok _ => rfl

theorem resolved_of_has {w : World κ} {id name : String} (h : UniqueNames w)
    (hhas : (directory w).Has id name) (hid : validateIdentifier id = .ok ()) :
    resolved name (namedContainers name w) = .ok id := by
  rw [namedContainers_eq h hhas, resolved]
  simp only [List.getLast?_singleton, hid]

theorem resolved_of_free {w : World κ} {name : String} (h : ∀ id, ¬ (directory w).Has id name) :
    resolved name (namedContainers name w) = .error (.containerNotFound name) := by
  have hnone : namedContainers name w = [] :=
    List.eq_nil_iff_forall_not_mem.mpr fun id hmem => h id (has_iff_mem.mpr hmem)
  rw [hnone]
  rfl

/-! ## What the answers say -/

/-- A call that returns has entered its container, and one that fails has left the records. -/
theorem Enters.answered {id name : String} {m : Op κ String} {w : World κ}
    (h : Enters id name m w) :
    ((result m w).toOption = some id ∧ Entered id name w (after m w)) ∨
      ((result m w).toOption = none ∧ (after m w).containers = w.containers) := by
  rcases h with ⟨e, w', hr, hc⟩ | ⟨w', hr, he⟩
  · rw [result_error hr, after_error hr]
    exact .inr ⟨rfl, hc⟩
  · rw [result_ok hr, after_ok hr]
    exact .inl ⟨rfl, he⟩

theorem apply_answered {w : World κ} {a : Act κ} {id name : String} (h : a.entry = .enter id name) :
    (a.created w = some id ∧ Entered id name w (a.apply w)) ∨
      (a.created w = none ∧ (a.apply w).containers = w.containers) := by
  cases a with
  | create client id' name' image opts =>
    cases h
    exact (createContainer_enters client id name image opts w).answered
  | clone client src dst dstName opts =>
    cases h
    exact (cloneContainer_enters client src id name opts w).answered
  | restore client snapshotName dst dstName opts =>
    cases h
    exact (restoreContainer_enters client snapshotName id name opts w).answered
  | snapshot | reset | start | stop | delete | deleteSnapshot | write => cases h

/-- `NotFound` was true: a client that never fails a request with that code. -/
def Truthful (client : Client) : Prop := ∀ n, client.fault n ≠ some .notFound

theorem inspectContainer_absent {client : Client} (h : Truthful client) {id id' : String}
    {w w' : World κ} (hr : inspectContainer client id w = .error (.containerNotFound id') w') :
    w.containers.lookup id = none := by
  rcases getContainer_cases client id w with ⟨record, -, -, hget⟩ | ⟨code, hc, hget⟩
  · obtain ⟨info, w₁, hinspect⟩ := inspectContainer_found hget
    cases hinspect.symm.trans hr
  · have hfetch : fetchContainerRecord client id w = _ := bind_ok hget
    unfold inspectContainer at hr
    cases code <;> rw [bind_error hfetch] at hr <;> cases hr
    exact hc.elim (fun hf => absurd hf (h _)) fun hc => hc.2.1

/-- A delete that returns has seen the record gone. -/
theorem recordGone_absent {client : Client} (h : Truthful client) {id timeoutMsg : String}
    {rounds : Nat} {w w' : World κ}
    (hr : (recordGone client id timeoutMsg rounds).run w = .ok () w') :
    w'.containers.lookup id = none := by
  induction rounds generalizing w with
  | zero => cases hr
  | succ rounds ih =>
    simp only [recordGone, call, Prog.run_bind, Prog.run_atomic] at hr
    obtain ⟨late, w₁, -, hr⟩ := bind_eq_ok hr
    cases late with
    | true => cases hr
    | false =>
      simp only [Bool.false_eq_true, if_false, Prog.run_bind, Prog.run_atomic] at hr
      obtain ⟨answer, w₂, hinspect, hr⟩ := bind_eq_ok hr
      cases answer with
      | ok info =>
        simp only [Prog.run_bind] at hr
        obtain ⟨_, w₃, -, hr⟩ := bind_eq_ok hr
        exact ih hr
      | error e =>
        have herror := attempt_eq_error hinspect
        have hs := (inspectContainer_keeps.error herror).toSameStore
        cases e with
        | containerNotFound =>
          cases hr
          rw [hs.containers]
          exact inspectContainer_absent h herror
        | _ => exact ih hr

theorem deleteContainer_absent {client : Client} (h : Truthful client) {id : String}
    {timeout : Nat} {w w' : World κ}
    (hr : (deleteContainer client id timeout).run w = .ok () w') :
    w'.containers.lookup id = none := by
  have hstop (w : World κ) : (call (stopManagedTailer client id)).run w =
      .ok () { w with tailers := w.tailers.erase (nsKey client id) } := rfl
  cases htask : (deleteContainerTask client id timeout).run w with
  | error e w₁ =>
    rw [deleteContainer, Prog.run_ensuring_error htask (hstop w₁)] at hr
    cases hr
  | ok _ w₁ =>
    rw [deleteContainer, Prog.run_ensuring_ok htask (hstop w₁)] at hr
    cases hr
    show w₁.containers.lookup id = none
    simp only [deleteContainerTask, call, Prog.run_bind, Prog.run_atomic, Prog.run_attempt] at htask
    obtain ⟨_, _, -, htask⟩ := bind_eq_ok htask
    obtain ⟨_, _, -, htask⟩ := bind_eq_ok htask
    obtain ⟨_, _, -, htask⟩ := bind_eq_ok htask
    obtain ⟨_, _, -, htask⟩ := bind_eq_ok htask
    exact recordGone_absent h htask

/-- If the act is a delete, it returned, and found the record gone. -/
def Act.Answered (w : World κ) : Act κ → Prop
  | .delete client id timeout =>
    Truthful client ∧ (Act.deleted w (.delete client id timeout)).isSome
  | _ => True

/-- A store, and the names in it as the answers of its callers tell them. -/
structure Told (κ : Type) where
  world : World κ
  names : Directory

/-- The names after an act, by its answer. -/
def Act.tells (w : World κ) (d : Directory) (a : Act κ) : Directory :=
  match a.entry with
  | .enter id name =>
    if (a.created w).isSome then Function.update d id (some (some name)) else d
  | .leave id => Function.update d id none
  | .pass => d

def Told.step (t : Told κ) (a : Act κ) : Option (Told κ) :=
  some { world := a.apply t.world, names := a.tells t.world t.names }

theorem Renames.of_pass {w w' : World κ} (h : Renames .pass w w') : directory w' = directory w := by
  unfold Renames at h
  generalize directory w' = d' at h
  cases h
  rfl

/-- A container that left for good. -/
theorem Renames.of_left {w w' : World κ} {id : String} (h : Renames (.leave id) w w')
    (hgone : w'.containers.lookup id = none) :
    directory w' = Function.update (directory w) id none := by
  have hnone : directory w' id = none := by
    rw [directory, hgone]
    rfl
  unfold Renames at h
  generalize directory w' = d' at h hnone
  cases h with
  | stays => rw [← hnone, Function.update_eq_self]
  | leaves => rfl

/-- **The answer of an act tells what it did to the names.** -/
theorem tells_directory {w : World κ} {a : Act κ} (h : a.Answered w) :
    a.tells w (directory w) = directory (a.apply w) := by
  unfold Act.tells
  cases he : a.entry with
  | enter id name =>
    dsimp only
    rcases apply_answered (w := w) he with ⟨hc, hentered⟩ | ⟨hc, hsame⟩
    · rw [hc, hentered.directory_eq]
      rfl
    · rw [hc, directory_of_containers hsame]
      rfl
  | leave id =>
    cases a with
    | delete client id' timeout =>
      cases he
      obtain ⟨htruthful, hdeleted⟩ := h
      refine ((deleteContainer_renames client id timeout w).of_left ?_).symm
      unfold Act.deleted at hdeleted
      rw [Option.isSome_map] at hdeleted
      obtain ⟨_, hok⟩ := Option.isSome_iff_exists.mp hdeleted
      obtain ⟨w', hr⟩ := ok_of_result hok
      rw [after_ok hr]
      exact deleteContainer_absent htruthful hr
    | create | clone | restore | snapshot | reset | start | stop | deleteSnapshot | write =>
      cases he
  | pass =>
    have hp := apply_changes w a
    rw [he] at hp
    exact hp.of_pass.symm

/-- What is told stays true. -/
theorem told_step (t : Told κ) (a : Act κ) (t' : Told κ)
    (h : t.names = directory t.world ∧ t.names.Unique) (ha : a.Answered t.world)
    (hs : t.step a = some t') : t'.names = directory t'.world ∧ t'.names.Unique := by
  obtain ⟨hnames, hunique⟩ := h
  cases hs
  have htells := tells_directory ha
  rw [← hnames] at htells
  refine ⟨htells, ?_⟩
  show (a.tells t.world t.names).Unique
  rw [htells]
  exact (apply_changes t.world a).unique (hnames ▸ hunique)

/-! ## Main results -/

/-- **A name leads to its container**: once a call has returned with a container under a name, a
lookup finds it after any run that does not delete it, whatever fails in the run, and every call
that would use the name again fails and leaves the records alone. -/
theorem name_resolves (w₀ : World κ) (h₀ : UniqueNames w₀) (before later : List (Act κ))
    {w w₁ : World κ} {a : Act κ} {id name : String} (hbefore : run Act.step w₀ before = some w)
    (ha : a.entry = .enter id name) (hok : a.created w = some id)
    (hlater : run Act.step (a.apply w) later = some w₁)
    (hkeep : ∀ b ∈ later, b.entry ≠ .leave id) (hid : validateIdentifier id = .ok ()) :
    (∀ client, result (resolveName client name) w₁ =
      match client.fault w₁.steps with
      | none => .ok id
      | some code => .error (.containerd "resolve_name" code)) ∧
    ∀ (b : Act κ) (id' : String), b.entry = .enter id' name →
      b.created w₁ = none ∧ (b.apply w₁).containers = w₁.containers := by
  have hentered : Entered id name w (a.apply w) := by
    rcases apply_answered (w := w) ha with ⟨-, h⟩ | ⟨hnone, -⟩
    · exact h
    · rw [hok] at hnone
      cases hnone
  have hunique : UniqueNames w := run_unique h₀ hbefore
  have hunique₁ : UniqueNames w₁ :=
    run_unique (unique_directory.mp ((apply_changes w a).unique (unique_directory.mpr hunique)))
      hlater
  have hhas : (directory w₁).Has id name := by
    refine run_has ?_ hkeep hlater
    rw [hentered.directory_eq]
    exact has_update.mpr (.inl ⟨rfl, rfl⟩)
  refine ⟨fun client => ?_, fun b id' hb => ?_⟩
  · rw [result_resolveName, resolved_of_has hunique₁ hhas hid]
  · rcases apply_answered (w := w₁) hb with ⟨-, h⟩ | h
    · rw [has_iff_mem, h.free] at hhas
      cases hhas
    · exact h

def createWeb : Act Unit := .create {} "c1" "web" "mongo" { network := .host }

/-- A container comes and goes under another name, and a create under the name is refused. -/
def othersCome : List (Act Unit) :=
  [.create {} "c2" "db" "mongo" { network := .host }, .delete {} "c2" 0,
    .create {} "c3" "web" "mongo" { network := .host }]

theorem oneImage_unique : UniqueNames oneImage := by
  intro id record id' record' name h
  cases h

theorem name_resolves_web : ∃ w₁, run Act.step (createWeb.apply oneImage) othersCome = some w₁ ∧
    result (resolveName {} "web") w₁ = .ok "c1" := by
  obtain ⟨w₁, hr, -⟩ := run_eval Act.step (createWeb.apply oneImage) othersCome (fun _ => True)
    (by decide +kernel)
  have hok : createWeb.created oneImage = some "c1" := by decide +kernel
  have hkeep : ∀ b ∈ othersCome, b.entry ≠ .leave "c1" := by decide
  have hid : validateIdentifier "c1" = .ok () := by decide +kernel
  have hentry : createWeb.entry = .enter "c1" "web" := rfl
  have hresolved := (name_resolves oneImage oneImage_unique [] othersCome (run_nil oneImage) hentry
    hok hr hkeep hid).1
  exact ⟨w₁, hr, hresolved {}⟩

/-- **The answers tell the names**: where every delete of a run returned, a lookup by a bare name
after the run comes to what the calls that returned with a container and the deletes say, taken one
after the other. -/
theorem answers_tell_names (w₀ : World κ) (h₀ : UniqueNames w₀) (acts : List (Act κ)) (t : Told κ)
    (hacts : Along Told.step (fun t a => a.Answered t.world)
      { world := w₀, names := directory w₀ } acts)
    (hr : run Told.step { world := w₀, names := directory w₀ } acts = some t)
    (client : Client) (hfault : client.fault t.world.steps = none) {d : Dialect}
    {select : List String → String → ContainerRecord → Bool} (hselect : Follows d select)
    (name : String) (hname : d.BareValue name.toList) :
    (∀ id, t.names.Has id name → validateIdentifier id = .ok () →
      result (resolveNameBy client select name) t.world = .ok id) ∧
    ((∀ id, ¬ t.names.Has id name) →
      result (resolveNameBy client select name) t.world = .error (.containerNotFound name)) := by
  have h : t.names = directory t.world ∧ t.names.Unique :=
    run_inv told_step ⟨rfl, unique_directory.mpr h₀⟩ hacts hr
  obtain ⟨hnames, hunique⟩ := h
  rw [hnames] at hunique ⊢
  rw [resolveNameBy_eq client hname hselect, result_resolveName, hfault]
  exact ⟨fun id hhas hid => resolved_of_has (unique_directory.mp hunique) hhas hid,
    resolved_of_free⟩

/-- The name of a deleted container is used again. -/
def nameReused : List (Act Unit) :=
  [createWeb, .delete {} "c1" 0, .create {} "c2" "web" "mongo" { network := .host }]

theorem answers_tell_web : ∃ t,
    run Told.step { world := oneImage, names := directory oneImage } nameReused = some t ∧
    result (resolveNameBy {} (answers (labelDialect Char.isWhitespace)) "web") t.world =
      .ok "c2" := by
  obtain ⟨t, hr, hhas⟩ := run_eval Told.step { world := oneImage, names := directory oneImage }
    nameReused (fun t => t.names "c2" = some (some "web")) (by decide +kernel)
  have hbare : (labelDialect Char.isWhitespace).BareValue "web".toList :=
    ⟨by decide, by decide, GoString.forall_mem_of_all (by decide)⟩
  refine ⟨t, hr, (answers_tell_names oneImage oneImage_unique nameReused t ?_ hr {} rfl
    (follows_answers _) "web" hbare).1 "c2" hhas (by decide +kernel)⟩
  refine ⟨trivial, fun t₁ h₁ => ⟨⟨fun _ => nofun, ?_⟩, fun t₂ _ => ⟨trivial, fun _ _ => trivial⟩⟩⟩
  cases h₁
  decide +kernel

end ContainerdManager.System
