import ContainerdManager.Container.Setup
import ContainerdManager.System.Jobs

/-!
# Names in a namespace

`create_container_with_id` looks for the name and writes the record some
requests later. Jobs in one namespace, with a log of the requests and who
made them: as long as no record is written under a name that another was
written under since the writer looked, no name is used twice. `Checked` is
what a job knows after it looked: if nothing was written under the name
since, no container has it.
-/

namespace ContainerdManager.System

open Lib Containerd Container ContainerdManager.Task

variable {κ ι α : Type}

/-! ## Logs -/

/-- A namespace and the requests made in it, each with the job that made it. -/
structure Log (ι κ : Type) where
  world : World κ
  log : List (ι × Call × Option Code) := []

/-- A step of job `i`. -/
def Log.put (i : ι) (t : Log ι κ) (w : World κ) : Log ι κ where
  world := w
  log := t.log ++ (w.trace.drop t.world.trace.length).map (Prod.mk i)

theorem put_log {i : ι} {t : Log ι κ} {w : World κ} {new : List (Call × Option Code)}
    (h : w.trace = t.world.trace ++ new) : (t.put i w).log = t.log ++ new.map (Prod.mk i) := by
  simp only [Log.put, h, List.drop_left]

/-- Every job in the one namespace. -/
def namesPool (client : ι → Client) (job : ι → Job) (w : World κ) :
    Pool ι (Log ι κ) Error Unit where
  state := { world := w }
  progs i := ((job i).prog (client i)).zoom Log.world (Log.put i)

/-- The request wrote a record under the name. -/
def writesName (name : String) : Call × Option Code → Bool
  | (.createContainer _ record, none) => record.labels.lookup nameLabel = some name
  | _ => false

/-- Job `i` looked for the name. -/
def looks [DecidableEq ι] (i : ι) (name : String) : ι × Call × Option Code → Bool
  | (j, .listNamed name', _) => j = i && name' = name
  | _ => false

/-- No record was written under the name since job `i` last looked for it. -/
def Log.clear [DecidableEq ι] (i : ι) (name : String) (t : Log ι κ) : Bool :=
  (t.log.reverse.takeWhile fun e => !looks i name e).all fun e => !writesName name e.2

/-- If the step writes a record, none was written under its name since job `i` last
looked for it. -/
def clearStep [DecidableEq ι] (i : ι) (t t' : Log ι κ) : Bool :=
  (t'.log.drop t.log.length).all fun e =>
    match e.2 with
    | (.createContainer _ record, none) => (record.labels.lookup nameLabel).all fun name =>
        t.clear i name
    | _ => true

/-- No two records have the same name. -/
def UniqueNames (w : World κ) : Prop :=
  ∀ id record id' record' name, w.containers.lookup id = some record →
    w.containers.lookup id' = some record' → record.labels.lookup nameLabel = some name →
    record'.labels.lookup nameLabel = some name → id = id'

/-- A record under a name no container has. -/
theorem UniqueNames.insert {w w' : World κ} {id name : String} {record : ContainerRecord}
    (hw : UniqueNames w) (hfree : ∀ id record, w.containers.lookup id = some record →
      record.labels.lookup nameLabel ≠ some name)
        (hname : record.labels.lookup nameLabel = some name)
    (hw' : w'.containers = w.containers.insert id record) : UniqueNames w' := by
  have hold : ∀ {id' record'}, w'.containers.lookup id' = some record' →
      (id' = id ∧ record' = record) ∨ w.containers.lookup id' = some record' := by
    intro id' record' hl
    rw [hw'] at hl
    by_cases h : id' = id
    · subst h
      cases (AList.lookup_insert _).symm.trans hl
      exact .inl ⟨rfl, rfl⟩
    · exact .inr ((AList.lookup_insert_ne h).symm.trans hl)
  have hother : ∀ {name' : String}, record.labels.lookup nameLabel = some name' → name' = name :=
    fun h => Option.some.inj (h.symm.trans hname)
  intro id₁ r₁ id₂ r₂ name' h₁ h₂ hn₁ hn₂
  rcases hold h₁ with ⟨rfl, rfl⟩ | h₁
  · rcases hold h₂ with ⟨rfl, rfl⟩ | h₂
    · rfl
    · exact absurd hn₂ (hother hn₁ ▸ hfree id₂ r₂ h₂)
  · rcases hold h₂ with ⟨rfl, rfl⟩ | h₂
    · exact absurd hn₁ (hother hn₂ ▸ hfree id₁ r₁ h₁)
    · exact hw id₁ r₁ id₂ r₂ name' h₁ h₂ hn₁ hn₂

theorem mem_namedContainers {name id : String} {w : World κ} :
    id ∈ namedContainers name w ↔ ∃ record, w.containers.lookup id = some record ∧
      record.labels.lookup nameLabel = some name := by
  unfold namedContainers
  simp only [List.mem_map, List.mem_filter, decide_eq_true_eq]
  constructor
  · rintro ⟨⟨id, record⟩, ⟨hmem, hname⟩, rfl⟩
    exact ⟨record, AList.mem_lookup_iff.mpr hmem, hname⟩
  · rintro ⟨record, hl, hname⟩
    exact ⟨⟨id, record⟩, ⟨AList.mem_lookup_iff.mp hl, hname⟩, rfl⟩

theorem namedContainers_nodup (name : String) (w : World κ) : (namedContainers name w).Nodup := by
  have hsub : (namedContainers name w).Sublist w.containers.keys := List.filter_sublist.map _
  exact hsub.nodup w.containers.keys_nodup

/-- Names are unique when a lookup by name has at most one match. -/
theorem uniqueNames_iff (w : World κ) :
    UniqueNames w ↔ ∀ name, (namedContainers name w).length ≤ 1 := by
  constructor
  · intro h name
    by_contra hlen
    obtain ⟨id, id', rest, hlist⟩ : ∃ id id' rest, namedContainers name w = id :: id' :: rest := by
      match hl : namedContainers name w with
      | [] => rw [hl] at hlen; simp at hlen
      | [_] => rw [hl] at hlen; simp at hlen
      | id :: id' :: rest => exact ⟨id, id', rest, rfl⟩
    obtain ⟨record, hid, hname⟩ := mem_namedContainers.mp (hlist ▸ List.mem_cons_self)
    obtain ⟨record', hid', hname'⟩ := mem_namedContainers.mp
      (hlist ▸ List.mem_cons_of_mem _ List.mem_cons_self)
    have hnodup := namedContainers_nodup name w
    rw [hlist, List.nodup_cons] at hnodup
    exact hnodup.1 (h id record id' record' name hid hid' hname hname' ▸ List.mem_cons_self)
  · intro h id record id' record' name hid hid' hname hname'
    have hmem := mem_namedContainers.mpr ⟨record, hid, hname⟩
    have hmem' := mem_namedContainers.mpr ⟨record', hid', hname'⟩
    have hlen := h name
    match hl : namedContainers name w with
    | [] => rw [hl] at hmem; cases hmem
    | [x] =>
      rw [hl] at hmem hmem'
      exact (List.mem_singleton.mp hmem).trans (List.mem_singleton.mp hmem').symm
    | _ :: _ :: _ => rw [hl] at hlen; simp at hlen

/-! ## Steps that write no record -/

/-- Neither a look for a name nor a record written. -/
def plain : Call × Option Code → Bool
  | (.listNamed _, _) => false
  | (.createContainer _ _, none) => false
  | _ => true

/-- Only plain requests were made, and no record is new. -/
structure Unwritten (w w' : World κ) : Prop where
  trace : ∃ new, w'.trace = w.trace ++ new ∧ ∀ e ∈ new, plain e = true
  records : ∀ id record, w'.containers.lookup id = some record →
    w.containers.lookup id = some record

theorem Unwritten.of_calm {w w' : World κ} (h : Calm w w') : Unwritten w w' := by
  obtain ⟨new, ht, hcalm⟩ := h.trace
  refine ⟨⟨new, ht, fun e he => ?_⟩, fun id record hl => h.containers ▸ hl⟩
  have hc := hcalm e he
  obtain ⟨call, outcome⟩ := e
  cases call <;> first | rfl | cases hc

theorem Unwritten.noted (client : Client) (w : World κ) {call : Call} {outcome : Option Code}
    (h : plain (call, outcome) = true) : Unwritten w (w.noted client call outcome) :=
  ⟨⟨_, rfl, by simpa using h⟩, fun _ _ hl => hl⟩

theorem Unwritten.lock (w : World κ) (held : Bool) : Unwritten w { w with allocLock := held } :=
  ⟨⟨[], by simp, by simp⟩, fun _ _ hl => hl⟩

theorem snapshotRequest_unwritten {client : Client} (call : Call)
    (answer : Snapshots κ → Except Code (Snapshots κ)) (h : call.ofSnapshots = true) :
    Keeps Unwritten (snapshotRequest client call answer) := by
  have hplain : ∀ outcome, plain (call, outcome) = true := by
    intro outcome
    cases call <;> first | rfl | cases h
  intro w
  rcases snapshotRequest_cases client call answer w with ⟨snaps, -, -, hr⟩ | ⟨code, -, hr⟩
  · rw [after_ok hr]
    have hn := Unwritten.noted client w (hplain none)
    exact ⟨hn.trace, hn.records⟩
  · rw [after_ok hr]
    exact .noted client w (hplain _)

theorem statSnapshot_unwritten {client : Client} (snapshotter key : String) :
    Keeps Unwritten (statSnapshot (κ := κ) client snapshotter key) :=
  statSnapshot_keeps fun w _ => .noted client w rfl

theorem allocBridgeIp_unwritten {client : Client} :
    Keeps Unwritten (allocBridgeIp (κ := κ) client) :=
  allocBridgeIp_keeps fun _ _ _ => ⟨⟨_, rfl, by simp [plain]⟩, fun _ _ hl => hl⟩

theorem deleteRecord_unwritten {client : Client} (id : String) :
    Keeps Unwritten (deleteRecord (κ := κ) client id) := by
  intro w
  rcases deleteRecord_cases client id w with ⟨_, -, hr⟩ | ⟨code, -, hr⟩
  · rw [after_ok hr]
    refine ⟨⟨[(.deleteContainer id, none)], rfl, by simp [plain]⟩, fun id' record hl => ?_⟩
    by_cases h : id' = id
    · subst h
      exact absurd hl (by simp)
    · exact (AList.lookup_erase_ne h).symm.trans hl
  · rw [after_ok hr]
    exact .noted client w rfl

/-! ## The agreement -/

section Agreement

variable [DecidableEq ι] {i : ι} {client : ι → Client}

/-- Job `i` logs what it writes. -/
def Logs (i : ι) (t t' : Log ι κ) : Prop :=
  ∃ new : List (Call × Option Code), t'.log = t.log ++ new.map (Prod.mk i) ∧
    ∀ id record, t'.world.containers.lookup id = some record →
      t.world.containers.lookup id = some record ∨ (.createContainer id record, none) ∈ new

def namesProto : Proto ι (Log ι κ) Unit where
  inv t _ := UniqueNames t.world
  guar i t _ t' _ := Logs i t t'
  allowed i t t' := clearStep i t t' = true

/-- If nothing was written under the name since job `i` looked, no container has it. -/
def Checked (i : ι) (name : String) (t : Log ι κ) (_ : Unit) : Prop :=
  t.clear i name = true → ∀ id record, t.world.containers.lookup id = some record →
    record.labels.lookup nameLabel ≠ some name

/-- Requests of the log that are no look of job `i` for the name. -/
theorem clear_append {name : String} {t t' : Log ι κ} {new : List (ι × Call × Option Code)}
    (hlog : t'.log = t.log ++ new) (hnew : ∀ e ∈ new, looks i name e = false) :
    t'.clear i name = true ↔ (∀ e ∈ new, writesName name e.2 = false) ∧ t.clear i name = true := by
  have hrev : ∀ e ∈ new.reverse, (!looks i name e) = true := fun e he => by
    rw [hnew e (List.mem_reverse.mp he)]
    rfl
  unfold Log.clear
  rw [hlog, List.reverse_append, List.takeWhile_append_of_pos hrev, List.all_append,
    Bool.and_eq_true,
    List.all_eq_true]
  simp only [List.mem_reverse, Bool.not_eq_true']

theorem stable_checked (name : String) : Stable namesProto i (Checked (κ := κ) i name) := by
  rintro j hj t ⟨⟩ t' ⟨⟩ - ⟨new, hlog, hrecords⟩ - hchecked hclear id record hl hname
  have hlooks : ∀ e ∈ new.map (Prod.mk j), looks i name e = false := by
    intro e he
    obtain ⟨⟨call, outcome⟩, -, rfl⟩ := List.mem_map.mp he
    cases call <;> simp [looks, hj]
  obtain ⟨hwrites, hclear⟩ := (clear_append hlog hlooks).mp hclear
  rcases hrecords id record hl with hold | hmem
  · exact hchecked hclear id record hold hname
  · have hwrite := hwrites _ (List.mem_map_of_mem hmem)
    simp [writesName, hname] at hwrite

theorem stable_any :
    Stable (namesProto (κ := κ)) i fun _ _ => True := fun _ _ _ _ _ _ _ _ _ _ => trivial

omit [DecidableEq ι] in
/-- A step that writes no record. -/
theorem unwritten_step {t : Log ι κ} {w : World κ} (hi : UniqueNames t.world)
    (h : Unwritten t.world w) :
    UniqueNames (t.put i w).world ∧ Logs i t (t.put i w) := by
  obtain ⟨new, ht, -⟩ := h.trace
  exact ⟨fun id r id' r' name hl hl' => hi id r id' r' name (h.records _ _ hl) (h.records _ _ hl'),
    new, put_log ht, fun id record hl => .inl (h.records id record hl)⟩

theorem unwritten_checked {name : String} {t : Log ι κ} {w : World κ} (h : Unwritten t.world w)
    (hc : Checked i name t ()) : Checked i name (t.put i w) () := by
  obtain ⟨new, ht, hplain⟩ := h.trace
  intro hclear id record hl
  have hlooks : ∀ e ∈ new.map (Prod.mk i), looks i name e = false := by
    intro e he
    obtain ⟨⟨call, outcome⟩, hmem, rfl⟩ := List.mem_map.mp he
    have hp := hplain _ hmem
    cases call <;> first | rfl | cases hp
  exact hc ((clear_append (put_log ht) hlooks).mp hclear).2 id record (h.records id record hl)

/-- **Frame** for steps that write no record. -/
theorem safe_unwritten {P : Log ι κ → Unit → Prop} (hst : Stable namesProto i P)
    (hP : ∀ t w, Unwritten t.world w → P t () → P (t.put i w) ()) {φ : α → Prop} {p : Proc κ α}
    (hp : p.Steps Unwritten) (hφ : p.Returns φ) :
    Safe namesProto i (fun r t c => P t c ∧ ∀ a, r = .ok a → φ a) P
      (p.zoom Log.world (Log.put i)) := by
  have hzoom : (p.zoom Log.world (Log.put i)).Steps
      fun t t' : Log ι κ => ∃ w, Unwritten t.world w ∧ t' = t.put i w :=
        hp.zoom fun t w h => ⟨w, h, rfl⟩
  refine .returning hzoom (hφ.zoom _ _) hst ?_
  rintro t ⟨⟩ _ hi hc - ⟨w, h, rfl⟩
  obtain ⟨hi', hg⟩ := unwritten_step hi h
  exact ⟨(), hi', hg, hP t w h hc⟩

theorem safe_checked {name : String} {φ : α → Prop} {p : Proc κ α} (hp : p.Steps Unwritten)
    (hφ : p.Returns φ) :
    Safe namesProto i (fun r t c => Checked i name t c ∧ ∀ a, r = .ok a → φ a) (Checked i name)
      (p.zoom Log.world (Log.put i)) :=
  safe_unwritten (stable_checked name) (fun _ _ => unwritten_checked) hp hφ

theorem safe_any {p : Proc κ α} (hp : p.Steps Unwritten) :
    Safe namesProto i (fun _ _ _ => True) (fun _ _ => True) (p.zoom Log.world (Log.put i)) :=
  (safe_unwritten stable_any (fun _ _ _ _ => trivial) hp (.any p)).post fun _ _ _ _ _ => trivial

/-! ## Jobs -/

/-- After the look no container has the name. -/
theorem checkName_safe (name : String) :
    Safe namesProto i (fun r => match r with
        | .ok _ => Checked (κ := κ) i name
        | .error _ => fun _ _ => True)
      (fun _ _ => True) ((call (checkName (client i) name)).zoom Log.world (Log.put i)) := by
  rw [call, Prog.zoom_atomic]
  refine .atomic (fun r => ?_) ?_
  · cases r with
    | ok _ => exact stable_checked name
    | error e => exact stable_any
  · rintro t ⟨⟩ hi - -
    rw [Prog.after_lift, Prog.result_lift]
    have hlogs : ∀ outcome,
        Logs i t (t.put i (t.world.noted (client i) (.listNamed name) outcome)) :=
      fun outcome => ⟨_, put_log rfl, fun _ _ hl => .inl hl⟩
    rcases checkName_cases (client i) t.world name with ⟨-, hnone, hr⟩ | ⟨e, r, hr⟩
    · rw [after_ok hr, result_ok hr]
      refine ⟨(), hi, hlogs none, fun _ id record hl hname => ?_⟩
      have hmem := mem_namedContainers.mpr ⟨record, hl, hname⟩
      exact List.not_mem_nil (hnone ▸ hmem)
    · rw [after_error hr, result_error hr]
      exact ⟨(), hi, hlogs r, trivial⟩

theorem prepareContainer_safe (id name image : String) (opts : CreateContainerOpts) :
    Safe namesProto i (fun r => match r with
        | .ok _ => Checked (κ := κ) i name
        | .error _ => fun _ _ => True)
      (fun _ _ => True) ((prepareContainer (client i) id name image opts).zoom Log.world
        (Log.put i)) := by
  unfold prepareContainer
  cases validateIdentifier name with
  | error e => exact fun _ _ _ _ => trivial
  | ok _ =>
    dsimp only
    rw [Prog.zoom_bind]
    refine .bind (checkName_safe name) (fun _ => ?_) fun _ _ _ _ h => h
    refine (safe_checked ?_ (.any _)).post fun r t c _ h => ?_
    · refine .bind (.atomic fun w => .of_calm (getImage_keeps w)) fun digest =>
        .bind (getImageMetadata_calm.mono fun _ _ => Unwritten.of_calm) fun metadata =>
          .bind ?_ fun _ => trivial
      unfold prepareRootfs
      split
      · trivial
      · refine .bind (.atomic (snapshotRequest_unwritten _ _ rfl)) fun answer => ?_
        cases answer <;> trivial
    · cases r with
      | ok _ => exact h.1
      | error e => trivial

theorem setup_named {client : Client} {id name image key : String} {opts : CreateContainerOpts}
    {metadata : ImageMetadata} :
    (setup (κ := κ) client id name image opts metadata key).Returns
      fun record => record.labels.lookup nameLabel = some name := by
  have hbuild : ∀ bridge,
      (buildRecord (κ := κ) client id name image opts metadata key bridge).Returns
      fun record => record.labels.lookup nameLabel = some name := by
    intro bridge
    refine (buildRecord_returns _ _ _ _ _ _ _ bridge).mono ?_
    rintro record rfl
    exact lookup_name _ _ _ _ _ _
  unfold setup
  split
  · exact .bind (.any _) fun ip _ => .bind (.any _) fun ports _ => hbuild _
  · exact hbuild _

/-- The record is written when nothing was written under its name since the look. -/
theorem commitRecord_named {id name key : String} {wePrepared : Bool} {record : ContainerRecord}
    (hname : record.labels.lookup nameLabel = some name) :
    Safe namesProto i (fun _ _ _ => True) (Checked (κ := κ) i name)
      ((commitRecord (client i) id name key wePrepared record).zoom Log.world (Log.put i)) := by
  rw [commitRecord, Prog.zoom_bind, call, Prog.zoom_atomic]
  refine .bind (Q := fun _ _ _ => True) (.atomic (fun _ => stable_any) ?_) (fun answer => ?_)
    fun _ _ _ _ h => h
  · rintro t ⟨⟩ hi hchecked hallowed
    rw [Prog.after_lift] at hallowed ⊢
    rcases createRecord_cases (client i) t.world id record with ⟨-, -, hr⟩ | ⟨code, hr⟩
    · rw [after_ok hr] at hallowed ⊢
      have hclear : t.clear i name = true := by
        have hstep : clearStep i t _ = true := hallowed
        rw [clearStep, put_log rfl, List.drop_left] at hstep
        simpa [hname] using hstep
      refine ⟨(), UniqueNames.insert hi (hchecked hclear) hname rfl,
        ⟨[(.createContainer id record, none)], put_log rfl, ?_⟩,
        trivial⟩
      intro id' record' hl
      by_cases h : id' = id
      · subst h
        cases (AList.lookup_insert _).symm.trans hl
        exact .inr List.mem_cons_self
      · exact .inl ((AList.lookup_insert_ne h).symm.trans hl)
    · rw [after_ok hr]
      have hfailed : plain (.createContainer id record, some code) = true := rfl
      obtain ⟨hi', hg⟩ := unwritten_step hi (Unwritten.noted (client i) t.world hfailed)
      exact ⟨(), hi', hg, trivial⟩
  · refine safe_any ?_
    cases answer with
    | ok _ => trivial
    | error code =>
      dsimp only
      split
      · exact .bind (.atomic (snapshotRequest_unwritten _ _ rfl)) fun _ => trivial
      · trivial

theorem create_named (id name image : String) (opts : CreateContainerOpts) :
    Safe namesProto i (fun _ _ _ => True) (fun (_ : Log ι κ) _ => True)
      ((createContainerWithId (client i) id name image opts).zoom Log.world (Log.put i)) := by
  rw [createContainerWithId, Prog.zoom_bind]
  refine .bind (prepareContainer_safe id name image opts) (fun ⟨metadata, key, wePrepared⟩ => ?_)
    fun _ _ _ _ _ => trivial
  have hfinish : Safe namesProto i (fun _ _ _ => True) (Checked (κ := κ) i name)
      ((setupAndCommit (client i) id name image opts metadata key wePrepared).zoom
        Log.world (Log.put i)) := by
    rw [setupAndCommit, Prog.zoom_bind]
    have hsteps : (setup (κ := κ) (client i) id name image opts metadata key).Steps Unwritten :=
      setup_steps (fun _ _ => Unwritten.of_calm) allocBridgeIp_unwritten
    refine .bind (safe_checked hsteps setup_named) (fun record => ?_) fun _ _ _ _ _ => trivial
    by_cases hname : record.labels.lookup nameLabel = some name
    · exact (commitRecord_named hname).pre fun _ _ _ h => h.1
    · exact .unreachable fun t c _ h => hname (h.2 record rfl)
  dsimp only
  split
  · rw [withAllocLock, Prog.zoom_bind]
    refine .bind (safe_checked (.await fun w => .lock w true) (.any _))
      (fun _ => ?_) fun _ _ _ _ _ => trivial
    rw [Prog.zoom_ensuring]
    exact .ensuring (hfinish.pre fun _ _ _ h => h.1)
      (fun _ => safe_any (.await fun w => .lock w false))
      fun _ _ _ _ _ _ => trivial
  · exact hfinish

theorem job_named (job : Job) :
    Safe namesProto i (fun _ _ _ => True) (fun (_ : Log ι κ) _ => True)
      ((job.prog (client i)).zoom Log.world (Log.put i)) :=
  Job.safe (fun _ hp => safe_any hp) (fun _ _ => Unwritten.of_calm) snapshotRequest_unwritten
    statSnapshot_unwritten create_named deleteRecord_unwritten job

end Agreement

/-! ## All together -/

/-- **Names of a namespace.** Where names are unique and no record is written under a name that
another was written under since the writer looked for it, names stay unique in every interleaving: a
lookup by name has at most one match. -/
theorem names_unique [DecidableEq ι] (client : ι → Client) (job : ι → Job) (w : World κ)
    (h : ∀ name, (namedContainers name w).length ≤ 1) (sched : List ι)
    (p : Pool ι (Log ι κ) Error Unit)
    (hclear : Along Pool.step
      (fun p i => ((p.step i).all fun p' => clearStep i p.state p'.state) = true)
      (namesPool client job w) sched)
    (hr : run Pool.step (namesPool client job w) sched = some p) (name : String) :
    (namedContainers name p.state.world).length ≤ 1 := by
  have hagrees : (namesPool client job w).Agrees namesProto (fun _ _ _ _ => True) () :=
    ⟨(uniqueNames_iff w).mpr h, fun i => ⟨fun _ _ => True, stable_any, trivial, job_named _⟩⟩
  have hallowed : (namesPool client job w).Allowed namesProto sched :=
    along_mono (fun p i hall p' hs => by rw [hs] at hall; exact hall) hclear
  obtain ⟨c, hagrees'⟩ := Pool.run_agrees hagrees hallowed hr
  exact (uniqueNames_iff _).mp hagrees'.1 name

/-! ## Two creates -/

/-- Two creates under the given names. -/
def namedCreates (names : Bool → String) (first : Bool) : Job :=
  .create (if first then "c1" else "c2") (names first) "mongo" {}

/-- Both creates look for their names before either writes its record. -/
def bothLook : List Bool :=
  List.replicate 4 true ++ List.replicate 4 false ++ List.replicate 16 true ++
    List.replicate 16 false

/-- Under different names both succeed. -/
theorem names_unique_of_two_creates : ∃ p,
    run Pool.step
      (namesPool (fun _ => {}) (namedCreates fun first => if first then "web" else "db") oneImage)
      bothLook = some p ∧ (namedContainers "web" p.state.world).length ≤ 1 ∧
    namedContainers "web" p.state.world = ["c1"] ∧ namedContainers "db" p.state.world = ["c2"] := by
  obtain ⟨p, hr, hweb, hdb⟩ := run_eval Pool.step
    (namesPool (fun _ => {}) (namedCreates fun first => if first then "web" else "db") oneImage)
      bothLook
    (fun p => namedContainers "web" p.state.world = ["c1"] ∧ namedContainers "db" p.state.world =
      ["c2"])
    (by decide +kernel)
  exact ⟨p, hr, names_unique _ _ oneImage (fun _ => Nat.zero_le 1) bothLook p
    (by decide +kernel) hr "web",
    hweb, hdb⟩

/-- Two creates that both look before either writes get the same name. -/
theorem name_used_twice :
    ¬ ∀ (client : Bool → Client) (job : Bool → Job) (w : World Unit) (sched : List Bool)
      (p : Pool Bool (Log Bool Unit) Error Unit), (∀ name, (namedContainers name w).length ≤ 1) →
      run Pool.step (namesPool client job w) sched = some p →
      ∀ name, (namedContainers name p.state.world).length ≤ 1 := by
  intro h
  obtain ⟨p, hr, htwo⟩ :=
    run_eval Pool.step (namesPool (fun _ => {}) (namedCreates fun _ => "web") oneImage)
    bothLook (fun p => (namedContainers "web" p.state.world).length = 2) (by decide +kernel)
  have hone := h _ _ oneImage bothLook p (fun _ => Nat.zero_le 1) hr "web"
  omega

end ContainerdManager.System
