import ContainerdManager.System.Isolation

/-!
# Reserved keys

Root snapshots, clone bases and named snapshots share one key space, and a
caller may name a snapshot by any of its keys. A clone takes whatever lies
under the key of its base for its base, and a delete removes whatever lies
under the key computed from its id. What a base was committed from is read
off the requests; `reserved_keys` says which names a run has to leave alone.
-/

namespace ContainerdManager.System

open Lib Containerd Container Snapshot Clone ContainerdManager.Task

variable {κ : Type}

/-! ## What the requests tell -/

abbrev Requests := List (Call × Option Code)

/-- The key an accepted `Commit` under the location took. -/
def commitOf (loc : SnapshotKey) : Call × Option Code → Option String
  | (.commit snapshotter name key, none) => if (snapshotter, name) = loc then some key else none
  | _ => none

/-- The key the last accepted `Commit` under the location took. -/
def committedKey (loc : SnapshotKey) (requests : Requests) : Option String :=
  (requests.filterMap (commitOf loc)).getLast?

/-- A record was written for the container. -/
def Written (id : String) (record : ContainerRecord) (requests : Requests) : Prop :=
  (.createContainer id record, none) ∈ requests

/-- What was last committed as the clone base of `id` was the layer its record names. -/
structure OwnBase (snapshotter id : String) (requests : Requests) : Prop where
  written : ∃ record, Written id record requests
  own : ∀ record, Written id record requests →
    committedKey (snapshotter, cloneBaseFor id) requests = some record.snapshotKey

/-- An accepted `Commit`, `Prepare` or `Create`: a request that makes something. -/
def makes : Call × Option Code → Bool
  | (.commit .., none) | (.prepare .., none) | (.createContainer .., none) => true
  | _ => false

section Requests

variable {requests new : Requests} {loc : SnapshotKey} {snapshotter id : String}

theorem makes_of_calm {e : Call × Option Code} (h : e.1.calm = true) : makes e = false := by
  obtain ⟨call, r⟩ := e
  cases call <;> first | rfl | cases h

theorem commitOf_of_not_makes {e : Call × Option Code} (h : makes e = false) :
    commitOf loc e = none := by
  obtain ⟨call, r⟩ := e
  cases call <;> cases r <;> first | rfl | cases h

theorem committedKey_append (h : ∀ e ∈ new, commitOf loc e = none) :
    committedKey loc (requests ++ new) = committedKey loc requests := by
  have hnew : new.filterMap (commitOf loc) = [] := List.filterMap_eq_nil_iff.mpr h
  rw [committedKey, List.filterMap_append, hnew, List.append_nil]
  rfl

theorem committedKey_commit (requests : Requests) (snapshotter name key : String) :
    committedKey (snapshotter, name) (requests ++ [(.commit snapshotter name key, none)]) =
      some key := by
  simp [committedKey, commitOf]

/-- Requests that commit nothing there and write no record for the container. -/
theorem OwnBase.append (h : OwnBase snapshotter id requests)
    (hcommit : ∀ e ∈ new, commitOf (snapshotter, cloneBaseFor id) e = none)
    (hwrite : ∀ record, ¬ Written id record new) : OwnBase snapshotter id (requests ++ new) := by
  obtain ⟨⟨record, hrecord⟩, hown⟩ := h
  refine ⟨⟨record, List.mem_append_left new hrecord⟩, fun record' h' => ?_⟩
  rw [committedKey_append hcommit]
  rcases List.mem_append.mp h' with h' | h'
  · exact hown record' h'
  · exact absurd h' (hwrite record')

/-- Where a request of a longer list stands. -/
theorem split_append {pre post : Requests} {e : Call × Option Code}
    (h : requests ++ new = pre ++ e :: post) :
    (∃ post', requests = pre ++ e :: post') ∨
      ∃ new', pre = requests ++ new' ∧ new = new' ++ e :: post := by
  rcases List.append_eq_append_iff.mp h with ⟨c, hpre, hnew⟩ | ⟨c, hrequests, hpost⟩
  · exact .inr ⟨c, hpre, hnew⟩
  · cases c with
    | nil =>
      refine .inr ⟨[], ?_, hpost.symm⟩
      rw [hrequests, List.append_nil, List.append_nil]
    | cons d c =>
      obtain ⟨rfl, -⟩ := List.cons.inj hpost
      exact .inl ⟨c, hrequests⟩

end Requests

/-! ## Where bases come from -/

/-- The bases of the `cloned` containers are their own: those in the store, and those that anything
was prepared on. -/
structure Sourced (cloned : String → Prop) (w : World κ) : Prop where
  written : ∀ id record, w.containers.lookup id = some record → Written id record w.trace
  once : ∀ id record record', Written id record w.trace → Written id record' w.trace →
    record = record'
  bases : ∀ snapshotter id snap, cloned id →
    w.snapshots.lookup (snapshotter, cloneBaseFor id) = some snap → snap.kind = .committed →
      OwnBase snapshotter id w.trace
  prepared : ∀ snapshotter id key pre post, cloned id →
    w.trace = pre ++ (.prepare snapshotter key (cloneBaseFor id), none) :: post →
      OwnBase snapshotter id pre

/-- The invariant within an act, which began with the requests `before` and may write records
for `dst`. -/
structure Sourcing (cloned dst : String → Prop) (before : Requests) (w : World κ) : Prop
    extends Sourced cloned w where
  grown : before <+: w.trace
  fresh : ∀ id record, dst id → Written id record w.trace → (w.containers.lookup id).isSome

def Sources (cloned dst : String → Prop) (before : Requests) (w w' : World κ) : Prop :=
  Sourcing cloned dst before w → Sourcing cloned dst before w'

variable {cloned dst : String → Prop} {before : Requests}

instance : Std.Refl (Sources (κ := κ) cloned dst before) := ⟨fun _ h => h⟩

instance : IsTrans (World κ) (Sources cloned dst before) := ⟨fun _ _ _ h h' => h' ∘ h⟩

/-- More requests, none of which writes a record. -/
theorem Sourcing.extend {w w' : World κ} (h : Sourcing cloned dst before w) (new : Requests)
    (htrace : w'.trace = w.trace ++ new) (hwrite : ∀ id record, ¬ Written id record new)
    (hconts : ∀ id record, w'.containers.lookup id = some record →
      w.containers.lookup id = some record)
    (hdst : ∀ id, dst id → w'.containers.lookup id = w.containers.lookup id)
    (hbases : ∀ snapshotter id snap, cloned id →
      w'.snapshots.lookup (snapshotter, cloneBaseFor id) = some snap → snap.kind = .committed →
        OwnBase snapshotter id (w.trace ++ new))
    (hprepared : ∀ snapshotter id key pre post, cloned id →
      new = pre ++ (.prepare snapshotter key (cloneBaseFor id), none) :: post →
        OwnBase snapshotter id (w.trace ++ pre)) :
    Sourcing cloned dst before w' := by
  have hwritten (id : String) (record : ContainerRecord) :
      Written id record w'.trace ↔ Written id record w.trace := by
    rw [htrace]
    exact ⟨fun hw => (List.mem_append.mp hw).resolve_right (hwrite id record),
      List.mem_append_left new⟩
  refine ⟨⟨fun id record hl => ?_, fun id record record' h₁ h₂ => ?_, ?_, ?_⟩, ?_, ?_⟩
  · exact (hwritten id record).mpr (h.written id record (hconts id record hl))
  · exact h.once id record record' ((hwritten _ _).mp h₁) ((hwritten _ _).mp h₂)
  · rw [htrace]
    exact hbases
  · intro snapshotter id key pre post hid hsplit
    rw [htrace] at hsplit
    rcases split_append hsplit with ⟨post', hsplit⟩ | ⟨new', rfl, hnew⟩
    · exact h.prepared snapshotter id key pre post' hid hsplit
    · exact hprepared snapshotter id key new' post hid hnew
  · rw [htrace]
    exact h.grown.trans (List.prefix_append _ _)
  · intro id record hid hw
    rw [hdst id hid]
    exact h.fresh id record hid ((hwritten id record).mp hw)

/-- Requests that make nothing, when no snapshot is newly committed. -/
theorem Sourcing.quiet {w w' : World κ} (h : Sourcing cloned dst before w) (new : Requests)
    (htrace : w'.trace = w.trace ++ new) (hnew : ∀ e ∈ new, makes e = false)
    (hconts : ∀ id record, w'.containers.lookup id = some record →
      w.containers.lookup id = some record)
    (hdst : ∀ id, dst id → w'.containers.lookup id = w.containers.lookup id)
    (hsnaps : ∀ loc snap, w'.snapshots.lookup loc = some snap → snap.kind = .committed →
      ∃ old, w.snapshots.lookup loc = some old ∧ old.kind = .committed) :
    Sourcing cloned dst before w' := by
  have hwrite (id : String) (record : ContainerRecord) : ¬ Written id record new := by
    intro hw
    cases hnew _ hw
  refine h.extend new htrace hwrite hconts hdst (fun snapshotter id snap hid hl hkind => ?_)
    fun snapshotter id key pre post _ hsplit => ?_
  · obtain ⟨old, hold, hkind⟩ := hsnaps _ snap hl hkind
    exact (h.bases snapshotter id old hid hold hkind).append
      (fun e he => commitOf_of_not_makes (hnew e he)) (hwrite id)
  · cases hnew (.prepare snapshotter key (cloneBaseFor id), none) (by simp [hsplit])

theorem Sources.of_sameStore {w w' : World κ} {new : Requests} (hs : SameStore w w')
    (htrace : w'.trace = w.trace ++ new) (hnew : ∀ e ∈ new, makes e = false) :
    Sources cloned dst before w w' := by
  refine fun h => h.quiet new htrace hnew (fun id record hl => ?_) (fun id _ => ?_)
    fun loc snap hl hkind => ?_
  · rwa [hs.containers] at hl
  · rw [hs.containers]
  · rw [hs.snapshots] at hl
    exact ⟨snap, hl, hkind⟩

theorem Sources.of_calm {w w' : World κ} (h : Calm w w') : Sources cloned dst before w w' := by
  obtain ⟨new, htrace, hnew⟩ := h.trace
  exact .of_sameStore h.toSameStore htrace fun e he => makes_of_calm (hnew e he)

theorem Sources.noted (client : Client) (w : World κ) (call : Call) (r : Option Code)
    (hmakes : makes (call, r) = false) : Sources cloned dst before w (w.noted client call r) :=
  .of_sameStore (.noted client w call r) rfl (by simpa using hmakes)

theorem makes_error (call : Call) (code : Code) : makes (call, some code) = false := by
  cases call <;> rfl

section Requests

variable {client : Client} {snapshotter key : String}

theorem statSnapshot_sources :
    Keeps (Sources (κ := κ) cloned dst before) (statSnapshot client snapshotter key) :=
  statSnapshot_keeps fun w r => .noted client w _ r (by cases r <;> rfl)

theorem removeSnapshot_sources :
    Keeps (Sources (κ := κ) cloned dst before) (removeSnapshot client snapshotter key) := by
  intro w
  rcases removeSnapshot_cases client w snapshotter key with ⟨-, -, -, hr⟩ | ⟨code, -, hr⟩
  · rw [after_ok hr]
    refine fun h => h.quiet [(.remove snapshotter key, none)] rfl (by simp [makes])
      (fun _ _ hl => hl) (fun _ _ => rfl) fun loc snap hl hkind => ?_
    have hne : loc ≠ (snapshotter, key) := by
      rintro rfl
      rw [AList.lookup_erase] at hl
      cases hl
    exact ⟨snap, (AList.lookup_erase_ne hne).symm.trans hl, hkind⟩
  · rw [after_ok hr]
    exact .noted client w _ _ (makes_error _ code)

/-- What is prepared is prepared on what is there. -/
theorem prepareSnapshot_sources {parent : String} :
    Keeps (Sources (κ := κ) cloned dst before)
      (prepareSnapshot client snapshotter key parent) := by
  intro w
  rcases prepareSnapshot_cases client w snapshotter key parent with
    ⟨base, -, -, hbase, hkind, hr⟩ | ⟨code, -, hr⟩
  · rw [after_ok hr]
    refine fun h => h.extend [(.prepare snapshotter key parent, none)] rfl
      (by simp [Written]) (fun _ _ hl => hl) (fun _ _ => rfl)
        (fun sn id snap hid hl hcommitted => ?_)
      fun sn id key' pre post hid hsplit => ?_
    · by_cases hloc : (sn, cloneBaseFor id) = (snapshotter, key)
      · rw [hloc, AList.lookup_insert] at hl
        cases hl
        cases hcommitted
      · rw [AList.lookup_insert_ne hloc] at hl
        exact (h.bases sn id snap hid hl hcommitted).append (by simp [commitOf])
          (by simp [Written])
    · cases pre with
      | cons e pre => simp at hsplit
      | nil =>
        cases hsplit
        rw [List.append_nil]
        exact h.bases _ _ base hid hbase hkind
  · rw [after_ok hr]
    exact .noted client w _ _ (makes_error _ code)

/-- A commit under the base of a cloned container has to take the layer of that container. -/
theorem commit_sources {name : String} {labels : Labels}
    (hown : ∀ id, cloned id → name = cloneBaseFor id → ∃ record, Written id record before ∧
      record.snapshotKey = key) :
    Keeps (Sources (κ := κ) cloned dst before)
      (snapshotRequest client (.commit snapshotter name key) fun snaps =>
        snaps.commit snapshotter name key labels) := by
  intro w
  rcases snapshotRequest_cases client (.commit snapshotter name key)
      (fun snaps => snaps.commit snapshotter name key labels) w with
    ⟨snaps, -, hans, hr⟩ | ⟨code, -, hr⟩
  · rw [after_ok hr]
    obtain ⟨hfree, snap, hsnap, -, rfl⟩ := Snapshots.commit_eq_ok hans
    refine fun h => h.extend [(.commit snapshotter name key, none)] rfl
      (by simp [Written]) (fun _ _ hl => hl) (fun _ _ => rfl)
        (fun sn id found hid hl hcommitted => ?_)
      fun sn id key' pre post hid hsplit => ?_
    · by_cases hloc : (sn, cloneBaseFor id) = (snapshotter, name)
      · obtain ⟨rfl, rfl⟩ := Prod.mk.inj hloc
        obtain ⟨record, hrecord, rfl⟩ := hown id hid rfl
        have hold : Written id record w.trace := h.grown.subset hrecord
        refine ⟨⟨record, List.mem_append_left _ hold⟩, fun record' h' => ?_⟩
        have hnew : Written id record' w.trace := by simpa [Written] using h'
        rw [h.once id record' record hnew hold]
        exact committedKey_commit w.trace sn (cloneBaseFor id) record.snapshotKey
      · by_cases hkey : (sn, cloneBaseFor id) = (snapshotter, key)
        · rw [hkey] at hl
          cases (Snapshots.lookup_committed_key hfree hsnap).symm.trans hl
        · have hl := (Snapshots.lookup_committed_of_ne hloc hkey).symm.trans hl
          refine (h.bases sn id found hid hl hcommitted).append (fun e he => ?_) (by simp [Written])
          cases List.mem_singleton.mp he
          exact if_neg (Ne.symm hloc)
    · cases pre with
      | cons e pre => simp at hsplit
      | nil => cases hsplit
  · rw [after_ok hr]
    exact .noted client w _ _ (makes_error _ code)

/-- A record is written for an id that has had none. -/
theorem createRecord_sources {id : String} {record : ContainerRecord} (hid : dst id) :
    Keeps (Sources (κ := κ) cloned dst before) (createRecord client id record) := by
  intro w
  rcases createRecord_cases client w id record with ⟨-, hnone, hr⟩ | ⟨code, hr⟩
  · rw [after_ok hr]
    intro h
    have hfresh (other : ContainerRecord) : ¬ Written id other w.trace := by
      intro hw
      have hsome := h.fresh id other hid hw
      rw [hnone] at hsome
      cases hsome
    have hwritten (id' : String) (other : ContainerRecord) :
        Written id' other (w.trace ++ [(.createContainer id record, none)]) ↔
          Written id' other w.trace ∨ id' = id ∧ other = record := by
      simp [Written]
    refine ⟨⟨fun id' other hl => ?_, fun id' other other' h₁ h₂ => ?_, ?_, ?_⟩, ?_, ?_⟩
    · refine (hwritten id' other).mpr ?_
      by_cases he : id' = id
      · subst he
        cases (AList.lookup_insert _).symm.trans hl
        exact .inr ⟨rfl, rfl⟩
      · exact .inl (h.written id' other ((AList.lookup_insert_ne he).symm.trans hl))
    · rcases (hwritten id' other).mp h₁, (hwritten id' other').mp h₂ with
        ⟨hold | ⟨rfl, rfl⟩, hold' | ⟨he, rfl⟩⟩
      · exact h.once id' other other' hold hold'
      · exact absurd (he ▸ hold) (hfresh other)
      · exact absurd hold' (hfresh other')
      · rfl
    · intro sn id' snap hcloned hl hcommitted
      have hbase := h.bases sn id' snap hcloned hl hcommitted
      refine hbase.append (by simp [commitOf]) fun other hw => ?_
      -- the owner of a base has had a record
      obtain ⟨old, hold⟩ := hbase.written
      obtain ⟨rfl, -⟩ : id' = id ∧ other = record := by simpa [Written] using hw
      exact hfresh old hold
    · intro sn id' key' pre post hcloned hsplit
      rcases split_append hsplit with ⟨post', hsplit⟩ | ⟨new', -, hnew⟩
      · exact h.prepared sn id' key' pre post' hcloned hsplit
      · cases new' with
        | cons e new' => simp at hnew
        | nil => cases hnew
    · exact h.grown.trans (List.prefix_append _ _)
    · intro id' other hdst hw
      show ((w.containers.insert id record).lookup id').isSome = true
      by_cases he : id' = id
      · rw [he, AList.lookup_insert]
        rfl
      · rw [AList.lookup_insert_ne he]
        rcases (hwritten id' other).mp hw with hw | ⟨he', -⟩
        · exact h.fresh id' other hdst hw
        · exact absurd he' he
  · rw [after_ok hr]
    exact .noted client w _ _ (makes_error _ code)

theorem deleteRecord_sources {id : String} (hid : ¬ dst id) :
    Keeps (Sources (κ := κ) cloned dst before) (deleteRecord client id) := by
  intro w
  rcases deleteRecord_cases client id w with ⟨_, -, hr⟩ | ⟨code, -, hr⟩
  · rw [after_ok hr]
    refine fun h => h.quiet [(.deleteContainer id, none)] rfl (by simp [makes])
      (fun id' record hl => ?_) (fun id' hdst => ?_) fun loc snap hl hkind => ⟨snap, hl, hkind⟩
    · by_cases he : id' = id
      · subst he
        exact absurd hl (by simp)
      · exact (AList.lookup_erase_ne he).symm.trans hl
    · exact AList.lookup_erase_ne fun e => hid (e ▸ hdst)
  · rw [after_ok hr]
    exact .noted client w _ _ (makes_error _ code)

end Requests

/-! ## Acts -/

theorem createWithId_sources {client : Client} {id name image : String}
    {opts : CreateContainerOpts} (hid : dst id) :
    (createContainerWithId client id name image opts).Steps
      (Sources (κ := κ) cloned dst before) :=
  createContainerWithId_steps (fun _ _ => .of_calm)
    (checkName_keeps fun w r => .noted client w _ r (by cases r <;> rfl))
    (fun _ _ => prepareSnapshot_sources)
    (allocBridgeIp_keeps fun w r _ =>
      .of_sameStore ⟨rfl, rfl⟩ rfl (by cases r <;> simp [makes]))
    (fun _ _ => .of_sameStore ⟨rfl, rfl⟩ (List.append_nil _).symm (by simp))
    (fun _ _ _ => createRecord_sources hid) fun _ => removeSnapshot_sources

/-- A container that a call finds had its record written before. -/
theorem Sourced.layer {w : World κ} (h : Sourced cloned w) {id : String}
    {record : ContainerRecord} (hl : w.containers.lookup id = some record) :
    ∃ record', Written id record' w.trace ∧ record'.snapshotKey = record.snapshotKey :=
  ⟨record, h.written id record hl, rfl⟩

theorem cloneContainer_sources {client : Client} {src id dstName : String}
    {opts : CloneContainerOpts} {w : World κ} (h : Sourced cloned w) :
    Sources cloned (· = id) w.trace w
      (after (cloneContainer client src id dstName opts).run w) := by
  refine cloneContainer_frame (fun _ _ => .of_calm) fun srcInfo record hl => ?_
  have hcommit : Keeps (Sources (κ := κ) cloned (· = id) w.trace)
      (commitActive client record.snapshotter (cloneBaseFor src) record.snapshotKey) := by
    refine commit_sources fun id' _ hname => ?_
    obtain rfl := cloneBaseFor_injective hname
    exact h.layer hl
  exact cloneFrom_steps statSnapshot_sources hcommit (fun _ _ => prepareSnapshot_sources)
    (fun _ _ _ => createWithId_sources rfl) removeSnapshot_sources

/-- A snapshot of the container finds its name free. -/
def Takes (w : World κ) (src name : String) : Prop :=
  ∃ record, w.containers.lookup src = some record ∧
    w.snapshots.lookup (record.snapshotter, name) = none

theorem snapshotContainer_sources {client : Client} {src name : String}
    {opts : SnapshotContainerOpts} {w : World κ} (h : Sourced cloned w)
    (hown : Takes w src name → ∀ id, cloned id → name = cloneBaseFor id → src = id) :
    Sources cloned (fun _ => False) w.trace w
      (after (snapshotContainer client src name opts) w) := by
  refine snapshotContainer_frame (fun _ _ => .of_calm) fun record wasRunning w₁ hl hs => ?_
  cases hname : w₁.snapshots.lookup (record.snapshotter, name) with
  | none =>
    have htakes : Takes w src name := ⟨record, hl, by rw [← hs.snapshots, hname]⟩
    have hkeeps : Keeps (Sources (κ := κ) cloned (fun _ => False) w.trace)
        (commitSnapshot client src name opts record wasRunning) := by
      refine commitSnapshot_frame (fun _ _ => .of_calm) (commit_sources fun id hid hbase => ?_)
        prepareSnapshot_sources removeSnapshot_sources
      obtain rfl := hown htakes id hid hbase
      exact h.layer hl
    exact hkeeps w₁
  | some snap =>
    obtain ⟨code, e, w', hr, hcalm⟩ := commitSnapshot_taken src wasRunning client opts hname
    rw [after_error hr]
    exact IsTrans.trans _ _ _ (.noted client w₁ _ _ (makes_error _ code)) (.of_calm hcalm)

theorem writeLayer_sources (id : String) (f : κ → κ) (w : World κ) :
    Sources cloned dst before w (writeLayer id f w) := by
  unfold writeLayer
  split
  · exact Std.Refl.refl w
  · rename_i record _
    split
    · exact Std.Refl.refl w
    · split
      · rename_i hactive
        refine fun h => h.quiet [] (List.append_nil _).symm (by simp) (fun _ _ hl => hl)
          (fun _ _ => rfl) fun loc snap hl hkind => ?_
        by_cases he : loc = (record.snapshotter, record.snapshotKey)
        · rw [he, AList.lookup_insert] at hl
          cases hl
          cases hactive.symm.trans hkind
        · exact ⟨snap, (AList.lookup_insert_ne he).symm.trans hl, hkind⟩
      · exact Std.Refl.refl w

/-- A generated id: no record was written for it, and nothing lies under its root snapshot's key. -/
structure FreshId (w : World κ) (id : String) : Prop where
  unwritten : ∀ record, ¬ Written id record w.trace
  unused : ∀ snapshotter, w.snapshots.lookup (snapshotter, snapshotKeyFor id) = none

def Act.Generated (w : World κ) : Act κ → Prop
  | .create _ id _ _ _ | .clone _ _ id _ _ | .restore _ _ id _ _ => FreshId w id
  | _ => True

theorem Sourced.of_sources {w w' : World κ} (h : Sourced cloned w)
    (hdst : ∀ id, dst id → ∀ record, ¬ Written id record w.trace)
    (hw : Sources cloned dst w.trace w w') : Sourced cloned w' := by
  have hbegin : Sourcing cloned dst w.trace w :=
    ⟨h, List.prefix_rfl, fun id record hid hwritten => absurd hwritten (hdst id hid record)⟩
  exact (hw hbegin).toSourced

/-- **An act keeps the bases their containers' own**, unless a snapshot of another container takes
the name of one. -/
theorem apply_sourced {w : World κ} (h : Sourced cloned w) {a : Act κ} (hnew : a.Generated w)
    (hown : ∀ client src name opts, a = .snapshot client src name opts → Takes w src name →
      ∀ id, cloned id → name = cloneBaseFor id → src = id) : Sourced cloned (a.apply w) := by
  have hfresh (id : String) (hid : FreshId w id) :
      ∀ id', id' = id → ∀ record, ¬ Written id' record w.trace := by
    rintro _ rfl
    exact hid.unwritten
  have hnone : ∀ id, False → ∀ record, ¬ Written id record w.trace := fun _ hid => hid.elim
  cases a with
  | create client id name image opts =>
    refine h.of_sources (hfresh id hnew) ?_
    have hsteps : (createContainer client id name image opts).Steps
        (Sources (κ := κ) cloned (· = id) w.trace) :=
      createContainer_steps (createWithId_sources rfl)
    exact hsteps.keeps w
  | clone client src id dstName opts =>
    exact h.of_sources (hfresh id hnew) (cloneContainer_sources h)
  | snapshot client src name opts =>
    exact h.of_sources hnone (snapshotContainer_sources h (hown client src name opts rfl))
  | restore client name id dstName opts =>
    refine h.of_sources (hfresh id hnew) ?_
    have hsteps : (restoreContainer client name id dstName opts).Steps
        (Sources (κ := κ) cloned (· = id) w.trace) :=
      restoreContainer_steps statSnapshot_sources prepareSnapshot_sources
        (fun _ => createWithId_sources rfl) removeSnapshot_sources
    exact hsteps.keeps w
  | reset client id name opts =>
    refine h.of_sources hnone (resetToSnapshot_frame (fun _ _ => .of_calm)
      (fun _ => statSnapshot_sources) fun record _ => ?_)
    exact replaceActive_frame prepareSnapshot_sources removeSnapshot_sources
  | start client id => exact h.of_sources hnone (.of_calm (startContainer_keeps w))
  | stop client id timeout => exact h.of_sources hnone (.of_calm (stopContainer_keeps w))
  | delete client id timeout =>
    refine h.of_sources hnone ?_
    have hsteps : (deleteContainer client id timeout).Steps
        (Sources (κ := κ) cloned (fun _ => False) w.trace) :=
      deleteContainer_steps (fun _ _ => .of_calm) (deleteRecord_sources fun hid => hid)
        (fun _ => removeSnapshot_sources) timeout
    exact hsteps.keeps w
  | deleteSnapshot client name =>
    refine h.of_sources hnone ?_
    have hkeeps : Keeps (Sources (κ := κ) cloned (fun _ => False) w.trace)
        (Snapshot.deleteSnapshot client name) :=
      deleteSnapshot_frame statSnapshot_sources removeSnapshot_sources
    exact hkeeps w
  | write id f => exact h.of_sources hnone (writeLayer_sources id f w)

/-! ## What stays under a name -/

/-- A snapshot committed there stays as it is. -/
def Stays (loc : SnapshotKey) (w w' : World κ) : Prop :=
  ∀ snap, w.snapshots.lookup loc = some snap → snap.kind = .committed →
    w'.snapshots.lookup loc = some snap

variable {loc : SnapshotKey}

instance : Std.Refl (Stays (κ := κ) loc) := ⟨fun _ _ hl _ => hl⟩

instance : IsTrans (World κ) (Stays loc) :=
  ⟨fun _ _ _ h h' snap hl hkind => h' snap (h snap hl hkind) hkind⟩

theorem Stays.of_snapshots {w w' : World κ} (h : w'.snapshots = w.snapshots) : Stays loc w w' :=
  fun _ hl _ => by rwa [h]

theorem Stays.of_calm {w w' : World κ} (h : Calm w w') : Stays loc w w' :=
  .of_snapshots h.toSameStore.snapshots

section Requests

variable {client : Client} {snapshotter key : String}

theorem snapshotRequest_stays {call : Call} {answer : Snapshots κ → Except Code (Snapshots κ)}
    (h : ∀ snaps snaps', answer snaps = .ok snaps' → ∀ snap, snaps.lookup loc = some snap →
      snap.kind = .committed → snaps'.lookup loc = some snap) :
    Keeps (Stays loc) (snapshotRequest client call answer) := by
  intro w
  rcases snapshotRequest_cases client call answer w with ⟨snaps, -, hans, hr⟩ | ⟨code, -, hr⟩
  · rw [after_ok hr]
    exact h _ _ hans
  · rw [after_ok hr]
    exact .of_snapshots rfl

theorem statSnapshot_stays :
    Keeps (Stays (κ := κ) loc) (statSnapshot client snapshotter key) :=
  statSnapshot_keeps fun _ _ => .of_snapshots rfl

theorem prepareSnapshot_stays {parent : String} :
    Keeps (Stays (κ := κ) loc) (prepareSnapshot client snapshotter key parent) := by
  refine snapshotRequest_stays fun snaps snaps' hans snap hl _ => ?_
  obtain ⟨hfree, base, -, -, rfl⟩ := Snapshots.prepare_eq_ok hans
  refine (AList.lookup_insert_ne ?_).trans hl
  rintro rfl
  cases hfree.symm.trans hl

theorem removeSnapshot_stays (hne : loc ≠ (snapshotter, key)) :
    Keeps (Stays (κ := κ) loc) (removeSnapshot client snapshotter key) := by
  refine snapshotRequest_stays fun snaps snaps' hans snap hl _ => ?_
  obtain ⟨-, -, rfl⟩ := Snapshots.remove_eq_ok hans
  exact (AList.lookup_erase_ne hne).trans hl

/-- A `Commit` takes a free name and an active key. -/
theorem commit_stays {name : String} {call : Call} {labels : Labels} :
    Keeps (Stays (κ := κ) loc)
      (snapshotRequest client call fun snaps => snaps.commit snapshotter name key labels) := by
  refine snapshotRequest_stays fun snaps snaps' hans snap hl hkind => ?_
  obtain ⟨hfree, taken, htaken, hactive, rfl⟩ := Snapshots.commit_eq_ok hans
  refine (Snapshots.lookup_committed_of_ne ?_ ?_).trans hl
  · rintro rfl
    cases hfree.symm.trans hl
  · rintro rfl
    cases htaken.symm.trans hl
    cases hactive.symm.trans hkind

theorem createRecord_stays {id : String} {record : ContainerRecord} :
    Keeps (Stays (κ := κ) loc) (createRecord client id record) := by
  intro w
  rcases createRecord_cases client w id record with ⟨-, -, hr⟩ | ⟨code, hr⟩ <;>
    rw [after_ok hr] <;> exact .of_snapshots rfl

theorem deleteRecord_stays {id : String} :
    Keeps (Stays (κ := κ) loc) (deleteRecord client id) := by
  intro w
  rcases deleteRecord_cases client id w with ⟨_, -, hr⟩ | ⟨code, -, hr⟩ <;>
    rw [after_ok hr] <;> exact .of_snapshots rfl

theorem createWithId_stays {id name image : String} {opts : CreateContainerOpts}
    (hne : ∀ sn, loc ≠ (sn, snapshotKeyFor id)) :
    (createContainerWithId client id name image opts).Steps (Stays (κ := κ) loc) :=
  createContainerWithId_steps (fun _ _ => .of_calm)
    (checkName_keeps fun _ _ => .of_snapshots rfl) (fun _ _ => prepareSnapshot_stays)
    (allocBridgeIp_keeps fun _ _ _ => .of_snapshots rfl) (fun _ _ => .of_snapshots rfl)
    (fun _ _ _ => createRecord_stays) fun _ => removeSnapshot_stays (hne _)

/-- A snapshot that fails may remove the name it took, and nothing else. -/
theorem snapshotContainer_stays {src name : String} {opts : SnapshotContainerOpts} (w : World κ) :
    Stays loc w (after (snapshotContainer client src name opts) w) := by
  refine snapshotContainer_frame (fun _ _ => .of_calm) fun record wasRunning w₁ _ _ => ?_
  by_cases hloc : loc = (record.snapshotter, name)
  · intro snap hl hkind
    rw [hloc] at hl
    obtain ⟨code, e, w', hr, hcalm⟩ := commitSnapshot_taken src wasRunning client opts hl
    rw [after_error hr, hcalm.toSameStore.snapshots, hloc]
    exact hl
  · have hkeeps : Keeps (Stays (κ := κ) loc)
        (commitSnapshot client src name opts record wasRunning) :=
      commitSnapshot_frame (fun _ _ => .of_calm) commit_stays prepareSnapshot_stays
        (removeSnapshot_stays hloc)
    exact hkeeps w₁

end Requests

/-- The act removes what lies under the name, as the root snapshot of its container. -/
def Act.Removes (w : World κ) (name : String) : Act κ → Prop
  | .delete _ id _ => name = snapshotKeyFor id
  | .reset _ id _ _ => ∃ record, w.containers.lookup id = some record ∧ name = record.snapshotKey
  | _ => False

/-- **An act leaves a committed snapshot as it is**, unless it deletes it by its name, or takes it
for the root snapshot of its container. -/
theorem apply_stays {w : World κ} {a : Act κ} (hnew : a.Generated w)
    (hdeletes : ¬ a.Deletes loc.2) (hremoves : ¬ a.Removes w loc.2) :
    Stays loc w (a.apply w) := by
  intro snap hl hkind
  have hkey (id : String) (hid : FreshId w id) (sn : String) : loc ≠ (sn, snapshotKeyFor id) := by
    rintro rfl
    cases (hid.unused sn).symm.trans hl
  have hstays : Stays loc w (a.apply w) := by
    cases a with
    | create client id name image opts =>
      have hsteps : (createContainer client id name image opts).Steps (Stays (κ := κ) loc) :=
        createContainer_steps (createWithId_stays (hkey id hnew))
      exact hsteps.keeps w
    | clone client src id dstName opts =>
      refine cloneContainer_frame (fun _ _ => .of_calm) fun srcInfo record _ => ?_
      exact cloneFrom_steps statSnapshot_stays commit_stays (fun _ _ => prepareSnapshot_stays)
        (fun _ _ _ => createWithId_stays (hkey id hnew)) (removeSnapshot_stays (hkey id hnew _))
    | snapshot client src name opts => exact snapshotContainer_stays w
    | restore client name id dstName opts =>
      have hsteps : (restoreContainer client name id dstName opts).Steps (Stays (κ := κ) loc) :=
        restoreContainer_steps statSnapshot_stays prepareSnapshot_stays
          (fun _ => createWithId_stays (hkey id hnew)) (removeSnapshot_stays (hkey id hnew _))
      exact hsteps.keeps w
    | reset client id name opts =>
      refine resetToSnapshot_frame (fun _ _ => .of_calm) (fun _ => statSnapshot_stays)
        fun record hrecord => ?_
      refine replaceActive_frame prepareSnapshot_stays (removeSnapshot_stays ?_)
      rintro rfl
      exact hremoves ⟨record, hrecord, rfl⟩
    | start client id => exact .of_calm (startContainer_keeps w)
    | stop client id timeout => exact .of_calm (stopContainer_keeps w)
    | delete client id timeout =>
      have hsteps : (deleteContainer client id timeout).Steps (Stays (κ := κ) loc) := by
        refine deleteContainer_steps (fun _ _ => .of_calm) deleteRecord_stays (fun sn => ?_) timeout
        refine removeSnapshot_stays ?_
        rintro rfl
        exact hremoves rfl
      exact hsteps.keeps w
    | deleteSnapshot client name =>
      have hkeeps : Keeps (Stays (κ := κ) loc) (Snapshot.deleteSnapshot client name) := by
        refine deleteSnapshot_frame statSnapshot_stays (removeSnapshot_stays ?_)
        rintro rfl
        exact hdeletes rfl
      exact hkeeps w
    | write id f =>
      intro snap hl hkind
      show (writeLayer id f w).snapshots.lookup loc = some snap
      unfold writeLayer
      split
      · exact hl
      · split
        · exact hl
        · rename_i old hold
          split
          · rename_i hactive
            refine (AList.lookup_insert_ne ?_).trans hl
            rintro rfl
            cases hold.symm.trans hl
            cases hactive.symm.trans hkind
          · exact hl
  exact hstays snap hl hkind

/-! ## Runs -/

/-- No container yet, no request, and no snapshot under the key of a clone base. -/
structure Initial (w : World κ) : Prop where
  containers : w.containers = ∅
  trace : w.trace = []
  baseless : ∀ snapshotter id, w.snapshots.lookup (snapshotter, cloneBaseFor id) = none

/-- Some act clones the container. -/
def Cloned (acts : List (Act κ)) (id : String) : Prop :=
  ∃ client dst dstName opts, .clone client id dst dstName opts ∈ acts

/-- Some act gives the name to a snapshot. -/
def Named (acts : List (Act κ)) (name : String) : Prop :=
  ∃ client src opts, .snapshot client src name opts ∈ acts

/-- The act gives no snapshot the free name of another container's clone base, and takes no
committed snapshot of a given name for the root snapshot of its container. -/
def Act.Spares (acts : List (Act κ)) (w : World κ) (a : Act κ) : Prop :=
  (∀ client src name opts, a = .snapshot client src name opts → Takes w src name →
    ∀ id, Cloned acts id → name = cloneBaseFor id → src = id) ∧
  ∀ name, Named acts name → a.Removes w name →
    ∀ snapshotter snap, w.snapshots.lookup (snapshotter, name) = some snap → snap.kind ≠ .committed

/-- A clone prepares on what was committed from the layer of its source, and a committed snapshot
under a name that was given to one is removed by a `delete_snapshot` of it only. -/
def Act.KeepsReserved (acts : List (Act κ)) (w : World κ) (a : Act κ) : Prop :=
  (∀ client src dst dstName opts, a = .clone client src dst dstName opts →
    ∀ snapshotter key pre post,
      (a.apply w).trace = pre ++ (.prepare snapshotter key (cloneBaseFor src), none) :: post →
        OwnBase snapshotter src pre) ∧
  ∀ name, Named acts name → ¬ a.Deletes name →
    ∀ snapshotter, Stays (snapshotter, name) w (a.apply w)

theorem Initial.sourced {w : World κ} (h : Initial w) : Sourced cloned w := by
  obtain ⟨hconts, htrace, hbase⟩ := h
  refine ⟨fun id record hl => ?_, fun id record record' hw => ?_, fun sn id snap _ hl => ?_,
    fun sn id key pre post _ hsplit => ?_⟩
  · rw [hconts] at hl
    cases hl
  · rw [htrace] at hw
    cases hw
  · rw [hbase] at hl
    cases hl
  · rw [htrace] at hsplit
    cases pre <;> cases hsplit

/-- **Reserved keys.** From a store without containers and clone bases, in every run with generated
ids whose acts spare the names that the run gives to snapshots: every clone prepares on a base
that was committed from the layer of its source, and no act but a `delete_snapshot` removes
a committed snapshot under such a name. -/
theorem reserved_keys (w₀ : World κ) (h₀ : Initial w₀) (acts : List (Act κ))
    (hnew : Along Act.step Act.Generated w₀ acts)
    (hspares : Along Act.step (Act.Spares acts) w₀ acts) :
    Along Act.step (Act.KeepsReserved acts) w₀ acts := by
  have hstep (w : World κ) (a : Act κ) (w' : World κ) (h : Sourced (Cloned acts) w)
      (ha : a.Generated w ∧ a.Spares acts w) (hs : Act.step w a = some w') :
      Sourced (Cloned acts) w' := by
    cases hs
    exact apply_sourced h ha.1 ha.2.1
  have hinv := along_inv hstep h₀.sourced (along_and hnew hspares)
  have hmem : Along Act.step (fun (_ : World κ) a => a ∈ acts) w₀ acts :=
    along_of_forall fun _ ha => ha
  refine along_mono ?_ (along_and hinv hmem)
  rintro w a ⟨⟨hw, hgen, hspare⟩, hin⟩
  constructor
  · rintro client src dst dstName opts rfl snapshotter key pre post hsplit
    refine (apply_sourced hw hgen hspare.1).prepared snapshotter src key pre post ?_ hsplit
    exact ⟨client, dst, dstName, opts, hin⟩
  · intro name hname hdeletes snapshotter snap hl hkind
    refine apply_stays hgen hdeletes (fun hremoves => ?_) snap hl hkind
    exact hspare.2 name hname hremoves snapshotter snap hl hkind

/-! ## Names that are taken -/

/-- The request writes a record for the container. -/
def writes (id : String) : Call × Option Code → Bool
  | (.createContainer id' _, none) => id' = id
  | _ => false

instance (w : World κ) (id : String) : Decidable (FreshId w id) :=
  decidable_of_iff ((∀ e ∈ w.trace, writes id e = false) ∧
      ∀ loc ∈ w.snapshots.keys, loc.2 ≠ snapshotKeyFor id) <| by
    constructor
    · rintro ⟨hwrite, hkey⟩
      refine ⟨fun record hw => ?_, fun sn => AList.lookup_eq_none.mpr fun hmem => ?_⟩
      · have hno := hwrite _ hw
        simp [writes] at hno
      · exact hkey (sn, snapshotKeyFor id) (AList.mem_keys.mp hmem) rfl
    · rintro ⟨hwrite, hkey⟩
      constructor
      · rintro ⟨call, r⟩ he
        cases call <;> cases r <;> first | rfl | skip
        rename_i id' record
        refine decide_eq_false ?_
        rintro rfl
        exact hwrite record he
      · rintro ⟨sn, key⟩ hmem rfl
        exact AList.lookup_eq_none.mp (hkey sn) (AList.mem_keys.mpr hmem)

instance (w : World κ) : (a : Act κ) → Decidable (a.Generated w)
  | .create _ _ _ _ _ | .clone _ _ _ _ _ | .restore _ _ _ _ _ =>
    inferInstanceAs (Decidable (FreshId _ _))
  | .snapshot _ _ _ _ | .reset _ _ _ _ | .start _ _ | .stop _ _ _ | .delete _ _ _
  | .deleteSnapshot _ _ | .write _ _ => .isTrue trivial

theorem zeroImage_initial : Initial zeroImage := by
  refine ⟨rfl, rfl, fun sn id => ?_⟩
  have hne : (sn, cloneBaseFor id) ≠ (defaultSnapshotter, "chain") := by
    intro he
    have hlast := congrArg (fun s : String => s.toList.getLast?) (Prod.mk.inj he).2
    simp only [getLast_cloneBaseFor] at hlast
    revert hlast
    decide
  rw [zeroImage, AList.lookup_insert_ne hne]
  rfl

/-- A container is saved and cloned, and the clone is deleted. -/
def savedAndCloned : List (Act Nat) :=
  [.create {} "c1" "web" "mongo" { network := .host }, .snapshot {} "c1" "saved" {},
    .clone {} "c1" "c2" "copy" {}, .delete {} "c2" 0]

theorem savedAndCloned_keeps :
    Along Act.step (Act.KeepsReserved savedAndCloned) zeroImage savedAndCloned ∧
    ∃ w, run Act.step zeroImage savedAndCloned = some w ∧
      committedKey (defaultSnapshotter, "c1-clone-base") w.trace = some "c1-snapshot" ∧
      (w.snapshots.lookup (defaultSnapshotter, "saved")).isSome := by
  have hnamed (name : String) (h : Named savedAndCloned name) : name = "saved" := by
    obtain ⟨client, src, opts, h⟩ := h
    simp only [savedAndCloned, List.mem_cons, List.not_mem_nil, Act.snapshot.injEq, reduceCtorEq,
      false_or, or_false] at h
    exact h.2.2.1
  have hplain : PlainName "saved" :=
    plainName_of_last (c := 'd') (by decide) (by decide) (by decide)
  have hspares (a : Act Nat) (ha : a ∈ savedAndCloned) (w : World Nat) :
      a.Spares savedAndCloned w := by
    constructor
    · rintro client src name opts rfl - id - hbase
      rw [hnamed name ⟨client, src, opts, ha⟩] at hbase
      exact absurd hbase (hplain.2 id)
    · intro name hname hremoves
      rw [hnamed name hname] at hremoves
      simp only [savedAndCloned, List.mem_cons, List.not_mem_nil, or_false] at ha
      rcases ha with rfl | rfl | rfl | rfl
      · exact hremoves.elim
      · exact hremoves.elim
      · exact hremoves.elim
      · exact absurd hremoves (hplain.1 "c2")
  constructor
  · refine reserved_keys zeroImage zeroImage_initial savedAndCloned (by decide +kernel) ?_
    exact along_mono (fun w a h => h w) (along_of_forall hspares)
  · exact run_eval Act.step zeroImage savedAndCloned _ (by decide +kernel)

/-- The writes of two containers, and a snapshot of one under the name of the other's base. -/
def takenBase : List (Act Nat) :=
  [.create {} "c1" "web" "mongo" { network := .host }, .write "c1" fun _ => 7,
    .create {} "c2" "db" "mongo" { network := .host }, .write "c2" fun _ => 9,
    .snapshot {} "c1" "c2-clone-base" {}, .clone {} "c2" "c3" "copy" {}]

/-- A snapshot under the root key of a container that is not there, which is deleted. -/
def takenRoot : List (Act Nat) :=
  [.create {} "c1" "web" "mongo" { network := .host }, .snapshot {} "c1" "gone-snapshot" {},
    .delete {} "c1" 0]

/-- The clone of the second container has the content of the first, and the delete of the absent
container removes the snapshot. -/
theorem reserved_keys_taken : Initial zeroImage ∧
    (Along Act.step Act.Generated zeroImage takenBase ∧
      ∃ w, run Act.step zeroImage takenBase = some w ∧
        ((w.containers.lookup "c2").any fun record => record.snapshotKey = "c2-snapshot") ∧
        committedKey (defaultSnapshotter, "c2-clone-base") w.trace = some "c1-snapshot" ∧
        (.prepare defaultSnapshotter "c3-snapshot" "c2-clone-base", none) ∈ w.trace ∧
        seen w "c2" = some 9 ∧ seen w "c3" = some 7) ∧
    (Along Act.step Act.Generated zeroImage takenRoot ∧ validateIdentifier "gone" = .ok () ∧
      ∃ w, run Act.step zeroImage takenRoot = some w ∧
        ((w.snapshots.lookup (defaultSnapshotter, "gone-snapshot")).any
          fun snap => snap.kind = .committed) ∧
        (Act.apply w (.delete {} "gone" 0)).snapshots.lookup
          (defaultSnapshotter, "gone-snapshot") = none) := by
  refine ⟨zeroImage_initial, ⟨by decide +kernel, ?_⟩, by decide +kernel, by decide +kernel, ?_⟩
  · exact run_eval Act.step zeroImage takenBase _ (by decide +kernel)
  · exact run_eval Act.step zeroImage takenRoot _ (by decide +kernel)

end ContainerdManager.System
