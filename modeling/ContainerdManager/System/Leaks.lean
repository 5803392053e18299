import ContainerdManager.System.Faultless
import ContainerdManager.System.Isolation

/-!
# Snapshots left behind

Runs without faults, with a tally of the containers and the named snapshots
the run has created and not deleted. The tally accounts for every snapshot
the run has added (`Tidy`), so a run that has deleted all it created ends
with the snapshots it began with. What nothing accounts for is left out by
`Act.Leakless`: above all the base that the first clone of a container
commits, which no call removes.
-/

namespace ContainerdManager.System

open Lib Containerd Container Snapshot Clone ContainerdManager.Task

variable {κ : Type}

/-! ## Runs with a tally -/

/-- The containers a run created and has not deleted, and the snapshots it named and
has not deleted. -/
structure Tally (κ : Type) where
  world : World κ
  ids : List String := []
  names : List String := []

/-- The container an act creates. -/
def Act.created (w : World κ) : Act κ → Option String
  | .create client id name image opts =>
      (result (createContainer client id name image opts).run w).toOption
  | .clone client src dst dstName opts =>
      (result (cloneContainer client src dst dstName opts).run w).toOption
  | .restore client name dst dstName opts =>
    (result (restoreContainer client name dst dstName opts).run w).toOption
  | _ => none

/-- The container an act deletes. -/
def Act.deleted (w : World κ) : Act κ → Option String
  | .delete client id timeout =>
      (result (deleteContainer client id timeout).run w).toOption.map fun _ => id
  | _ => none

/-- The snapshot an act names. -/
def Act.named (w : World κ) : Act κ → Option String
  | .snapshot client src name opts =>
      (result (snapshotContainer client src name opts) w).toOption.map fun _ => name
  | _ => none

/-- The named snapshot an act deletes. -/
def Act.unnamed (w : World κ) : Act κ → Option String
  | .deleteSnapshot client name =>
      (result (Snapshot.deleteSnapshot client name) w).toOption.map fun _ => name
  | _ => none

def without (gone : Option String) (l : List String) : List String :=
  l.filter fun x => gone ≠ some x

@[simp] theorem without_none (l : List String) : without none l = l := by
  simp [without]

theorem mem_without {gone : Option String} {l : List String} {x : String} :
    x ∈ without gone l ↔ x ∈ l ∧ gone ≠ some x := by
  simp [without]

def Tally.step (t : Tally κ) (a : Act κ) : Option (Tally κ) :=
  some {
    world := a.apply t.world
    ids := (a.created t.world).toList ++ without (a.deleted t.world) t.ids
    names := (a.named t.world).toList ++ without (a.unnamed t.world) t.names }

def Act.NoFault : Act κ → Prop
  | .create client _ _ _ _ | .clone client _ _ _ _ | .snapshot client _ _ _ |
      .restore client _ _ _ _
  | .reset client _ _ _ | .start client _ | .stop client _ _ | .delete client _ _
  | .deleteSnapshot client _ => Faultless client
  | .write _ _ => True

/-- A generated id is nowhere in the store. -/
structure NewId (w : World κ) (id : String) : Prop where
  record : w.containers.lookup id = none
  key : w.snapshots.lookup (defaultSnapshotter, snapshotKeyFor id) = none

/-- Ids are generated, so no caller has named the key of one before, and only what the
run created is deleted. -/
def Act.InRun (t : Tally κ) : Act κ → Prop
  | .create _ id _ _ opts => NewId t.world id ∧ opts.fromExistingSnapshot ≠ some (snapshotKeyFor id)
  | .clone _ _ dst _ _ | .restore _ _ dst _ _ => NewId t.world dst
  | .delete _ id _ => id ∈ t.ids
  | .deleteSnapshot _ name => name ∈ t.names
  | _ => True

/-- The act leaves no snapshot that nothing accounts for: a create finds a bridge IP, a clone finds
the base of its source, a snapshot is taken where it is looked for when it is deleted, and a reset
replaces a root snapshot that is there. -/
def Act.Leakless (w : World κ) : Act κ → Prop
  | .create _ _ _ _ opts =>
    opts.fromExistingSnapshot = none → opts.network = .bridge → ¬ Exhausted w
  | .clone _ src _ _ _ => ∀ record, w.containers.lookup src = some record →
    record.snapshotter = defaultSnapshotter ∧
      (Active w defaultSnapshotter record.snapshotKey →
        (defaultSnapshotter, cloneBaseFor src) ∈ w.snapshots)
  | .snapshot _ src _ _ => ∀ record, w.containers.lookup src = some record →
    record.snapshotter = defaultSnapshotter
  | .reset _ id name _ => ∀ record, w.containers.lookup id = some record →
    ∀ snap, w.snapshots.lookup (record.snapshotter, name) = some snap →
      snap.kind = .committed ∧ record.snapshotKey ≠ name ∧
        (record.snapshotter, record.snapshotKey) ∈ w.snapshots
  | _ => True

section Decide

variable {o : Option κ}

instance decidableForallSome {p : κ → Prop} [DecidablePred p] : Decidable (∀ x, o = some x → p x) :=
  match o with
  | none => .isTrue nofun
  | some x => decidable_of_iff (p x) ⟨fun h _ e => Option.some.inj e ▸ h, fun h => h x rfl⟩

variable (w : World κ)

instance : Decidable (Exhausted w) :=
  decidable_of_iff (∀ octet ∈ List.range' 2 253, octet ∈ usedOctets w) (by
    simp only [Exhausted, List.mem_range'_1]
    exact ⟨fun h o h2 h254 => h o ⟨h2, by omega⟩, fun h o ho => h o ho.1 (by omega)⟩)

instance (snapshotter key : String) : Decidable (Active w snapshotter key) :=
  decidable_of_iff ((w.snapshots.lookup (snapshotter, key)).any fun snap => snap.kind = .active) (by
    simp [Active, Option.any_eq_true])

instance (id : String) : Decidable (NewId w id) :=
  decidable_of_iff (_ ∧ _) ⟨fun h => ⟨h.1, h.2⟩, fun h => ⟨h.record, h.key⟩⟩

instance (t : Tally κ) : (a : Act κ) → Decidable (a.InRun t)
  | .create _ _ _ _ _ => inferInstanceAs (Decidable (NewId _ _ ∧ _ ≠ _))
  | .clone _ _ _ _ _ | .restore _ _ _ _ _ => inferInstanceAs (Decidable (NewId _ _))
  | .delete _ _ _ | .deleteSnapshot _ _ => inferInstanceAs (Decidable (_ ∈ _))
  | .snapshot _ _ _ _ | .reset _ _ _ _ | .start _ _ | .stop _ _ _ | .write _ _ => .isTrue trivial

instance : (a : Act κ) → Decidable (a.Leakless w)
  | .create _ _ _ _ _ => inferInstanceAs (Decidable (_ → _ → ¬ Exhausted w))
  | .clone _ _ _ _ _ =>
      inferInstanceAs (Decidable (∀ record, _ = some record → _ ∧ (Active _ _ _ → _)))
  | .snapshot _ _ _ _ => inferInstanceAs (Decidable (∀ record, _ = some record → _ = _))
  | .reset _ _ _ _ =>
    inferInstanceAs (Decidable (∀ record, _ = some record → ∀ snap, _ = some snap → _ ∧ _ ∧ _))
  | .restore _ _ _ _ _ | .start _ _ | .stop _ _ _ | .delete _ _ _ | .deleteSnapshot _ _
  | .write _ _ => .isTrue trivial

end Decide

/-! ## The invariant -/

/-- The container uses the root snapshot made for it. -/
def Owns (w : World κ) (id : String) : Prop :=
  ∃ record, w.containers.lookup id = some record ∧ record.snapshotKey = snapshotKeyFor id

/-- An active snapshot without labels, as a `Prepare` makes it. -/
def Plain (snaps : Snapshots κ) (loc : SnapshotKey) : Prop :=
  ∃ snap, snaps.lookup loc = some snap ∧ snap.kind = .active ∧ snap.labels = ∅

/-- Every snapshot that was not there `before` is the root snapshot of one of the
containers or one of the names. -/
structure Tidy (before : SnapshotKey → Prop) (ids names : List String) (w : World κ) : Prop where
  rooted : w.snapshots.Rooted
  kept : ∀ loc, before loc → loc ∈ w.snapshots
  accounted : ∀ loc ∈ w.snapshots, before loc ∨
    (∃ id ∈ ids, loc = (defaultSnapshotter, snapshotKeyFor id) ∧ Owns w id) ∨
    ∃ name ∈ names, loc = (defaultSnapshotter, name)
  records : ∀ id ∈ ids, ∀ record, w.containers.lookup id = some record →
    record.snapshotter = defaultSnapshotter
  own : ∀ id ∈ ids, Owns w id → Plain w.snapshots (defaultSnapshotter, snapshotKeyFor id)
  newKeys : ∀ id ∈ ids, ¬ before (defaultSnapshotter, snapshotKeyFor id)
  newNames : ∀ name ∈ names, ¬ before (defaultSnapshotter, name)

theorem owns_congr {w w' : World κ} {id : String}
    (h : w'.containers.lookup id = w.containers.lookup id) : Owns w' id ↔ Owns w id := by
  unfold Owns
  rw [h]

theorem Plain.mem {snaps : Snapshots κ} {loc : SnapshotKey} (h : Plain snaps loc) :
    loc ∈ snaps := by
  obtain ⟨snap, hl, -⟩ := h
  exact Snapshots.mem_iff_lookup.mpr ⟨snap, hl⟩

theorem plain_prepare {snaps snaps' : Snapshots κ} {snapshotter key parent : String}
    (h : snaps.prepare snapshotter key parent ∅ = .ok snaps') :
    Plain snaps' (snapshotter, key) := by
  obtain ⟨-, base, -, -, rfl⟩ := Snapshots.prepare_eq_ok h
  exact ⟨_, AList.lookup_insert _, rfl, rfl⟩

theorem plain_congr {snaps snaps' : Snapshots κ} {loc : SnapshotKey}
    (h : snaps'.lookup loc = snaps.lookup loc) : Plain snaps' loc ↔ Plain snaps loc := by
  unfold Plain
  rw [h]

theorem mem_congr {snaps snaps' : Snapshots κ} {loc : SnapshotKey}
    (h : snaps'.lookup loc = snaps.lookup loc) : loc ∈ snaps' ↔ loc ∈ snaps := by
  rw [Snapshots.mem_iff_lookup, Snapshots.mem_iff_lookup, h]

section Tidy

variable {before : SnapshotKey → Prop} {ids names : List String} {w w' : World κ}

/-- A change of snapshots only: what is new is named, and what is gone had only a name. -/
theorem Tidy.change {names' : List String} (h : Tidy before ids names w)
    (hconts : w'.containers = w.containers) (hrooted : w'.snapshots.Rooted)
    (hplain : ∀ loc, Plain w.snapshots loc → Plain w'.snapshots loc)
    (hkept : ∀ loc ∈ w.snapshots, before loc → loc ∈ w'.snapshots)
    (hadded : ∀ loc ∈ w'.snapshots, loc ∈ w.snapshots ∨
      ∃ name ∈ names', loc = (defaultSnapshotter, name))
    (hnames : ∀ name ∈ names, (defaultSnapshotter, name) ∈ w'.snapshots → name ∈ names')
    (hnew : ∀ name ∈ names', ¬ before (defaultSnapshotter, name)) : Tidy before ids names' w' := by
  have howns (id : String) : Owns w' id ↔ Owns w id := owns_congr (by rw [hconts])
  refine ⟨hrooted, fun loc hloc => hkept loc (h.kept loc hloc) hloc, fun loc hloc => ?_, ?_,
    fun id hid ho => hplain _ (h.own id hid ((howns id).mp ho)), h.newKeys, hnew⟩
  · rcases hadded loc hloc with hold | hname
    · rcases h.accounted loc hold with hb | ⟨id, hid, heq, ho⟩ | ⟨name, hname, rfl⟩
      · exact .inl hb
      · exact .inr (.inl ⟨id, hid, heq, (howns id).mpr ho⟩)
      · exact .inr (.inr ⟨name, hnames name hname hloc, rfl⟩)
    · exact .inr (.inr hname)
  · rw [hconts]
    exact h.records

theorem Tidy.of_sameStore (h : Tidy before ids names w) (hs : SameStore w w') :
    Tidy before ids names w' := by
  refine h.change hs.containers ?_ ?_ ?_ ?_
    (fun _ hname _ => hname) h.newNames <;> rw [hs.snapshots]
  · exact h.rooted
  · exact fun _ hp => hp
  · exact fun _ hloc _ => hloc
  · exact fun _ hloc => .inl hloc

/-- A snapshot adds its name and nothing else. -/
theorem Tidy.saved {record : ContainerRecord} {name : String} (h : Tidy before ids names w)
    (hs : Saved record name w w') (hsn : record.snapshotter = defaultSnapshotter) :
    Tidy before ids (name :: names) w' := by
  obtain ⟨hconts, labels, snaps, hcommit, hprep⟩ := hs
  have hplainKey := plain_prepare hprep
  have hrooted := (h.rooted.commit hcommit).prepare hprep
  obtain ⟨hfree, snap, hsnap, -, hsnaps⟩ := Snapshots.commit_eq_ok hcommit
  obtain ⟨-, base, -, -, hsnaps'⟩ := Snapshots.prepare_eq_ok hprep
  have hother (loc : SnapshotKey) (hn : loc ≠ (record.snapshotter, name))
      (hk : loc ≠ (record.snapshotter, record.snapshotKey)) :
      w'.snapshots.lookup loc = w.snapshots.lookup loc := by
    rw [hsnaps', AList.lookup_insert_ne hk, hsnaps, Snapshots.lookup_committed_of_ne hn hk]
  have hname : (record.snapshotter, name) ∉ w.snapshots := AList.lookup_eq_none.mp hfree
  refine h.change hconts hrooted (fun loc hp => ?_) (fun loc hloc _ => ?_) (fun loc hloc => ?_)
    (fun n hn _ => List.mem_cons_of_mem name hn) fun n hn => ?_
  · by_cases hk : loc = (record.snapshotter, record.snapshotKey)
    · exact hk ▸ hplainKey
    · have hn : loc ≠ (record.snapshotter, name) := fun e => hname (e ▸ hp.mem)
      exact (plain_congr (hother loc hn hk)).mpr hp
  · by_cases hk : loc = (record.snapshotter, record.snapshotKey)
    · exact hk ▸ hplainKey.mem
    · have hn : loc ≠ (record.snapshotter, name) := fun e => hname (e ▸ hloc)
      exact (mem_congr (hother loc hn hk)).mpr hloc
  · by_cases hn : loc = (record.snapshotter, name)
    · exact .inr ⟨name, List.mem_cons_self, by rw [hn, hsn]⟩
    by_cases hk : loc = (record.snapshotter, record.snapshotKey)
    · exact .inl (hk ▸ Snapshots.mem_iff_lookup.mpr ⟨snap, hsnap⟩)
    · exact .inl ((mem_congr (hother loc hn hk)).mp hloc)
  · rcases List.mem_cons.mp hn with rfl | hn
    · intro hb
      rw [hsn] at hname
      exact hname (h.kept _ hb)
    · exact h.newNames n hn

/-- A reset puts a new snapshot under a key that was there. -/
theorem Tidy.replaced {record : ContainerRecord} {name : String} (h : Tidy before ids names w)
    (hr : Replaced record name w w') : Tidy before ids names w' := by
  obtain ⟨hconts, snaps, hremove, hprep⟩ := hr
  have hplainKey := plain_prepare hprep
  have hrooted := (h.rooted.remove hremove).prepare hprep
  obtain ⟨⟨snap, hsnap⟩, -, hsnaps⟩ := Snapshots.remove_eq_ok hremove
  obtain ⟨-, base, -, -, hsnaps'⟩ := Snapshots.prepare_eq_ok hprep
  have hother (loc : SnapshotKey) (hk : loc ≠ (record.snapshotter, record.snapshotKey)) :
      w'.snapshots.lookup loc = w.snapshots.lookup loc := by
    rw [hsnaps', AList.lookup_insert_ne hk, hsnaps, AList.lookup_erase_ne hk]
  refine h.change hconts hrooted (fun loc hp => ?_) (fun loc hloc _ => ?_) (fun loc hloc => .inl ?_)
    (fun n hn _ => hn) h.newNames
  all_goals by_cases hk : loc = (record.snapshotter, record.snapshotKey)
  · exact hk ▸ hplainKey
  · exact (plain_congr (hother loc hk)).mpr hp
  · exact hk ▸ hplainKey.mem
  · exact (mem_congr (hother loc hk)).mpr hloc
  · exact hk ▸ Snapshots.mem_iff_lookup.mpr ⟨snap, hsnap⟩
  · exact (mem_congr (hother loc hk)).mp hloc

/-- A named snapshot is no root snapshot: it has labels. -/
theorem Tidy.unnamed {name : String} {names' : List String} (h : Tidy before ids names w)
    (hu : Unnamed name w w') (hname : name ∈ names) (hsub : ∀ n ∈ names', n ∈ names)
    (hrest : ∀ n ∈ names, n ≠ name → n ∈ names') : Tidy before ids names' w' := by
  obtain ⟨hconts, hremove, snap, hsnap, hlabel⟩ := hu
  have hrooted := h.rooted.remove hremove
  obtain ⟨-, -, hsnaps⟩ := Snapshots.remove_eq_ok hremove
  have hother (loc : SnapshotKey) (hk : loc ≠ (defaultSnapshotter, name)) :
      w'.snapshots.lookup loc = w.snapshots.lookup loc := by
    rw [hsnaps, AList.lookup_erase_ne hk]
  have hgone : (defaultSnapshotter, name) ∉ w'.snapshots := by
    rw [hsnaps]
    exact AList.lookup_eq_none.mp (AList.lookup_erase _ _)
  refine h.change hconts hrooted (fun loc hp => ?_) (fun loc hloc hb => ?_)
    (fun loc hloc => .inl ?_)
    (fun n hn hin => ?_) fun n hn => h.newNames n (hsub n hn)
  · refine (plain_congr (hother loc ?_)).mpr hp
    rintro rfl
    obtain ⟨s, hs, -, hempty⟩ := hp
    rw [hsnap] at hs
    cases hs
    rw [hempty] at hlabel
    cases hlabel
  · refine (mem_congr (hother loc ?_)).mpr hloc
    rintro rfl
    exact h.newNames name hname hb
  · refine (mem_congr (hother loc ?_)).mp hloc
    rintro rfl
    exact hgone hloc
  · refine hrest n hn ?_
    rintro rfl
    exact hgone hin

/-- A write changes a content. -/
theorem Tidy.write (h : Tidy before ids names w) (id : String) (f : κ → κ) :
    Tidy before ids names (writeLayer id f w) := by
  unfold writeLayer
  split
  · exact h
  rename_i record hrecord
  split
  · exact h
  rename_i snap hsnap
  split
  swap
  · exact h
  rename_i hkind
  have hmem (loc : SnapshotKey) : loc ∈ (w.snapshots.insert (record.snapshotter, record.snapshotKey)
      { snap with content := f snap.content } : Snapshots κ) ↔ loc ∈ w.snapshots := by
    rw [AList.mem_insert, or_iff_right_iff_imp]
    rintro rfl
    exact Snapshots.mem_iff_lookup.mpr ⟨snap, hsnap⟩
  refine h.change rfl (h.rooted.write hsnap hkind _) (fun loc hp => ?_)
    (fun loc hloc _ => (hmem loc).mpr hloc) (fun loc hloc => .inl ((hmem loc).mp hloc))
      (fun n hn _ => hn) h.newNames
  by_cases hk : loc = (record.snapshotter, record.snapshotKey)
  · subst hk
    obtain ⟨s, hs, -, hlabels⟩ := hp
    rw [hsnap] at hs
    cases hs
    exact ⟨_, AList.lookup_insert _, hkind, hlabels⟩
  · exact (plain_congr (AList.lookup_insert_ne hk)).mpr hp

/-- A new container: if it has a snapshot under its own key, it uses it. -/
theorem Tidy.created {id : String} {record : ContainerRecord} (h : Tidy before ids names w)
    (hid : NewId w id) (hconts : w'.containers = w.containers.insert id record)
    (hsn : record.snapshotter = defaultSnapshotter) (hrooted : w'.snapshots.Rooted)
    (hother : ∀ loc, loc ≠ (defaultSnapshotter, snapshotKeyFor id) →
      w'.snapshots.lookup loc = w.snapshots.lookup loc)
    (hplain : record.snapshotKey = snapshotKeyFor id →
      Plain w'.snapshots (defaultSnapshotter, snapshotKeyFor id))
    (hused : (defaultSnapshotter, snapshotKeyFor id) ∈ w'.snapshots →
      record.snapshotKey = snapshotKeyFor id) : Tidy before (id :: ids) names w' := by
  have hfree : (defaultSnapshotter, snapshotKeyFor id) ∉ w.snapshots :=
    AList.lookup_eq_none.mp hid.key
  have hrec : w'.containers.lookup id = some record := by
    rw [hconts, AList.lookup_insert]
  have hrecs (id' : String) (hne : id' ≠ id) :
      w'.containers.lookup id' = w.containers.lookup id' := by
    rw [hconts, AList.lookup_insert_ne hne]
  have hkeys {id' : String} (hne : id' ≠ id) : (defaultSnapshotter, snapshotKeyFor id') ≠
      (defaultSnapshotter, snapshotKeyFor id) :=
        fun e => hne (snapshotKeyFor_injective (Prod.mk.inj e).2)
  refine ⟨hrooted, fun loc hb => ?_, fun loc hloc => ?_, fun id' hid' r hr => ?_,
    fun id' hid' ho => ?_,
    fun id' hid' hb => ?_, h.newNames⟩
  · have hloc := h.kept loc hb
    exact (mem_congr (hother loc fun e => hfree (e ▸ hloc))).mpr hloc
  · by_cases hk : loc = (defaultSnapshotter, snapshotKeyFor id)
    · exact .inr (.inl ⟨id, List.mem_cons_self, hk, record, hrec, hused (hk ▸ hloc)⟩)
    · refine (h.accounted loc ((mem_congr (hother loc hk)).mp hloc)).imp_right (Or.imp_left ?_)
      rintro ⟨id', hid', rfl, ho⟩
      have hne : id' ≠ id := fun e => hk (by rw [e])
      exact ⟨id', List.mem_cons_of_mem id hid', rfl, (owns_congr (hrecs id' hne)).mpr ho⟩
  · by_cases hne : id' = id
    · subst hne
      rw [hrec] at hr
      cases hr
      exact hsn
    · rw [hrecs id' hne] at hr
      exact h.records id' ((List.mem_cons.mp hid').resolve_left hne) r hr
  · by_cases hne : id' = id
    · subst hne
      obtain ⟨r, hr, hkey⟩ := ho
      rw [hrec] at hr
      cases hr
      exact hplain hkey
    · refine (plain_congr (hother _ (hkeys hne))).mpr ?_
      exact h.own id' ((List.mem_cons.mp hid').resolve_left hne)
        ((owns_congr (hrecs id' hne)).mp ho)
  · rcases List.mem_cons.mp hid' with rfl | hid'
    · exact hfree (h.kept _ hb)
    · exact h.newKeys id' hid' hb

theorem Tidy.recorded {id key : String} (h : Tidy before ids names w) (hid : NewId w id)
    (hr : Recorded id key w w') (hkey : key ≠ snapshotKeyFor id) :
    Tidy before (id :: ids) names w' := by
  obtain ⟨hsnaps, record, hsn, rfl, hconts⟩ := hr
  refine h.created hid hconts hsn (by rw [hsnaps]; exact h.rooted) (fun loc _ => by rw [hsnaps])
    (fun e => absurd e hkey) fun hin => ?_
  rw [hsnaps] at hin
  exact absurd hin (AList.lookup_eq_none.mp hid.key)

theorem Tidy.newContainer {id : String} (h : Tidy before ids names w) (hid : NewId w id)
    (hb : NewContainer id w w') : Tidy before (id :: ids) names w' := by
  obtain ⟨⟨parent, hprep⟩, record, hsn, hkey, hconts⟩ := hb
  refine h.created hid hconts hsn (h.rooted.prepare hprep) (fun loc hloc => ?_)
    (fun _ => plain_prepare hprep) fun _ => hkey
  obtain ⟨-, base, -, -, hsnaps⟩ := Snapshots.prepare_eq_ok hprep
  rw [hsnaps, AList.lookup_insert_ne hloc]

/-- A removal of a container of the run: an active root snapshot goes with the record. -/
theorem Tidy.dropped {snapshotter id : String} (h : Tidy before ids names w) (hid : id ∈ ids)
    (hd : Dropped snapshotter id w w')
    (hrecord : ∀ record, w.containers.lookup id = some record → snapshotter = record.snapshotter)
    (hdefault : w.containers.lookup id = none → snapshotter = defaultSnapshotter) :
    Tidy before ids names w' := by
  obtain rfl : snapshotter = defaultSnapshotter := by
    cases hl : w.containers.lookup id with
    | none => exact hdefault hl
    | some record => exact (hrecord record hl).trans (h.records id hid record hl)
  obtain ⟨hgone, hothers, hsnaps⟩ := hd
  have hne {id' : String} (ho : Owns w' id') : id' ≠ id := by
    rintro rfl
    obtain ⟨r, hr, -⟩ := ho
    rw [hgone] at hr
    cases hr
  have hkeys {id' : String} (hne : id' ≠ id) : (defaultSnapshotter, snapshotKeyFor id') ≠
      (defaultSnapshotter, snapshotKeyFor id) :=
        fun e => hne (snapshotKeyFor_injective (Prod.mk.inj e).2)
  -- the key is gone, or it was no key of the container
  have hother : w'.snapshots.Rooted ∧ (∀ loc, loc ≠ (defaultSnapshotter, snapshotKeyFor id) →
        w'.snapshots.lookup loc = w.snapshots.lookup loc) ∧
      ((defaultSnapshotter, snapshotKeyFor id) ∈ w'.snapshots →
        (defaultSnapshotter, snapshotKeyFor id) ∈ w.snapshots ∧ ¬ Owns w id) := by
    rcases hsnaps with hremove | ⟨hsame, code, hremove⟩
    · refine ⟨h.rooted.remove hremove, ?_⟩
      obtain ⟨-, -, hsnaps⟩ := Snapshots.remove_eq_ok hremove
      rw [hsnaps]
      refine ⟨fun loc hloc => AList.lookup_erase_ne hloc, fun hin => ?_⟩
      exact absurd (AList.lookup_erase _ _) (fun e => AList.lookup_eq_none.mp e hin)
    · rw [hsame]
      refine ⟨h.rooted, fun _ _ => rfl, fun hin => ⟨hin, fun ho => ?_⟩⟩
      obtain ⟨snap, hsnap, hkind, -⟩ := h.own id hid ho
      cases (h.rooted.remove_active (snapshotKeyFor_ne_empty id) hsnap hkind).symm.trans hremove
  obtain ⟨hrooted, hother, hleft⟩ := hother
  refine ⟨hrooted, fun loc hb => ?_, fun loc hloc => ?_, fun id' hid' r hr => ?_,
    fun id' hid' ho => ?_,
    h.newKeys, h.newNames⟩
  · refine (mem_congr (hother loc ?_)).mpr (h.kept loc hb)
    rintro rfl
    exact h.newKeys id hid hb
  · have hin : loc ∈ w.snapshots := by
      by_cases hk : loc = (defaultSnapshotter, snapshotKeyFor id)
      · subst hk
        exact (hleft hloc).1
      · exact (mem_congr (hother loc hk)).mp hloc
    refine (h.accounted loc hin).imp_right (Or.imp_left ?_)
    rintro ⟨id', hid', rfl, ho⟩
    have hne' : id' ≠ id := by
      rintro rfl
      exact (hleft hloc).2 ho
    exact ⟨id', hid', rfl, (owns_congr (hothers id' hne')).mpr ho⟩
  · have hne' : id' ≠ id := by
      rintro rfl
      rw [hgone] at hr
      cases hr
    rw [hothers id' hne'] at hr
    exact h.records id' hid' r hr
  · refine (plain_congr (hother _ (hkeys (hne ho)))).mpr ?_
    exact h.own id' hid' ((owns_congr (hothers id' (hne ho))).mp ho)

/-- A container that is gone accounts for nothing. -/
theorem Tidy.forget {ids' : List String} (h : Tidy before ids names w)
    (hsub : ∀ id ∈ ids', id ∈ ids)
    (hgone : ∀ id ∈ ids, id ∉ ids' → w.containers.lookup id = none) : Tidy before ids' names w := by
  refine ⟨h.rooted, h.kept, fun loc hloc => ?_, fun id hid => h.records id (hsub id hid),
    fun id hid => h.own id (hsub id hid), fun id hid => h.newKeys id (hsub id hid), h.newNames⟩
  refine (h.accounted loc hloc).imp_right (Or.imp_left ?_)
  rintro ⟨id, hid, rfl, record, hrecord, hkey⟩
  refine ⟨id, ?_, rfl, record, hrecord, hkey⟩
  by_contra hnot
  rw [hgone id hid hnot] at hrecord
  cases hrecord

/-! ## One act -/

/-- A call that creates a container or nothing. -/
theorem Tidy.of_create {m : Op κ String} {id : String} (h : Tidy before ids names w)
    (hm : AllOrNothing m w fun r w' => r = id ∧ Tidy before (id :: ids) names w') :
    Tidy before ((result m w).toOption.toList ++ ids) names (after m w) := by
  rcases hm with ⟨e, w', hr, hs⟩ | ⟨r, w', hr, rfl, htidy⟩
  · rw [result_error hr, after_error hr]
    exact h.of_sameStore hs
  · rw [result_ok hr, after_ok hr]
    exact htidy

theorem Tidy.of_newContainer {m : Op κ String} {id : String} (h : Tidy before ids names w)
    (hid : NewId w id) (hm : AllOrNothing m w fun r w' => r = id ∧ NewContainer id w w') :
    Tidy before ((result m w).toOption.toList ++ ids) names (after m w) :=
  h.of_create (hm.mono fun _ _ hr => ⟨hr.1, h.newContainer hid hr.2⟩)

theorem Tidy.create {client : Client} {id name image : String} {opts : CreateContainerOpts}
    (h : Tidy before ids names w) (hf : Faultless client) (hid : NewId w id)
    (hfrom : opts.fromExistingSnapshot ≠ some (snapshotKeyFor id))
    (hfree : opts.fromExistingSnapshot = none → opts.network = .bridge → ¬ Exhausted w) :
    AllOrNothing (createContainer client id name image opts).run w
      fun r w' => r = id ∧ Tidy before (id :: ids) names w' := by
  unfold createContainer
  split
  · exact .inl ⟨_, w, rfl, Std.Refl.refl w⟩
  cases hexisting : opts.fromExistingSnapshot with
  | none =>
    exact (createWithId_provides hf hid.record hexisting (hfree hexisting)).mono
      fun r w' ⟨hr, hb⟩ => ⟨hr, h.newContainer hid hb⟩
  | some key =>
    exact (createWithId_adopts hf id name image hid.record hexisting).mono
      fun r w' ⟨hr, hrec⟩ => ⟨hr, h.recorded hid hrec fun e => hfrom (hexisting.trans (by rw [e]))⟩

/-- A delete, whatever its outcome, and then what a successful one forgets. -/
theorem Tidy.delete {client : Client} {id : String} (timeout : Nat) (h : Tidy before ids names w)
    (hf : Faultless client) (hid : id ∈ ids) :
    Tidy before (without
      ((result (deleteContainer client id timeout).run w).toOption.map fun _ => id)
      ids) names (after (deleteContainer client id timeout).run w) := by
  let R := fun w w' : World κ => Tidy before ids names w → Tidy before ids names w'
  have : Std.Refl R := ⟨fun _ h => h⟩
  have : IsTrans (World κ) R := ⟨fun _ _ _ h h' htidy => h' (h htidy)⟩
  have hkeeps : Keeps R (deleteContainer (κ := κ) client id timeout).run := by
    refine deleteContainer_keeps
      (fun _ _ hcalm htidy => htidy.of_sameStore hcalm.toSameStore) ?_ timeout
    intro w htidy
    obtain ⟨snapshotter, hrecord, hdefault, hd⟩ := removeContainer_drops hf id w
    exact htidy.dropped hid hd hrecord hdefault
  refine (hkeeps w h).forget (fun id' hid' => (mem_without.mp hid').1) fun id' hid' hnot => ?_
  cases hr : (deleteContainer client id timeout).run w with
  | error e w' =>
    rw [result_error hr] at hnot
    exact (hnot (mem_without.mpr ⟨hid', fun e => by cases e⟩)).elim
  | ok _ w' =>
    rw [result_ok hr] at hnot
    obtain rfl : id = id' := by
      by_contra hne
      exact hnot (mem_without.mpr ⟨hid', fun e => hne (Option.some.inj e)⟩)
    rw [after_ok hr]
    exact deleteContainer_gone hf id hr

end Tidy

/-- **One act keeps the account.** -/
theorem tidy_step {before : SnapshotKey → Prop} {t t' : Tally κ} {a : Act κ}
    (h : Tidy before t.ids t.names t.world) (hf : a.NoFault) (hin : a.InRun t)
    (hl : a.Leakless t.world) (hs : t.step a = some t') : Tidy before t'.ids t'.names t'.world := by
  cases hs
  cases a with
  | create client id name image opts =>
    simp only [Act.created, Act.deleted, Act.named, Act.unnamed, without_none]
    exact h.of_create (h.create hf hin.1 hin.2 hl)
  | clone client src dst dstName opts =>
    simp only [Act.created, Act.deleted, Act.named, Act.unnamed, without_none]
    exact h.of_newContainer hin (cloneContainer_outcome hf h.rooted hin.record hl)
  | restore client name dst dstName opts =>
    simp only [Act.created, Act.deleted, Act.named, Act.unnamed, without_none]
    exact h.of_newContainer hin (restoreContainer_outcome hf h.rooted hin.record)
  | snapshot client src name opts =>
    simp only [Act.created, Act.deleted, Act.named, Act.unnamed, Act.apply, without_none]
    rcases snapshotContainer_outcome hf src name opts with
      ⟨e, w', hr, hsame⟩ | ⟨_, w', hr, record, hrec, hsaved⟩
    · rw [result_error hr, after_error hr]
      exact h.of_sameStore hsame
    · rw [result_ok hr, after_ok hr]
      exact h.saved hsaved (hl record hrec)
  | reset client id name opts =>
    simp only [Act.created, Act.deleted, Act.named, Act.unnamed, without_none]
    rcases resetToSnapshot_outcome hf id name opts hl with hsame | ⟨record, -, hr⟩
    · exact h.of_sameStore hsame
    · exact h.replaced hr
  | start client id =>
    simp only [Act.created, Act.deleted, Act.named, Act.unnamed, without_none]
    exact h.of_sameStore (startContainer_keeps t.world).toSameStore
  | stop client id timeout =>
    simp only [Act.created, Act.deleted, Act.named, Act.unnamed, without_none]
    exact h.of_sameStore (stopContainer_keeps t.world).toSameStore
  | delete client id timeout =>
    simp only [Act.created, Act.deleted, Act.named, Act.unnamed, without_none]
    exact h.delete timeout hf hin
  | deleteSnapshot client name =>
    simp only [Act.created, Act.deleted, Act.named, Act.unnamed, Act.apply, without_none]
    rcases deleteSnapshot_outcome hf name with ⟨e, w', hr, hsame⟩ | ⟨_, w', hr, hu⟩
    · rw [result_error hr, after_error hr]
      simp only [Except.toOption, Option.map_none, without_none]
      exact h.of_sameStore hsame
    · rw [result_ok hr, after_ok hr]
      refine h.unnamed hu hin (fun n hn => (mem_without.mp hn).1) fun n hn hne => ?_
      exact mem_without.mpr ⟨hn, fun e => hne (Option.some.inj e).symm⟩
  | write id f =>
    simp only [Act.created, Act.deleted, Act.named, Act.unnamed, without_none]
    exact h.write id f

/-! ## Whole runs -/

/-- **No snapshot is left behind.** In every run without faults that deletes all the containers
and all the named snapshots it created, and whose acts are all leakless, the snapshots at the
end are those of the beginning. -/
theorem no_snapshot_leaks (w₀ : World κ) (h₀ : w₀.snapshots.Rooted) (acts : List (Act κ))
    (hfault : ∀ a ∈ acts, a.NoFault)
    (hin : Along Tally.step (fun t a => a.InRun t) { world := w₀ } acts)
    (hleakless : Along Tally.step (fun t a => a.Leakless t.world) { world := w₀ } acts)
    (t : Tally κ) (hr : run Tally.step { world := w₀ } acts = some t) (hids : t.ids = [])
    (hnames : t.names = []) :
    ∀ loc, loc ∈ t.world.snapshots ↔ loc ∈ w₀.snapshots := by
  have htidy₀ : Tidy (· ∈ w₀.snapshots) [] [] w₀ :=
    ⟨h₀, fun _ h => h, fun _ h => .inl h, nofun, nofun, nofun, nofun⟩
  have htidy : Tidy (· ∈ w₀.snapshots) t.ids t.names t.world :=
    run_inv (I := fun t => Tidy (· ∈ w₀.snapshots) t.ids t.names t.world)
      (fun _ _ _ h ⟨⟨hin, hl⟩, hf⟩ hs => tidy_step h hf hin hl hs) htidy₀
      (along_and (along_and hin hleakless) (along_of_forall hfault)) hr
  rw [hids, hnames] at htidy
  refine fun loc => ⟨fun hloc => ?_, htidy.kept loc⟩
  rcases htidy.accounted loc hloc with hb | ⟨id, hid, -⟩ | ⟨name, hname, -⟩
  · exact hb
  · cases hid
  · cases hname

/-! ## A run that leaves nothing and one that leaves a clone base -/

theorem faultless_default : Faultless {} := ⟨fun _ => rfl, fun _ => rfl, fun _ => ⟨49152, rfl⟩⟩

theorem oneImage_rooted : oneImage.snapshots.Rooted := by
  intro snapshotter key snap h
  by_cases hk : (snapshotter, key) = (defaultSnapshotter, "chain")
  · rw [oneImage, hk, AList.lookup_insert] at h
    cases h
    exact .inl rfl
  · rw [oneImage, AList.lookup_insert_ne hk] at h
    cases h

/-- A container is saved, restored under another name and reset, and everything is deleted. -/
def savedAndDeleted : List (Act Unit) :=
  [.create {} "c1" "web" "mongo" { network := .host }, .snapshot {} "c1" "saved" {},
    .restore {} "saved" "c2" "copy" { network := some .host }, .reset {} "c1" "saved" {},
    .delete {} "c2" 0, .delete {} "c1" 0, .deleteSnapshot {} "saved"]

theorem savedAndDeleted_leaves_nothing :
    ∃ t, run Tally.step { world := oneImage } savedAndDeleted = some t ∧
    t.ids = [] ∧ t.names = [] ∧ ∀ loc, loc ∈ t.world.snapshots ↔ loc ∈ oneImage.snapshots := by
  obtain ⟨t, hr, hids, hnames⟩ := run_eval Tally.step { world := oneImage } savedAndDeleted
    (fun t => t.ids = [] ∧ t.names = []) (by decide +kernel)
  refine ⟨t, hr, hids, hnames, ?_⟩
  refine no_snapshot_leaks oneImage oneImage_rooted savedAndDeleted ?_ ?_ ?_ t hr hids hnames
  · simp only [savedAndDeleted, List.forall_mem_cons]
    exact ⟨faultless_default, faultless_default, faultless_default, faultless_default,
      faultless_default, faultless_default, faultless_default, nofun⟩
  · decide +kernel
  · decide +kernel

/-- A container is cloned, and both are deleted. -/
def clonedAndDeleted : List (Act Unit) :=
  [.create {} "c1" "web" "mongo" { network := .host }, .clone {} "c1" "c2" "copy" {},
    .delete {} "c2" 0, .delete {} "c1" 0]

/-- The base of the clone is still there. -/
theorem clone_base_left :
    ¬ ∀ (w₀ : World Unit), w₀.snapshots.Rooted → ∀ acts : List (Act Unit), (∀ a ∈ acts, a.NoFault) →
      Along Tally.step (fun t a => a.InRun t) { world := w₀ } acts →
      ∀ t, run Tally.step { world := w₀ } acts = some t → t.ids = [] → t.names = [] →
        ∀ loc, loc ∈ t.world.snapshots ↔ loc ∈ w₀.snapshots := by
  intro h
  obtain ⟨t, hr, hids, hnames, hbase⟩ := run_eval Tally.step { world := oneImage } clonedAndDeleted
    (fun t => t.ids = [] ∧ t.names = [] ∧
      (defaultSnapshotter, cloneBaseFor "c1") ∈ t.world.snapshots)
    (by decide +kernel)
  have hfault : ∀ a ∈ clonedAndDeleted, a.NoFault := by
    simp only [clonedAndDeleted, List.forall_mem_cons]
    exact ⟨faultless_default, faultless_default, faultless_default, faultless_default, nofun⟩
  have hleft := (h oneImage oneImage_rooted clonedAndDeleted hfault
    (by decide +kernel) t hr hids hnames
    (defaultSnapshotter, cloneBaseFor "c1")).mp hbase
  exact absurd hleft (by decide +kernel)

end ContainerdManager.System
