import ContainerdManager.Error
import Mathlib.Data.List.AList

/-!
# The snapshotter

What the crate relies on of containerd's snapshot service: `Commit` turns an
active snapshot into a committed one under a new name, `Prepare` makes an
active snapshot on a committed parent, `Remove` deletes a snapshot that has
no children. A failing request changes nothing. The content of a rootfs is
any type `κ`.
-/

namespace ContainerdManager.Containerd

inductive Kind where
  | active
  | committed
  deriving DecidableEq, Repr

/-- The labels of a record, by key. -/
abbrev Labels := AList fun _ : String => String

structure Snapshot (κ : Type) where
  kind : Kind
  /-- Empty for a snapshot without a parent. -/
  parent : String
  labels : Labels
  content : κ

/-- A snapshot lives under its snapshotter and its key. -/
abbrev SnapshotKey := String × String

abbrev Snapshots (κ : Type) := AList fun _ : SnapshotKey => Snapshot κ

namespace Snapshots

variable {κ : Type}

/-- Some snapshot of the snapshotter has `key` for its parent. -/
def HasChild (snaps : Snapshots κ) (snapshotter key : String) : Prop :=
  ∃ e ∈ snaps.entries, e.1.1 = snapshotter ∧ e.2.parent = key

instance (snaps : Snapshots κ) (snapshotter key : String) :
    Decidable (snaps.HasChild snapshotter key) :=
  inferInstanceAs (Decidable (∃ e ∈ snaps.entries, _))

/-- The store after a `Commit`. -/
def committed (snaps : Snapshots κ) (snapshotter name key : String) (snap : Snapshot κ)
    (labels : Labels) : Snapshots κ :=
  (snaps.erase (snapshotter, key)).insert (snapshotter, name)
    { snap with kind := .committed, labels := labels }

/-- The target name is looked up before the active snapshot. -/
def commit (snaps : Snapshots κ) (snapshotter name key : String) (labels : Labels) :
    Except Code (Snapshots κ) :=
  match snaps.lookup (snapshotter, name) with
  | some _ => .error .alreadyExists
  | none =>
    match snaps.lookup (snapshotter, key) with
    | none => .error .notFound
    | some snap =>
      if snap.kind = .active then
        .ok (snaps.committed snapshotter name key snap labels)
      else .error .failedPrecondition

/-- The crate always names a parent. -/
def prepare (snaps : Snapshots κ) (snapshotter key parent : String) (labels : Labels) :
    Except Code (Snapshots κ) :=
  match snaps.lookup (snapshotter, key) with
  | some _ => .error .alreadyExists
  | none =>
    match snaps.lookup (snapshotter, parent) with
    | none => .error .notFound
    | some base =>
      if base.kind = .committed then
        .ok (snaps.insert (snapshotter, key)
          { kind := .active, parent := parent, labels := labels, content := base.content })
      else .error .failedPrecondition

def remove (snaps : Snapshots κ) (snapshotter key : String) : Except Code (Snapshots κ) :=
  match snaps.lookup (snapshotter, key) with
  | none => .error .notFound
  | some _ =>
    if snaps.HasChild snapshotter key then .error .failedPrecondition
    else .ok (snaps.erase (snapshotter, key))

/-- `Mounts` needs an active snapshot; the mounts themselves are opaque to the crate. -/
def mounts (snaps : Snapshots κ) (snapshotter key : String) : Except Code Unit :=
  match snaps.lookup (snapshotter, key) with
  | none => .error .notFound
  | some snap => if snap.kind = .active then .ok () else .error .failedPrecondition

/-! ## What an answered request did -/

theorem prepare_eq_ok {snaps snaps' : Snapshots κ} {snapshotter key parent : String}
    {labels : Labels} (h : snaps.prepare snapshotter key parent labels = .ok snaps') :
    snaps.lookup (snapshotter, key) = none ∧ ∃ base, snaps.lookup (snapshotter, parent) =
      some base ∧
      base.kind = .committed ∧ snaps' = snaps.insert (snapshotter, key)
        { kind := .active, parent := parent, labels := labels, content := base.content } := by
  unfold prepare at h
  split at h
  · cases h
  · rename_i hnone
    split at h
    · cases h
    · rename_i base hbase
      split at h
      · rename_i hkind
        cases h
        exact ⟨hnone, base, hbase, hkind, rfl⟩
      · cases h

theorem commit_eq_ok {snaps snaps' : Snapshots κ} {snapshotter name key : String} {labels : Labels}
    (h : snaps.commit snapshotter name key labels = .ok snaps') :
    snaps.lookup (snapshotter, name) = none ∧ ∃ snap, snaps.lookup (snapshotter, key) = some snap ∧
      snap.kind = .active ∧ snaps' = snaps.committed snapshotter name key snap labels := by
  unfold commit at h
  split at h
  · cases h
  · rename_i hnone
    split at h
    · cases h
    · rename_i snap hsnap
      split at h
      · rename_i hkind
        cases h
        exact ⟨hnone, snap, hsnap, hkind, rfl⟩
      · cases h

theorem remove_eq_ok {snaps snaps' : Snapshots κ} {snapshotter key : String}
    (h : snaps.remove snapshotter key = .ok snaps') :
    (∃ snap, snaps.lookup (snapshotter, key) = some snap) ∧ ¬ snaps.HasChild snapshotter key ∧
      snaps' = snaps.erase (snapshotter, key) := by
  unfold remove at h
  split at h
  · cases h
  · rename_i snap hsnap
    split at h
    · cases h
    · rename_i hchild
      cases h
      exact ⟨⟨snap, hsnap⟩, hchild, rfl⟩

theorem erase_insert_of_free {snaps : Snapshots κ} {loc : SnapshotKey} (snap : Snapshot κ)
    (h : snaps.lookup loc = none) : (snaps.insert loc snap).erase loc = snaps := by
  have hmem : loc ∉ snaps := AList.lookup_eq_none.mp h
  rw [AList.insert_of_notMem hmem]
  exact AList.ext (List.kerase_cons_eq rfl)

theorem mem_iff_lookup {snaps : Snapshots κ} {loc : SnapshotKey} :
    loc ∈ snaps ↔ ∃ snap, snaps.lookup loc = some snap := by
  rw [← AList.lookup_isSome, Option.isSome_iff_exists]

theorem hasChild_iff {snaps : Snapshots κ} {snapshotter key : String} :
    snaps.HasChild snapshotter key ↔
      ∃ k snap, snaps.lookup (snapshotter, k) = some snap ∧ snap.parent = key := by
  constructor
  · rintro ⟨⟨⟨sn, k⟩, snap⟩, he, rfl, hp⟩
    exact ⟨k, snap, AList.mem_lookup_iff.mpr he, hp⟩
  · rintro ⟨k, snap, hl, hp⟩
    exact ⟨⟨(snapshotter, k), snap⟩, AList.mem_lookup_iff.mp hl, rfl, hp⟩

/-! ## Parents -/

/-- containerd keeps every parent that is named, and only committed snapshots are parents. -/
def Rooted (snaps : Snapshots κ) : Prop :=
  ∀ snapshotter key snap, snaps.lookup (snapshotter, key) = some snap → snap.parent = "" ∨
    ∃ base, snaps.lookup (snapshotter, snap.parent) = some base ∧ base.kind = .committed

section Rooted

variable {snaps : Snapshots κ} {snapshotter key : String}

/-- Only a committed snapshot has children. -/
theorem Rooted.eq_empty_of_child (h : Rooted snaps)
    (hkey : ∀ base, snaps.lookup (snapshotter, key) = some base → base.kind = .active)
    (hchild : snaps.HasChild snapshotter key) : key = "" := by
  obtain ⟨k, snap, hl, rfl⟩ := hasChild_iff.mp hchild
  rcases h _ _ _ hl with hempty | ⟨base, hbase, hkind⟩
  · exact hempty
  · rw [hkey base hbase] at hkind
    cases hkind

theorem Rooted.erase (h : Rooted snaps) (hchild : snaps.HasChild snapshotter key → key = "") :
    Rooted (snaps.erase (snapshotter, key)) := by
  intro sn k snap hl
  have hne : (sn, k) ≠ (snapshotter, key) := by
    intro e
    rw [e, AList.lookup_erase] at hl
    cases hl
  rw [AList.lookup_erase_ne hne] at hl
  rcases h sn k snap hl with hempty | ⟨base, hbase, hkind⟩
  · exact .inl hempty
  · by_cases hp : (sn, snap.parent) = (snapshotter, key)
    · obtain ⟨rfl, hkey⟩ := Prod.mk.inj hp
      exact .inl (hkey.trans (hchild (hasChild_iff.mpr ⟨k, snap, hl, hkey⟩)))
    · exact .inr ⟨base, (AList.lookup_erase_ne hp).trans hbase, hkind⟩

theorem Rooted.insert (h : Rooted snaps) (hchild : snaps.HasChild snapshotter key → key = "")
    {snap : Snapshot κ} (hsnap : snap.parent = "" ∨ snap.parent ≠ key ∧
      ∃ base, snaps.lookup (snapshotter, snap.parent) = some base ∧ base.kind = .committed) :
    Rooted (snaps.insert (snapshotter, key) snap) := by
  intro sn k child hl
  by_cases hk : (sn, k) = (snapshotter, key)
  · obtain ⟨rfl, rfl⟩ := Prod.mk.inj hk
    rw [AList.lookup_insert] at hl
    cases hl
    refine hsnap.imp_right fun ⟨hne, base, hbase, hkind⟩ => ⟨base, ?_, hkind⟩
    rw [AList.lookup_insert_ne fun e => hne (Prod.mk.inj e).2]
    exact hbase
  · rw [AList.lookup_insert_ne hk] at hl
    rcases h sn k child hl with hempty | ⟨base, hbase, hkind⟩
    · exact .inl hempty
    · by_cases hp : (sn, child.parent) = (snapshotter, key)
      · obtain ⟨rfl, hkey⟩ := Prod.mk.inj hp
        exact .inl (hkey.trans (hchild (hasChild_iff.mpr ⟨k, child, hl, hkey⟩)))
      · exact .inr ⟨base, (AList.lookup_insert_ne hp).trans hbase, hkind⟩

/-- Another content under an active key. -/
theorem Rooted.write {snap : Snapshot κ} (h : Rooted snaps)
    (hsnap : snaps.lookup (snapshotter, key) = some snap) (hkind : snap.kind = .active) (x : κ) :
    Rooted (snaps.insert (snapshotter, key) { snap with content := x }) := by
  have hactive (b : Snapshot κ) (hb : snaps.lookup (snapshotter, key) = some b) :
      b.kind = .active := by
    rw [hsnap] at hb
    cases hb
    exact hkind
  refine h.insert (h.eq_empty_of_child hactive) ?_
  refine (h _ _ _ hsnap).imp_right fun ⟨base, hbase, hcommitted⟩ => ⟨?_, base, hbase, hcommitted⟩
  rintro rfl
  rw [hactive base hbase] at hcommitted
  cases hcommitted

theorem Rooted.prepare {snaps' : Snapshots κ} {parent : String} {labels : Labels} (h : Rooted snaps)
    (hp : snaps.prepare snapshotter key parent labels = .ok snaps') : Rooted snaps' := by
  obtain ⟨hfree, base, hbase, hkind, rfl⟩ := prepare_eq_ok hp
  refine h.insert (h.eq_empty_of_child fun b hb => ?_) (.inr ⟨?_, base, hbase, hkind⟩)
  · rw [hfree] at hb
    cases hb
  · rintro rfl
    rw [hfree] at hbase
    cases hbase

theorem Rooted.remove {snaps' : Snapshots κ} (h : Rooted snaps)
    (hr : snaps.remove snapshotter key = .ok snaps') : Rooted snaps' := by
  obtain ⟨-, hchild, rfl⟩ := remove_eq_ok hr
  exact h.erase fun hc => absurd hc hchild

theorem Rooted.commit {snaps' : Snapshots κ} {name : String} {labels : Labels} (h : Rooted snaps)
    (hc : snaps.commit snapshotter name key labels = .ok snaps') : Rooted snaps' := by
  obtain ⟨hfree, snap, hsnap, hkind, rfl⟩ := commit_eq_ok hc
  have hname : (snaps.erase (snapshotter, key)).lookup (snapshotter, name) = none := by
    rw [AList.lookup_erase_ne (by rintro e; rw [e, hsnap] at hfree; cases hfree)]
    exact hfree
  have herase : Rooted (snaps.erase (snapshotter, key)) :=
    h.erase (h.eq_empty_of_child fun b hb => by
    rw [hsnap] at hb
    cases hb
    exact hkind)
  refine herase.insert (herase.eq_empty_of_child fun b hb => by rw [hname] at hb; cases hb) ?_
  rcases h _ _ _ hsnap with hempty | ⟨base, hbase, hbaseKind⟩
  · exact .inl hempty
  · -- the parent is committed, the key is not
    have hne : (snapshotter, snap.parent) ≠ (snapshotter, key) := by
      intro e
      rw [e, hsnap] at hbase
      cases hbase
      rw [hkind] at hbaseKind
      cases hbaseKind
    have hbase' := (AList.lookup_erase_ne hne).trans hbase
    refine .inr ⟨?_, base, hbase', hbaseKind⟩
    rintro rfl
    rw [hname] at hbase'
    cases hbase'

/-- An active snapshot can be removed. -/
theorem Rooted.remove_active {snap : Snapshot κ} (h : Rooted snaps) (hkey : key ≠ "")
    (hsnap : snaps.lookup (snapshotter, key) = some snap) (hkind : snap.kind = .active) :
    snaps.remove snapshotter key = .ok (snaps.erase (snapshotter, key)) := by
  have hchild : ¬ snaps.HasChild snapshotter key := by
    refine fun hc => hkey (h.eq_empty_of_child (fun b hb => ?_) hc)
    rw [hsnap] at hb
    cases hb
    exact hkind
  simp only [Snapshots.remove, hsnap, if_neg hchild]

/-- A snapshot that was just prepared can be removed again. -/
theorem Rooted.remove_prepared {snaps' : Snapshots κ} {parent : String} {labels : Labels}
    (h : Rooted snaps) (hkey : key ≠ "")
    (hp : snaps.prepare snapshotter key parent labels = .ok snaps') :
    snaps'.remove snapshotter key = .ok snaps := by
  have hrooted := h.prepare hp
  obtain ⟨hfree, base, -, -, heq⟩ := prepare_eq_ok hp
  have hlookup : snaps'.lookup (snapshotter, key) =
      some { kind := .active, parent := parent, labels := labels, content := base.content } := by
    rw [heq, AList.lookup_insert]
  rw [hrooted.remove_active hkey hlookup rfl, heq, erase_insert_of_free _ hfree]

end Rooted

/-! ## Who holds a content -/

/-- A committed snapshot has this content. -/
def Committed (snaps : Snapshots κ) (x : κ) : Prop :=
  ∃ loc snap, snaps.lookup loc = some snap ∧ snap.kind = .committed ∧ snap.content = x

/-- The content is in the active snapshot `loc` or in a committed one. -/
def Holds (snaps : Snapshots κ) (loc : SnapshotKey) (x : κ) : Prop :=
  (∃ snap, snaps.lookup loc = some snap ∧ snap.kind = .active ∧ snap.content = x) ∨
    snaps.Committed x

section Commit

variable {snaps : Snapshots κ} {snapshotter name key : String} {snap : Snapshot κ} {labels : Labels}
  (hname : snaps.lookup (snapshotter, name) = none)
  (hsnap : snaps.lookup (snapshotter, key) = some snap)

include hname hsnap in
theorem name_ne_key : (snapshotter, name) ≠ (snapshotter, key) := by
  intro e
  rw [e, hsnap] at hname
  cases hname

theorem lookup_committed_name :
    (committed snaps snapshotter name key snap labels).lookup (snapshotter, name) =
      some { snap with kind := .committed, labels := labels } :=
  AList.lookup_insert _

include hname hsnap in
theorem lookup_committed_key :
    (committed snaps snapshotter name key snap labels).lookup (snapshotter, key) = none := by
  rw [committed, AList.lookup_insert_ne (name_ne_key hname hsnap).symm, AList.lookup_erase]

theorem lookup_committed_of_ne {loc : SnapshotKey} (hn : loc ≠ (snapshotter, name))
    (hk : loc ≠ (snapshotter, key)) :
    (committed snaps snapshotter name key snap labels).lookup loc = snaps.lookup loc := by
  rw [committed, AList.lookup_insert_ne hn, AList.lookup_erase_ne hk]

include hname hsnap in
/-- The children of the new name are those it had before, the committed snapshot among them. -/
theorem hasChild_committed :
    (committed snaps snapshotter name key snap labels).HasChild snapshotter name ↔
      snaps.HasChild snapshotter name := by
  rw [hasChild_iff, hasChild_iff]
  constructor
  · rintro ⟨k, child, hl, hp⟩
    by_cases hn : (snapshotter, k) = (snapshotter, name)
    · rw [hn, lookup_committed_name] at hl
      cases hl
      exact ⟨key, snap, hsnap, hp⟩
    · by_cases hk : (snapshotter, k) = (snapshotter, key)
      · rw [hk, lookup_committed_key hname hsnap] at hl
        cases hl
      · rw [lookup_committed_of_ne hn hk] at hl
        exact ⟨k, child, hl, hp⟩
  · rintro ⟨k, child, hl, hp⟩
    by_cases hk : (snapshotter, k) = (snapshotter, key)
    · rw [hk, hsnap] at hl
      cases hl
      exact ⟨name, _, lookup_committed_name, hp⟩
    · have hn : (snapshotter, k) ≠ (snapshotter, name) := by
        intro e
        rw [e, hname] at hl
        cases hl
      exact ⟨k, child, (lookup_committed_of_ne hn hk).trans hl, hp⟩

include hname hsnap in
/-- Once the new name is removed again, the content of the source is held only if another committed
snapshot has it. -/
theorem holds_rolledBack (hkind : snap.kind = .active) (x : κ) :
    Holds ((committed snaps snapshotter name key snap labels).erase (snapshotter, name))
        (snapshotter, key) x ↔ snaps.Committed x := by
  have hkey : ((committed snaps snapshotter name key snap labels).erase (snapshotter, name)).lookup
      (snapshotter, key) = none := by
    rw [AList.lookup_erase_ne (name_ne_key hname hsnap).symm, lookup_committed_key hname hsnap]
  constructor
  · rintro (⟨s, hl, -⟩ | ⟨loc, s, hl, hc, hx⟩)
    · rw [hkey] at hl
      cases hl
    · have hn : loc ≠ (snapshotter, name) := by
        rintro rfl
        rw [AList.lookup_erase] at hl
        cases hl
      have hk : loc ≠ (snapshotter, key) := by
        rintro rfl
        rw [hkey] at hl
        cases hl
      rw [AList.lookup_erase_ne hn, lookup_committed_of_ne hn hk] at hl
      exact ⟨loc, s, hl, hc, hx⟩
  · rintro ⟨loc, s, hl, hc, hx⟩
    have hn : loc ≠ (snapshotter, name) := by
      rintro rfl
      rw [hname] at hl
      cases hl
    have hk : loc ≠ (snapshotter, key) := by
      rintro rfl
      rw [hsnap] at hl
      cases hl
      rw [hkind] at hc
      cases hc
    refine .inr ⟨loc, s, ?_, hc, hx⟩
    rw [AList.lookup_erase_ne hn, lookup_committed_of_ne hn hk]
    exact hl

include hname hsnap in
theorem commit_of_free (hkind : snap.kind = .active) :
    snaps.commit snapshotter name key labels =
      .ok (committed snaps snapshotter name key snap labels) := by
  simp [commit, hname, hsnap, hkind]

include hname hsnap in
theorem prepare_committed (labels labels' : Labels) :
    ∃ snaps', prepare (committed snaps snapshotter name key snap labels) snapshotter key name
      labels' =
      .ok snaps' := by
  simp [prepare, lookup_committed_key hname hsnap, lookup_committed_name]

include hname hsnap in
theorem remove_committed :
    remove (committed snaps snapshotter name key snap labels) snapshotter name =
      if snaps.HasChild snapshotter name then .error .failedPrecondition
      else .ok ((committed snaps snapshotter name key snap labels).erase (snapshotter, name)) := by
  simp only [remove, lookup_committed_name, hasChild_committed hname hsnap]

theorem holds_committed (loc : SnapshotKey) :
    Holds (committed snaps snapshotter name key snap labels) loc snap.content :=
  .inr ⟨_, _, lookup_committed_name, rfl, rfl⟩

end Commit

end Snapshots

end ContainerdManager.Containerd
