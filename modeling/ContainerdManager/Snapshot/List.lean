import ContainerdManager.Containerd.Filters
import ContainerdManager.Snapshot.Restore

/-!
# Listing the named snapshots

`list_snapshots` of `src/snapshot.rs`. containerd streams its answer in
messages, split as it likes (`Streaming`), and reading any of them may fail.
A list that returns is whole: every snapshot under the default snapshotter
that carries the managed label, once.
-/

namespace ContainerdManager.Snapshot

open Lib Lib.GoString Containerd Container

variable {κ α : Type}

/-- What the list reads of a snapshot. -/
structure SnapshotInfo where
  name : String
  image : Option String
  description : Option String
  parent : String
  deriving DecidableEq, Repr

/-- How containerd splits an answer into messages. -/
structure Streaming where
  split : List SnapshotInfo → List (List SnapshotInfo)
  flatten_split : ∀ infos, (split infos).flatten = infos

/-- A request, or a read from a stream, that changes nothing. -/
def ask (client : Client) (answer : World κ → Except Code α) : Op κ (Except Code α) := fun w =>
  .ok (queried client answer w) (w.advance client)

/-- The filter of the request. -/
def managedFilter : String := "labels.\"" ++ managedLabel ++ "\"==1"

def Managed (snap : Containerd.Snapshot κ) : Prop := snap.labels.lookup managedLabel = some "1"

instance (snap : Containerd.Snapshot κ) : Decidable (Managed snap) :=
  inferInstanceAs (Decidable (_ = _))

def snapshotInfo (name : String) (snap : Containerd.Snapshot κ) : SnapshotInfo where
  name := name
  image := snap.labels.lookup imageLabel
  description := snap.labels.lookup descriptionLabel
  parent := snap.parent

/-- What the request selects: the filter goes by the managed label. -/
def managedSnapshots (w : World κ) : List SnapshotInfo :=
  (w.snapshots.entries.filter fun e => e.1.1 = defaultSnapshotter ∧ Managed e.2).map fun e =>
    snapshotInfo e.1.2 e.2

/-- The loop over the messages; the read behind the last one finds the end of the stream. -/
def readMessages (client : Client) : List (List SnapshotInfo) → List SnapshotInfo →
    Op κ (List SnapshotInfo)
  | [], out => do
    match ← ask client fun _ => .ok () with
    | .error code => throw (.containerd "snapshot_list_stream" code)
    | .ok () => return out
  | infos :: messages, out => do
    match ← ask client fun _ => .ok () with
    | .error code => throw (.containerd "snapshot_list_stream" code)
    | .ok () => readMessages client messages (out ++ infos)

def listSnapshots (client : Client) (streaming : Streaming) : Op κ (List SnapshotInfo) := do
  match ← ask client fun w => .ok (streaming.split (managedSnapshots w)) with
  | .error code => throw (.containerd "snapshot_list" code)
  | .ok messages => readMessages client messages []

/-! ## The request -/

/-- **The filter selects by the managed label**, in every dialect that does not take a digit for
whitespace. -/
theorem managedFilter_reads {d : Dialect} (hspace : d.space '1' = false) (ss : List Selector) :
    d.Request [managedFilter] ss ↔ ss = [Dialect.label (managedLabel, "1")] := by
  have hentry : managedFilter =
      String.ofList (Dialect.labelEntry (managedLabel, "1") []) := by decide +kernel
  have hplain : ∀ q ∈ [(managedLabel, "1")], d.Plain q := by
    refine List.forall_mem_singleton.mpr ⟨forall_mem_of_all (by decide), by decide, by decide, ?_⟩
    intro c hc
    have hone : c = '1' := by simpa using hc
    subst hone
    exact ⟨by decide, hspace⟩
  rw [hentry]
  constructor
  · intro h
    cases h with
    | entry h =>
      rw [String.toList_ofList] at h
      exact (Dialect.entry_iff_of_plain hplain ss).mp h
  · rintro rfl
    refine .entry ?_
    rw [String.toList_ofList]
    exact (Dialect.entry_iff_of_plain hplain _).mpr rfl

theorem mem_managedSnapshots {w : World κ} {info : SnapshotInfo} :
    info ∈ managedSnapshots w ↔ ∃ name snap,
      w.snapshots.lookup (defaultSnapshotter, name) = some snap ∧ Managed snap ∧
        info = snapshotInfo name snap := by
  unfold managedSnapshots
  simp only [List.mem_map, List.mem_filter, decide_eq_true_eq]
  constructor
  · rintro ⟨⟨⟨snapshotter, name⟩, snap⟩, ⟨hmem, hsnapshotter, hmanaged⟩, rfl⟩
    cases hsnapshotter
    exact ⟨name, snap, AList.mem_lookup_iff.mpr hmem, hmanaged, rfl⟩
  · rintro ⟨name, snap, hl, hmanaged, rfl⟩
    exact ⟨⟨(defaultSnapshotter, name), snap⟩, ⟨AList.mem_lookup_iff.mp hl, rfl, hmanaged⟩, rfl⟩

/-- No name twice. -/
theorem managedSnapshots_nodup (w : World κ) :
    ((managedSnapshots w).map SnapshotInfo.name).Nodup := by
  have hkeys : ((w.snapshots.entries.filter fun e =>
      e.1.1 = defaultSnapshotter ∧ Managed e.2).map Sigma.fst).Nodup :=
    (List.filter_sublist.map _).nodup w.snapshots.keys_nodup
  have hnames : (managedSnapshots w).map SnapshotInfo.name = ((w.snapshots.entries.filter fun e =>
      e.1.1 = defaultSnapshotter ∧ Managed e.2).map Sigma.fst).map Prod.snd := by
    rw [managedSnapshots, List.map_map, List.map_map]
    rfl
  rw [hnames]
  refine hkeys.map_on fun key hkey key' hkey' h => ?_
  have hdefault : ∀ key ∈ (w.snapshots.entries.filter fun e =>
      e.1.1 = defaultSnapshotter ∧ Managed e.2).map Sigma.fst, key.1 = defaultSnapshotter := by
    intro key hkey
    obtain ⟨e, he, rfl⟩ := List.mem_map.mp hkey
    exact (of_decide_eq_true (List.mem_filter.mp he).2).1
  exact Prod.ext ((hdefault key hkey).trans (hdefault key' hkey').symm) h

/-! ## The answer -/

theorem readMessages_cases (client : Client) (messages : List (List SnapshotInfo))
    (out : List SnapshotInfo) (w : World κ) :
    (∃ w', readMessages client messages out w = .ok (out ++ messages.flatten) w') ∨
    (∃ code n w', client.fault n = some code ∧ readMessages client messages out w =
      .error (.containerd "snapshot_list_stream" code) w') := by
  have hask (w : World κ) : ask client (fun _ => .ok ()) w =
      .ok (queried client (fun _ => .ok ()) w) (w.advance client) := rfl
  induction messages generalizing out w with
  | nil =>
    unfold readMessages
    rw [bind_ok (hask w), queried]
    cases hf : client.fault w.steps with
    | some code => exact .inr ⟨code, w.steps, _, hf, rfl⟩
    | none =>
      refine .inl ⟨w.advance client, ?_⟩
      rw [List.flatten_nil, List.append_nil]
      rfl
  | cons infos messages ih =>
    unfold readMessages
    rw [bind_ok (hask w), queried]
    cases hf : client.fault w.steps with
    | some code => exact .inr ⟨code, w.steps, _, hf, rfl⟩
    | none =>
      have := ih (out ++ infos) (w.advance client)
      rwa [List.append_assoc, ← List.flatten_cons] at this

/-- **A list is whole**, however it is streamed, or fails with the code of the request or the read
that did. -/
theorem listSnapshots_cases (client : Client) (streaming : Streaming) (w : World κ) :
    (∃ w', listSnapshots client streaming w = .ok (managedSnapshots w) w') ∨
    (∃ op code n w', client.fault n = some code ∧
      (op = "snapshot_list" ∨ op = "snapshot_list_stream") ∧
      listSnapshots client streaming w = .error (.containerd op code) w') := by
  have hask : ask client (fun w => .ok (streaming.split (managedSnapshots w))) w =
      .ok (queried client (fun w => .ok (streaming.split (managedSnapshots w))) w)
        (w.advance client) := rfl
  unfold listSnapshots
  rw [bind_ok hask, queried]
  cases hf : client.fault w.steps with
  | some code => exact .inr ⟨_, code, w.steps, _, hf, .inl rfl, rfl⟩
  | none =>
    rcases readMessages_cases client (streaming.split (managedSnapshots w)) [] (w.advance client)
      with ⟨w', hr⟩ | ⟨code, n, w', hn, hr⟩
    · rw [List.nil_append, streaming.flatten_split] at hr
      exact .inl ⟨w', hr⟩
    · exact .inr ⟨_, code, n, w', hn, .inr rfl, hr⟩

end ContainerdManager.Snapshot
