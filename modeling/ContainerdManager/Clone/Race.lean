import ContainerdManager.Clone.Base
import ContainerdManager.Clone.Errors
import ContainerdManager.Lib.Pool

/-!
# Clones of one source that race

Any number of `clone_container` calls on one source take turns, without
faults. The `Commit` of the base is won by at most one of them: `Phase` says
how far it has come, and the invariant ties it to the store and to the
requests made so far. Between the winner's `Commit` and its `Prepare` the
source's key is missing; no other call looks at it then, since a `Commit`
finds the base first.
-/

namespace ContainerdManager.Clone

open Lib Containerd Container Snapshot ContainerdManager.Task

/-- Calls on one source, none of which meets a fault; the generated ids are distinct. -/
structure Clones (ι : Type) where
  src : String
  record : ContainerRecord
  client : ι → Client
  dst : ι → String
  dstName : ι → String
  opts : ι → CloneContainerOpts
  faultless : ∀ i n, (client i).fault n = none
  distinct : Function.Injective dst

variable {ι κ : Type}

namespace Clones

variable (C : Clones ι)

def key : SnapshotKey := (C.record.snapshotter, C.record.snapshotKey)

def base : SnapshotKey := (C.record.snapshotter, cloneBaseFor C.src)

/-- The snapshot of clone `i`. -/
def loc (i : ι) : SnapshotKey := (C.record.snapshotter, snapshotKeyFor (C.dst i))

def commitCall : Call := .commit C.record.snapshotter (cloneBaseFor C.src) C.record.snapshotKey

def statCall : Call := .stat C.record.snapshotter (cloneBaseFor C.src)

/-- The `Prepare` of the snapshot of clone `i`. -/
def prepareCall (i : ι) : Call :=
  .prepare C.record.snapshotter (snapshotKeyFor (C.dst i)) (cloneBaseFor C.src)

/-- An active snapshot whose parent is the base. -/
def OnBase (w : World κ) (l : SnapshotKey) : Prop :=
  ∃ snap, w.snapshots.lookup l = some snap ∧ snap.kind = .active ∧ snap.parent = cloneBaseFor C.src

/-- The calls are about to begin: the source is ready and no snapshot of a clone is there. -/
structure Start (w : World κ) : Prop extends SourceReady C.src C.record w where
  free : ∀ i, w.snapshots.lookup (C.loc i) = none
  trace : w.trace = []

def pool (w : World κ) : Pool ι (World κ) Error String where
  state := w
  progs i := cloneContainer (C.client i) C.src (C.dst i) (C.dstName i) (C.opts i)

end Clones

/-! ## Keys -/

theorem snapshotKeyFor_injective : Function.Injective snapshotKeyFor := by
  intro a b h
  have hl := congrArg String.toList h
  simp only [snapshotKeyFor, String.toList_append] at hl
  exact String.toList_inj.mp (List.append_cancel_right hl)

theorem cloneBaseFor_injective : Function.Injective cloneBaseFor := by
  intro a b h
  have hl := congrArg String.toList h
  simp only [cloneBaseFor, String.toList_append] at hl
  exact String.toList_inj.mp (List.append_cancel_right hl)

theorem getLast_snapshotKeyFor (id : String) : (snapshotKeyFor id).toList.getLast? = some 't' := by
  rw [snapshotKeyFor, String.toList_append, List.getLast?_append_of_ne_nil _ (by decide)]
  decide

theorem getLast_cloneBaseFor (src : String) : (cloneBaseFor src).toList.getLast? = some 'e' := by
  rw [cloneBaseFor, String.toList_append, List.getLast?_append_of_ne_nil _ (by decide)]
  decide

theorem snapshotKeyFor_ne_base (id src : String) : snapshotKeyFor id ≠ cloneBaseFor src := by
  intro h
  have hl := congrArg (fun s : String => s.toList.getLast?) h
  simp only [getLast_snapshotKeyFor, getLast_cloneBaseFor] at hl
  revert hl
  decide

namespace Clones

variable (C : Clones ι)

theorem loc_ne_base (i : ι) : C.loc i ≠ C.base := fun h =>
  snapshotKeyFor_ne_base _ _ (Prod.mk.inj h).2

theorem loc_injective : Function.Injective C.loc := fun _ _ h =>
  C.distinct (snapshotKeyFor_injective (Prod.mk.inj h).2)

end Clones

/-! ## The agreement -/

/-- How far the `Commit` of the base has come. -/
inductive Phase (ι : Type) where
  /-- The base was there from the start. -/
  | existing
  | fresh
  /-- The winner has committed the base and not yet prepared the source again. -/
  | committed (winner : ι)
  | ready

def Phase.commits : Phase ι → Nat
  | .existing | .fresh => 0
  | .committed _ | .ready => 1

structure Race (ι : Type) where
  phase : Phase ι
  /-- The call has looked for the base in vain and not yet tried to commit it. -/
  pending : ι → Bool

namespace Clones

variable (C : Clones ι)

/-- The outcomes the `Stat`, `Commit` and `Prepare` requests may have. -/
def Fine : Call × Option Code → Prop
  | (.stat .., outcome) => outcome = none ∨ outcome = some .notFound
  | (.commit .., outcome) => outcome = none ∨ outcome = some .alreadyExists
  | (.prepare .., outcome) => outcome = none
  | _ => True

/-- What the phase says about base and source. -/
def Store (w : World κ) : Phase ι → Prop
  | .existing => IsCommitted w C.base.1 C.base.2 ∧ Active w C.key.1 C.key.2
  | .fresh => w.snapshots.lookup C.base = none ∧ Active w C.key.1 C.key.2
  | .committed _ => IsCommitted w C.base.1 C.base.2 ∧ w.snapshots.lookup C.key = none
  | .ready => IsCommitted w C.base.1 C.base.2 ∧ C.OnBase w C.key

structure Inv (w : World κ) (c : Race ι) : Prop where
  found : w.containers.lookup C.src = some C.record
  store : C.Store w c.phase
  commits : w.trace.count (C.commitCall, none) = c.phase.commits
  stats : c.phase = .fresh → (∃ outcome, (C.statCall, outcome) ∈ w.trace) → ∃ i, c.pending i = true
  fine : ∀ entry ∈ w.trace, Fine entry

/-- How call `i` may move the phase on. -/
def PhaseStep (i : ι) (phase phase' : Phase ι) : Prop :=
  phase' = phase ∨ phase = .fresh ∧ phase' = .committed i ∨ phase = .committed i ∧ phase' = .ready

/-- What call `i` may do: the others keep their snapshots. -/
structure Moves (i : ι) (w : World κ) (c : Race ι) (w' : World κ) (c' : Race ι) : Prop where
  trace : Grows w w'
  locs : ∀ j, j ≠ i → w'.snapshots.lookup (C.loc j) = w.snapshots.lookup (C.loc j)
  pending : ∀ j, j ≠ i → c'.pending j = c.pending j
  phase : PhaseStep i c.phase c'.phase

def proto : Proto ι (World κ) (Race ι) where
  inv := C.Inv
  guar := C.Moves

/-- An assertion of call `i` about its own snapshot, its own mark and the phase. -/
def Mine (i : ι) (φ : Option (Snapshot κ) → Bool → Phase ι → Prop) (w : World κ) (c : Race ι) :
    Prop :=
  φ (w.snapshots.lookup (C.loc i)) (c.pending i) c.phase

theorem stable_mine {i : ι} {φ : Option (Snapshot κ) → Bool → Phase ι → Prop}
    (h : ∀ j, j ≠ i → ∀ snap mark phase phase', PhaseStep j phase phase' → φ snap mark phase →
      φ snap mark phase') : Stable C.proto i (C.Mine i φ) := by
  intro j hj w c w' c' _ hg _ hP
  unfold Mine
  rw [hg.locs i (Ne.symm hj), hg.pending i (Ne.symm hj)]
  exact h j hj _ _ _ _ hg.phase hP

theorem phaseStep_ne_committed {i j : ι} (hj : j ≠ i) {phase phase' : Phase ι}
    (h : PhaseStep j phase phase') (hne : phase ≠ .committed i) : phase' ≠ .committed i := by
  rcases h with rfl | ⟨-, rfl⟩ | ⟨-, rfl⟩
  · exact hne
  · intro he
    cases he
    exact hj rfl
  · exact nofun

theorem phaseStep_ne_fresh {j : ι} {phase phase' : Phase ι} (h : PhaseStep j phase phase')
    (hne : phase ≠ .fresh) : phase' ≠ .fresh := by
  rcases h with rfl | ⟨-, rfl⟩ | ⟨-, rfl⟩
  · exact hne
  · exact nofun
  · exact nofun

theorem phaseStep_committed {i j : ι} (hj : j ≠ i) {phase phase' : Phase ι}
    (h : PhaseStep j phase phase') (he : phase = .committed i) : phase' = .committed i := by
  subst he
  rcases h with rfl | ⟨hf, -⟩ | ⟨hc, -⟩
  · rfl
  · cases hf
  · cases hc
    exact absurd rfl hj

/-! ## Where a call is -/

/-- Not yet at the base. -/
def Before (i : ι) : World κ → Race ι → Prop :=
  C.Mine i fun snap mark phase => snap = none ∧ mark = false ∧ phase ≠ .committed i

/-- The base was not there. -/
def Pending (i : ι) : World κ → Race ι → Prop :=
  C.Mine i fun snap mark phase => snap = none ∧ mark = true ∧ phase ≠ .committed i

/-- It committed the base. -/
def Won (i : ι) : World κ → Race ι → Prop :=
  C.Mine i fun snap mark phase => snap = none ∧ mark = false ∧ phase = .committed i

/-- The base is there. -/
def Based (i : ι) : World κ → Race ι → Prop :=
  C.Mine i fun snap mark phase => snap = none ∧ mark = false ∧ phase ≠ .fresh ∧ phase ≠ .committed i

/-- Its snapshot is there, on the base. -/
def Cloned (i : ι) : World κ → Race ι → Prop :=
  C.Mine i fun snap mark phase =>
    (∃ s, snap = some s ∧ s.kind = .active ∧ s.parent = cloneBaseFor C.src) ∧
      mark = false ∧ phase ≠ .committed i

/-- Nothing is left for it to do at the base. -/
def Ended (i : ι) : World κ → Race ι → Prop :=
  C.Mine i fun _ mark phase => mark = false ∧ phase ≠ .committed i

theorem stable_before (i : ι) : Stable C.proto i (C.Before (κ := κ) i) :=
  C.stable_mine fun _ hj _ _ _ _ hs ⟨h1, h2, h3⟩ => ⟨h1, h2, phaseStep_ne_committed hj hs h3⟩

theorem stable_pending (i : ι) : Stable C.proto i (C.Pending (κ := κ) i) :=
  C.stable_mine fun _ hj _ _ _ _ hs ⟨h1, h2, h3⟩ => ⟨h1, h2, phaseStep_ne_committed hj hs h3⟩

theorem stable_won (i : ι) : Stable C.proto i (C.Won (κ := κ) i) :=
  C.stable_mine fun _ hj _ _ _ _ hs ⟨h1, h2, h3⟩ => ⟨h1, h2, phaseStep_committed hj hs h3⟩

theorem stable_based (i : ι) : Stable C.proto i (C.Based (κ := κ) i) :=
  C.stable_mine fun _ hj _ _ _ _ hs ⟨h1, h2, h3, h4⟩ =>
    ⟨h1, h2, phaseStep_ne_fresh hs h3, phaseStep_ne_committed hj hs h4⟩

theorem stable_cloned (i : ι) : Stable C.proto i (C.Cloned (κ := κ) i) :=
  C.stable_mine fun _ hj _ _ _ _ hs ⟨h1, h2, h3⟩ => ⟨h1, h2, phaseStep_ne_committed hj hs h3⟩

/-- The `Prepare` of its snapshot went through. -/
def Prepared (i : ι) (w : World κ) : Prop := (C.prepareCall i, none) ∈ w.trace

theorem prepared_grows (i : ι) (j : ι) (w : World κ) (c : Race ι) (w' : World κ) (c' : Race ι)
    (hg : C.proto.guar j w c w' c') (h : C.Prepared i w) : C.Prepared i w' :=
  hg.trace.subset h

/-- Its snapshot is there, as its `Prepare` left it. -/
def Made (i : ι) (w : World κ) (c : Race ι) : Prop := C.Cloned i w c ∧ C.Prepared i w

theorem stable_ended (i : ι) : Stable C.proto i (C.Ended (κ := κ) i) :=
  C.stable_mine fun _ hj _ _ _ _ hs ⟨h2, h3⟩ => ⟨h2, phaseStep_ne_committed hj hs h3⟩

theorem stable_made (i : ι) : Stable C.proto i (C.Made (κ := κ) i) :=
  fun j hj w c w' c' hi hg hi' h =>
    ⟨C.stable_cloned i j hj w c w' c' hi hg hi' h.1, C.prepared_grows i j w c w' c' hg h.2⟩

/-! ## Steps that leave the snapshots alone -/

/-- A `Stat`, `Commit` or `Prepare`. -/
def racing : Call → Bool
  | .stat .. | .commit .. | .prepare .. => true
  | _ => false

/-- Snapshots are as they were, records are still there, and no request was one of the three. -/
structure Aside (w w' : World κ) : Prop where
  snapshots : w'.snapshots = w.snapshots
  records : ∀ id record, w.containers.lookup id = some record →
    w'.containers.lookup id = some record
  trace : ∃ new, w'.trace = w.trace ++ new ∧ ∀ entry ∈ new, racing entry.1 = false

theorem Aside.of_calm {w w' : World κ} (h : Calm w w') : Aside w w' := by
  obtain ⟨new, ht, hcalm⟩ := h.trace
  refine ⟨h.snapshots, fun id r hr => by rw [h.containers]; exact hr, new, ht, fun e he => ?_⟩
  have hc := hcalm e he
  revert hc
  cases e.1 <;> simp [Call.calm, racing]

theorem Aside.grows {w w' : World κ} (h : Aside w w') : Grows w w' := by
  obtain ⟨new, ht, -⟩ := h.trace
  exact ⟨new, ht.symm⟩

theorem Aside.noted (client : Client) (w : World κ) (call : Call) (outcome : Option Code)
    (h : racing call = false) : Aside w (w.noted client call outcome) :=
  ⟨rfl, fun _ _ hr => hr, [(call, outcome)], rfl, by simpa using h⟩

theorem fine_of_not_racing {entry : Call × Option Code} (h : racing entry.1 = false) :
    Fine entry := by
  obtain ⟨call, outcome⟩ := entry
  cases call <;> trivial

theorem Inv.of_aside {w w' : World κ} {c : Race ι} (h : C.Inv w c) (ha : Aside w w') :
    C.Inv w' c := by
  obtain ⟨new, ht, hnew⟩ := ha.trace
  have hnot (call : Call) (hc : racing call = true) (outcome : Option Code) :
      (call, outcome) ∉ new := by
    intro hm
    have := hnew _ hm
    rw [hc] at this
    cases this
  refine ⟨ha.records _ _ h.found, ?_, ?_, fun hp hs => h.stats hp ?_, fun entry he => ?_⟩
  · have hstore := h.store
    cases hphase : c.phase <;> rw [hphase] at hstore <;>
      simpa only [Store, IsCommitted, Active, OnBase, ha.snapshots] using hstore
  · rw [ht, List.count_append, h.commits, List.count_eq_zero.mpr (hnot _ rfl none), Nat.add_zero]
  · obtain ⟨outcome, hm⟩ := hs
    rw [ht, List.mem_append] at hm
    exact ⟨outcome, hm.resolve_right (hnot _ rfl outcome)⟩
  · rw [ht, List.mem_append] at he
    rcases he with he | he
    · exact h.fine entry he
    · exact fine_of_not_racing (hnew entry he)

theorem Mine.of_aside {i : ι} {φ : Option (Snapshot κ) → Bool → Phase ι → Prop} {w w' : World κ}
    {c : Race ι} (h : C.Mine i φ w c) (ha : Aside w w') : C.Mine i φ w' c := by
  unfold Mine at *
  rwa [ha.snapshots]

theorem Moves.of_aside {i : ι} {w w' : World κ} (c : Race ι) (ha : Aside w w') :
    C.Moves i w c w' c :=
  ⟨ha.grows, fun _ _ => by rw [ha.snapshots], fun _ _ => rfl, .inl rfl⟩

/-- A program that leaves the snapshots alone keeps what its call knows. -/
theorem safe_aside {α : Type} {i : ι} {φ : Option (Snapshot κ) → Bool → Phase ι → Prop}
    {p : Proc κ α} (hp : p.Steps Aside) (hst : Stable C.proto i (C.Mine i φ)) :
    Safe C.proto i (fun _ => C.Mine i φ) (C.Mine i φ) p :=
  .steps hp hst fun _ c _ hi hP _ ha => ⟨c, hi.of_aside C ha, .of_aside C c ha, hP.of_aside C ha⟩

/-! ## The requests on snapshots -/

/-- The phase depends on base and source only. -/
theorem Store.of_lookup {w w' : World κ} {phase : Phase ι} (h : C.Store w phase)
    (hb : w'.snapshots.lookup C.base = w.snapshots.lookup C.base)
    (hk : w'.snapshots.lookup C.key = w.snapshots.lookup C.key) : C.Store w' phase := by
  have hb' : w'.snapshots.lookup (C.base.1, C.base.2) =
      w.snapshots.lookup (C.base.1, C.base.2) := hb
  have hk' : w'.snapshots.lookup (C.key.1, C.key.2) = w.snapshots.lookup (C.key.1, C.key.2) := hk
  cases phase <;> simpa only [Store, IsCommitted, Active, OnBase, hb, hk, hb', hk'] using h

/-- The base is there in every phase but one. -/
theorem Store.base_isSome {w : World κ} {phase : Phase ι} (h : C.Store w phase) :
    w.snapshots.lookup C.base = none ↔ phase = .fresh := by
  cases phase with
  | fresh => exact ⟨fun _ => rfl, fun _ => h.1⟩
  | existing | committed | ready =>
    obtain ⟨⟨b, hb, -⟩, -⟩ := h
    refine ⟨fun hn => ?_, nofun⟩
    rw [show w.snapshots.lookup C.base = some b from hb] at hn
    cases hn

/-- A request that leaves base, source and phase as they are. -/
theorem Inv.push {w w' : World κ} {c c' : Race ι} {entry : Call × Option Code} (h : C.Inv w c)
    (hrecs : w'.containers = w.containers) (htrace : w'.trace = w.trace ++ [entry])
    (hb : w'.snapshots.lookup C.base = w.snapshots.lookup C.base)
    (hk : w'.snapshots.lookup C.key = w.snapshots.lookup C.key) (hphase : c'.phase = c.phase)
    (hfine : Fine entry) (hcommit : entry ≠ (C.commitCall, none))
    (hstats : c.phase = .fresh → (∃ o, (C.statCall, o) ∈ w.trace ++ [entry]) →
      ∃ i, c'.pending i = true) :
    C.Inv w' c' := by
  refine ⟨by rw [hrecs]; exact h.found, ?_, ?_, fun hp hs => hstats (hphase ▸ hp) (htrace ▸ hs), ?_⟩
  · rw [hphase]
    exact h.store.of_lookup C hb hk
  · rw [htrace, List.count_append, h.commits, hphase, List.count_singleton]
    simp [hcommit]
  · intro e he
    rw [htrace, List.mem_append, List.mem_singleton] at he
    rcases he with he | rfl
    · exact h.fine e he
    · exact hfine

/-- What holds after a request, by its answer. -/
def Answered {α : Type} (good : World κ → Race ι → Prop) (bad : Code → World κ → Race ι → Prop) :
    Except Error (Except Code α) → World κ → Race ι → Prop
  | .ok (.ok _) => good
  | .ok (.error code) => bad code
  | .error _ => fun _ _ => False

theorem stable_answered {α : Type} {i : ι} {good : World κ → Race ι → Prop}
    {bad : Code → World κ → Race ι → Prop} (hg : Stable C.proto i good)
    (hb : ∀ code, Stable C.proto i (bad code)) (r : Except Error (Except Code α)) :
    Stable C.proto i (Answered good bad r) := by
  rcases r with e | code | a
  · exact .never
  · exact hb code
  · exact hg

/-- A `Stat` finds the base, or the call has a commit to try. -/
theorem safe_stat [DecidableEq ι] (i : ι) :
    Safe C.proto i (Answered (C.Based i) fun code w c => code = .notFound ∧ C.Pending i w c)
      (C.Before (κ := κ) i)
      (call (statSnapshot (C.client i) C.record.snapshotter (cloneBaseFor C.src))) := by
  refine .atomic (C.stable_answered (C.stable_based i) fun _ => (C.stable_pending i).and_const _)
    fun w c hi ⟨hnone, hmark, hphase⟩ _ => ?_
  rcases statSnapshot_cases (C.client i) w C.record.snapshotter (cloneBaseFor C.src) with
    ⟨snap, hsnap, hr⟩ | ⟨code, hc, hr⟩
  · have hfresh : c.phase ≠ .fresh := by
      intro hf
      have hn := (hi.store.base_isSome C).mpr hf
      rw [show w.snapshots.lookup C.base = some snap from hsnap] at hn
      cases hn
    rw [after_ok hr, result_ok hr]
    refine ⟨c, hi.push C rfl rfl rfl rfl rfl (.inl rfl) ?_ fun hf => absurd hf hfresh,
      ⟨List.prefix_append _ _, fun _ _ => rfl, fun _ _ => rfl, .inl rfl⟩, hnone, hmark, hfresh,
      hphase⟩
    exact nofun
  · obtain ⟨rfl, hmissing⟩ : code = .notFound ∧ w.snapshots.lookup C.base = none := by
      rcases hc with hc | ⟨-, hcode, hmissing⟩
      · rw [C.faultless] at hc
        cases hc
      · exact ⟨hcode, hmissing⟩
    rw [after_ok hr, result_ok hr]
    refine ⟨{ c with pending := Function.update c.pending i true },
      hi.push C rfl rfl rfl rfl rfl (.inr rfl) ?_ fun _ _ => ⟨i, Function.update_self ..⟩,
      ⟨List.prefix_append _ _, fun _ _ => rfl, fun j hj => Function.update_of_ne hj .., .inl rfl⟩,
      rfl, hnone, Function.update_self .., hphase⟩
    exact nofun

section Requests

variable (hkb : C.key ≠ C.base) (hkl : ∀ i, C.key ≠ C.loc i)

include hkl in
/-- A `Commit` wins, or finds the base. -/
theorem safe_commit [DecidableEq ι] (i : ι) :
    Safe C.proto i (Answered (C.Won i) fun code w c => code = .alreadyExists ∧ C.Based i w c)
      (C.Pending (κ := κ) i)
      (call (commitActive (C.client i) C.record.snapshotter (cloneBaseFor C.src)
        C.record.snapshotKey)) := by
  refine .atomic (C.stable_answered (C.stable_won i) fun _ => (C.stable_based i).and_const _)
    fun w c hi ⟨hnone, hmark, hphase⟩ _ => ?_
  rcases commitActive_cases (C.client i) w C.record.snapshotter (cloneBaseFor C.src)
      C.record.snapshotKey with ⟨snap, -, hmissing, hsnap, -, hr⟩ | ⟨code, hc, hr⟩
  · have hfresh := (hi.store.base_isSome C).mp hmissing
    have hcommits : w.trace.count (C.commitCall, none) = 0 := by
      rw [hi.commits, hfresh]
      rfl
    rw [after_ok hr, result_ok hr]
    refine ⟨{ phase := .committed i, pending := Function.update c.pending i false }, ?_, ?_, ?_⟩
    · refine ⟨hi.found, ⟨⟨_, Snapshots.lookup_committed_name, rfl⟩,
        Snapshots.lookup_committed_key hmissing hsnap⟩, ?_, nofun, fun e he => ?_⟩
      · show (w.trace ++ [(C.commitCall, none)]).count (C.commitCall, none) = 1
        rw [List.count_append, hcommits, List.count_singleton_self]
      · rcases List.mem_append.mp he with he | he
        · exact hi.fine e he
        · rw [List.mem_singleton.mp he]
          exact .inl rfl
    · refine ⟨List.prefix_append _ _,
        fun j _ => Snapshots.lookup_committed_of_ne (C.loc_ne_base j) (hkl j).symm,
        fun j hj => Function.update_of_ne hj .., .inr (.inl ⟨hfresh, rfl⟩)⟩
    · exact ⟨(Snapshots.lookup_committed_of_ne (C.loc_ne_base i) (hkl i).symm).trans hnone,
        Function.update_self .., rfl⟩
  · have hans : w.snapshots.commit C.record.snapshotter
        (cloneBaseFor C.src) C.record.snapshotKey ∅ =
        .error code := by
      rcases hc with hc | ⟨-, hc⟩
      · rw [C.faultless] at hc
        cases hc
      · exact hc
    have hfresh : c.phase ≠ .fresh := by
      intro hf
      have hstore := hi.store
      rw [hf] at hstore
      obtain ⟨hmissing, snap, hsnap, hkind⟩ := hstore
      cases hans.symm.trans (Snapshots.commit_of_free hmissing hsnap hkind)
    have hcode : code = .alreadyExists := by
      cases hb : w.snapshots.lookup C.base with
      | none => exact absurd ((hi.store.base_isSome C).mp hb) hfresh
      | some b =>
        rw [Snapshots.commit,
          show w.snapshots.lookup (C.record.snapshotter, cloneBaseFor C.src) = some b
          from hb] at hans
        cases hans
        rfl
    rw [after_ok hr, result_ok hr]
    refine ⟨{ c with pending := Function.update c.pending i false },
      hi.push C rfl rfl rfl rfl rfl (.inr (by rw [hcode])) ?_ fun hf => absurd hf hfresh,
      ⟨List.prefix_append _ _, fun _ _ => rfl, fun j hj => Function.update_of_ne hj .., .inl rfl⟩,
      hcode, hnone, Function.update_self .., hfresh, hphase⟩
    simp

/-- Without faults a `Prepare` of a free key on the committed base goes through. -/
theorem prepare_ok (i : ι) {w : World κ} {key : String}
    (hb : IsCommitted w C.base.1 C.base.2)
    (hfree : w.snapshots.lookup (C.record.snapshotter, key) = none) :
    ∃ snap, snap.kind = .active ∧ snap.parent = cloneBaseFor C.src ∧
      prepareSnapshot (C.client i) C.record.snapshotter key (cloneBaseFor C.src) w =
        .ok (.ok ()) { w.noted (C.client i)
          (.prepare C.record.snapshotter key (cloneBaseFor C.src)) none
          with snapshots := w.snapshots.insert (C.record.snapshotter, key) snap } := by
  obtain ⟨b, hlook, hkind⟩ := hb
  rcases prepareSnapshot_cases (C.client i) w C.record.snapshotter key (cloneBaseFor C.src) with
    ⟨base, -, -, -, -, hr⟩ | ⟨code, hc, -⟩
  · exact ⟨_, rfl, rfl, hr⟩
  · rcases hc with hc | ⟨-, hc⟩
    · rw [C.faultless] at hc
      cases hc
    · rw [Snapshots.prepare, hfree,
        show w.snapshots.lookup (C.record.snapshotter, cloneBaseFor C.src) =
        some b from hlook] at hc
      simp only [if_pos hkind] at hc
      cases hc

include hkb hkl in
/-- The winner prepares the source again. -/
theorem safe_reprepare (i : ι) :
    Safe C.proto i (Answered (C.Based i) fun _ _ _ => False) (C.Won (κ := κ) i)
      (call (prepareSnapshot (C.client i) C.record.snapshotter C.record.snapshotKey
        (cloneBaseFor C.src))) := by
  refine .atomic (C.stable_answered (C.stable_based i) fun _ => .never)
    fun w c hi ⟨hnone, hmark, hphase⟩ _ => ?_
  have hstore := hi.store
  rw [hphase] at hstore
  obtain ⟨snap, hkind, hparent, hr⟩ := C.prepare_ok i hstore.1 hstore.2
  have hbase : (w.snapshots.insert C.key snap).lookup C.base = w.snapshots.lookup C.base :=
    AList.lookup_insert_ne hkb.symm
  have hloc (j : ι) : (w.snapshots.insert C.key snap).lookup (C.loc j) =
      w.snapshots.lookup (C.loc j) :=
    AList.lookup_insert_ne (hkl j).symm
  rw [after_ok hr, result_ok hr]
  refine ⟨{ c with phase := .ready }, ⟨hi.found, ⟨?_, ?_⟩, ?_, nofun, ?_⟩, ?_, ?_⟩
  · obtain ⟨b, hlook, hb⟩ := hstore.1
    exact ⟨b, hbase.trans hlook, hb⟩
  · exact ⟨snap, AList.lookup_insert _, hkind, hparent⟩
  · show (w.trace ++ [_]).count (C.commitCall, none) = 1
    rw [List.count_append, hi.commits, hphase, List.count_singleton]
    rfl
  · intro e he
    rcases List.mem_append.mp he with he | he
    · exact hi.fine e he
    · rw [List.mem_singleton.mp he]
      exact rfl
  · exact ⟨List.prefix_append _ _, fun j _ => hloc j, fun _ _ => rfl, .inr (.inr ⟨hphase, rfl⟩)⟩
  · exact ⟨(hloc i).trans hnone, hmark, nofun, nofun⟩

include hkl in
/-- The clone's own snapshot. -/
theorem safe_prepareClone (i : ι) :
    Safe C.proto i (Answered (C.Made i) fun _ _ _ => False) (C.Based (κ := κ) i)
      (call (prepareSnapshot (C.client i) C.record.snapshotter (snapshotKeyFor (C.dst i))
        (cloneBaseFor C.src))) := by
  refine .atomic (C.stable_answered (C.stable_made i) fun _ => .never)
    fun w c hi ⟨hnone, hmark, hfresh, hphase⟩ _ => ?_
  have hb : IsCommitted w C.base.1 C.base.2 := by
    have hstore := hi.store
    cases hp : c.phase with
    | fresh => exact absurd hp hfresh
    | existing | committed | ready =>
      rw [hp] at hstore
      exact hstore.1
  obtain ⟨snap, hkind, hparent, hr⟩ := C.prepare_ok i hb hnone
  rw [after_ok hr, result_ok hr]
  refine ⟨c, hi.push C rfl rfl (AList.lookup_insert_ne (C.loc_ne_base i).symm)
    (AList.lookup_insert_ne (hkl i)) rfl rfl nofun fun hf => absurd hf hfresh, ?_, ?_⟩
  · exact ⟨List.prefix_append _ _,
      fun j hj => AList.lookup_insert_ne fun h => hj (C.loc_injective h), fun _ _ => rfl, .inl rfl⟩
  · exact ⟨⟨⟨snap, AList.lookup_insert _, hkind, hparent⟩, hmark, hphase⟩,
      List.mem_append_right _ (List.mem_singleton_self _)⟩

include hkl in
/-- The removal of a clone's own snapshot. -/
theorem safe_remove (i : ι) :
    Safe C.proto i (fun _ => C.Ended i) (C.Ended (κ := κ) i)
      (call (removeSnapshot (C.client i) C.record.snapshotter (snapshotKeyFor (C.dst i)))) := by
  refine .atomic (fun _ => C.stable_ended i) fun w c hi hP _ => ?_
  have hpush (w' : World κ) (outcome : Option Code) (hrecs : w'.containers = w.containers)
      (htrace : w'.trace = w.trace ++
        [(.remove C.record.snapshotter (snapshotKeyFor (C.dst i)), outcome)])
      (hsnaps : ∀ l, l ≠ C.loc i → w'.snapshots.lookup l = w.snapshots.lookup l) :
      ∃ c', C.proto.inv w' c' ∧ C.proto.guar i w c w' c' ∧ C.Ended i w' c' := by
    refine ⟨c, hi.push C hrecs htrace (hsnaps _ (C.loc_ne_base i).symm)
      (hsnaps _ (hkl i)) rfl trivial
      nofun (fun hf ⟨o, ho⟩ => hi.stats hf ⟨o, ?_⟩),
      ⟨⟨_, htrace.symm⟩, fun j hj => ?_, fun _ _ => rfl, .inl rfl⟩, hP⟩
    · rw [List.mem_append, List.mem_singleton] at ho
      exact ho.resolve_right nofun
    · exact hsnaps _ fun h => hj (C.loc_injective h)
  rcases removeSnapshot_cases (C.client i) w C.record.snapshotter (snapshotKeyFor (C.dst i)) with
    ⟨-, -, -, hr⟩ | ⟨code, -, hr⟩
  · rw [after_ok hr]
    exact hpush _ none rfl rfl fun l hl => AList.lookup_erase_ne hl
  · rw [after_ok hr]
    exact hpush _ (some code) rfl rfl fun _ _ => rfl

end Requests

/-! ## A whole call -/

/-- The program succeeds, with `good`. -/
def Succeeds {α : Type} (good : World κ → Race ι → Prop) : Except Error α → World κ → Race ι → Prop
  | .ok _ => good
  | .error _ => fun _ _ => False

/-- The record of a clone is there, or its snapshot removed. -/
def Recorded (i : ι) : Except Error String → World κ → Race ι → Prop
  | .ok _ => C.Cloned i
  | .error _ => C.Ended i

/-- The call did not fail at the base: an error that says that the destination exists comes after
the `Prepare` of its snapshot. -/
def PastBase (i : ι) (e : Error) (w : World κ) : Prop :=
  ¬ OfBase e ∧ ∀ name, e = .containerAlreadyExists name → C.Prepared i w

theorem pastBase_grows (i : ι) (e : Error) (j : ι) (w : World κ) (c : Race ι) (w' : World κ)
    (c' : Race ι) (hg : C.proto.guar j w c w' c') (h : C.PastBase i e w) : C.PastBase i e w' :=
  ⟨h.1, fun name he => C.prepared_grows i j w c w' c' hg (h.2 name he)⟩

/-- A call has returned. -/
def Finished (i : ι) : Except Error String → World κ → Race ι → Prop
  | .ok _ => C.Cloned i
  | .error e => fun w c => C.Ended i w c ∧ C.PastBase i e w

omit C in
theorem cloned_ended {C : Clones ι} {i : ι} {w : World κ} {c : Race ι} (h : C.Cloned i w c) :
    C.Ended i w c := h.2

omit C in
/-- A call that fails before the base is finished. -/
theorem finished_before {C : Clones ι} {i : ι} {w : World κ} {c : Race ι} (h : C.Before i w c)
    {e : Error} (he : BeforeBase e) : C.Finished i (.error e) w c :=
  ⟨h.2, he.1, fun name heq => absurd heq (he.2 name)⟩

section Calls

variable (hkb : C.key ≠ C.base) (hkl : ∀ i, C.key ≠ C.loc i)

include hkb hkl in
theorem safe_reprepareSource (i : ι) :
    Safe C.proto i (Succeeds (C.Based i)) (C.Won (κ := κ) i)
      (reprepareSource (C.client i) C.record.snapshotter C.record.snapshotKey
        (cloneBaseFor C.src)) := by
  refine .bind (C.safe_reprepare hkb hkl i) (fun answer => ?_) fun _ _ _ _ h => h
  cases answer with
  | ok _ => exact .pure fun _ _ _ h => h
  | error code =>
    dsimp only
    split
    · exact .pure fun _ _ _ h => h.elim
    · exact .throw fun _ _ _ h => h.elim

include hkb hkl in
theorem safe_commitCloneBase [DecidableEq ι] (i : ι) :
    Safe C.proto i (Succeeds (C.Based i)) (C.Pending (κ := κ) i)
      (commitCloneBase (C.client i) C.record.snapshotter C.record.snapshotKey
        (cloneBaseFor C.src)) := by
  refine .bind (C.safe_commit hkl i) (fun answer => ?_) fun _ _ _ _ h => h
  cases answer with
  | ok _ => exact C.safe_reprepareSource hkb hkl i
  | error code =>
    dsimp only
    split
    · exact .pure fun _ _ _ h => h.2
    · rename_i hcode
      exact .throw fun _ _ _ h => hcode h.1

include hkb hkl in
/-- **`ensure_clone_base` does not fail**, whatever the others do. -/
theorem safe_ensureCloneBase [DecidableEq ι] (i : ι) :
    Safe C.proto i (Succeeds (C.Based i)) (C.Before (κ := κ) i)
      (ensureCloneBase (C.client i) C.record.snapshotter C.record.snapshotKey
        (cloneBaseFor C.src)) := by
  refine .bind (C.safe_stat i) (fun answer => ?_) fun _ _ _ _ h => h
  cases answer with
  | ok _ => exact .pure fun _ _ _ h => h
  | error code =>
    dsimp only
    split
    · exact (C.safe_commitCloneBase hkb hkl i).pre fun _ _ _ h => h.2
    · rename_i hcode
      exact .throw fun _ _ _ h => hcode h.1

include hkl in
/-- **`prepare_clone_snapshot` does not fail** either. -/
theorem safe_prepareCloneSnapshot (i : ι) :
    Safe C.proto i (Succeeds (C.Made i)) (C.Based (κ := κ) i)
      (prepareCloneSnapshot (C.client i) C.record.snapshotter (snapshotKeyFor (C.dst i))
        (cloneBaseFor C.src) (C.dstName i)) := by
  refine .bind (C.safe_prepareClone hkl i) (fun answer => ?_) fun _ _ _ _ h => h
  cases answer with
  | ok _ => exact .pure fun _ _ _ h => h
  | error code => exact .throw fun _ _ _ h => h.elim

theorem createCloneRecord_aside {client : Client} {dst dstName key : String}
    {srcInfo : ContainerInfo} {opts : CloneContainerOpts} :
    (createCloneRecord (κ := κ) client dst dstName srcInfo key opts).Steps Aside := by
  refine createCloneRecord_steps fun image createOpts hfrom => ?_
  refine createContainerWithId_steps (fun _ _ => .of_calm)
    (checkName_keeps fun w r => .noted client w _ r rfl) (fun h => by rw [hfrom] at h; cases h)
    (allocBridgeIp_keeps fun w r octets => ?_) (fun w held => ?_) (fun record _ _ w => ?_)
    (fun h => by rw [hfrom] at h; cases h)
  · obtain ⟨h1, h2, h3⟩ := Aside.noted client w .listContainers r rfl
    exact ⟨h1, h2, h3⟩
  · exact ⟨rfl, fun _ _ h => h, [], (List.append_nil _).symm, by simp⟩
  · rcases createRecord_cases client w dst record with ⟨-, hfree, hr⟩ | ⟨code, hr⟩
    · rw [after_ok hr]
      refine ⟨rfl, fun id r h => ?_, [(.createContainer dst record, none)], rfl, by simp [racing]⟩
      have hne : id ≠ dst := by
        rintro rfl
        rw [hfree] at h
        cases h
      exact (AList.lookup_insert_ne hne).trans h
    · rw [after_ok hr]
      exact .noted client w _ _ rfl

include hkl in
theorem safe_recordClone (i : ι) (srcInfo : ContainerInfo) :
    Safe C.proto i (C.Recorded i) (C.Cloned (κ := κ) i)
      (recordClone (C.client i) C.record.snapshotter (C.dst i) (C.dstName i) srcInfo
        (C.opts i)) := by
  refine .bind (C.safe_aside createCloneRecord_aside.attempt (C.stable_cloned i)) (fun r => ?_)
    fun _ _ _ _ h => cloned_ended h
  cases r with
  | ok _ => exact .pure fun _ _ _ h => h
  | error e =>
    exact .bind ((C.safe_remove hkl i).pre fun _ _ _ h => cloned_ended h)
      (fun _ => .throw fun _ _ _ h => h) fun _ _ _ _ h => h

include hkl in
/-- The record behind the `Prepare`: its errors are not of the base. -/
theorem safe_recordMade (i : ι) (srcInfo : ContainerInfo) :
    Safe C.proto i (C.Finished i) (C.Made (κ := κ) i)
      (recordClone (C.client i) C.record.snapshotter (C.dst i) (C.dstName i) srcInfo
        (C.opts i)) := by
  refine (((C.safe_recordClone hkl i srcInfo).keeping (C.prepared_grows i)).throws
    recordClone_throws).post fun r w c _ h => ?_
  cases r with
  | ok _ => exact h.1.1
  | error e => exact ⟨h.1.1, h.2 e rfl, fun _ _ => h.1.2⟩

include hkb hkl in
theorem safe_cloneFrom [DecidableEq ι] (i : ι) (srcInfo : ContainerInfo) :
    Safe C.proto i (C.Finished i) (C.Before (κ := κ) i)
      (cloneFrom (C.client i) C.src (C.dst i) (C.dstName i) srcInfo (C.opts i) C.record) :=
  .bind (C.safe_ensureCloneBase hkb hkl i)
    (fun _ => .bind (C.safe_prepareCloneSnapshot hkl i) (fun _ => C.safe_recordMade hkl i srcInfo)
      fun _ _ _ _ h => h.elim)
    fun _ _ _ _ h => h.elim

/-- The record read is the source's. -/
theorem safe_fetch (i : ι) :
    Safe C.proto i (fun r w c => (∀ record, r = .ok record → record = C.record) ∧ C.Before i w c)
      (C.Before (κ := κ) i) (call (fetchContainerRecord (C.client i) C.src)) := by
  refine .atomic (fun r => (C.stable_before i).and_const _) fun w c hi hP _ => ?_
  have ha : Aside w (after (fetchContainerRecord (C.client i) C.src) w) :=
    .of_calm (fetchContainerRecord_keeps w)
  refine ⟨c, hi.of_aside C ha, .of_aside C c ha, fun record hrec => ?_, hP.of_aside C ha⟩
  cases hr : fetchContainerRecord (C.client i) C.src w with
  | ok found w' =>
    rw [result_ok hr] at hrec
    cases hrec
    exact Option.some.inj ((fetchContainerRecord_ok hr).symm.trans hi.found)
  | error e w' =>
    rw [result_error hr] at hrec
    cases hrec

/-- A phase before the base: it leaves the snapshots alone, and its errors are none of the base. -/
theorem safe_before {α : Type} (i : ι) {p : Proc κ α} (hp : p.Steps Aside)
    (hthrows : p.Throws BeforeBase) :
    Safe C.proto i (fun r w c => C.Before i w c ∧ ∀ e, r = .error e → BeforeBase e) (C.Before i)
      p :=
  (C.safe_aside hp (C.stable_before i)).throws hthrows

/-- The restart of the source leaves a finished call finished. -/
theorem safe_restart (i : ι) (restart : Bool) (r : Except Error String) :
    Safe C.proto i (fun r' w c => (∃ u, r' = .ok u) ∧ C.Finished (κ := κ) i r w c)
      (C.Finished i r) (call (restartSource (C.client i) C.src restart)) := by
  have hsteps : (call (restartSource (κ := κ) (C.client i) C.src restart)).Steps Aside :=
    .atomic fun w => .of_calm (restartSource_keeps w)
  have hok : ∀ r' : Except Error Unit, (∀ e, r' = .error e → False) → ∃ u, r' = .ok u := by
    rintro (e | u) h
    · exact (h e rfl).elim
    · exact ⟨u, rfl⟩
  cases r with
  | ok _ =>
    exact ((C.safe_aside hsteps (C.stable_cloned i)).throws (.atomic restartSource_raises)).post
      fun r' _ _ _ h => ⟨hok r' h.2, h.1⟩
  | error e =>
    exact (((C.safe_aside hsteps (C.stable_ended i)).keeping (C.pastBase_grows i e)).throws
      (.atomic restartSource_raises)).post fun r' _ _ _ h => ⟨hok r' h.2, h.1⟩

include hkb hkl in
/-- **One call among others** keeps to the agreement from beginning to end. -/
theorem safe_cloneContainer [DecidableEq ι] (i : ι) :
    Safe C.proto i (C.Finished i) (C.Before (κ := κ) i)
      (cloneContainer (C.client i) C.src (C.dst i) (C.dstName i) (C.opts i)) := by
  refine .bind (C.safe_before i (.atomic fun w => .of_calm (inspectContainer_keeps w))
    (.atomic inspectContainer_raises)) (fun srcInfo => .pre ?_ fun _ _ _ h => h.1)
    fun e _ _ _ h => finished_before h.1 (h.2 e rfl)
  refine .bind (C.safe_before i (stopSource_calm.mono fun _ _ => .of_calm) stopSource_throws)
    (fun _ => .pre ?_ fun _ _ _ h => h.1) fun e _ _ _ h => finished_before h.1 (h.2 e rfl)
  refine .ensuring_ok (Q := C.Finished i) ?_ (C.safe_restart i _)
  refine .bind ((C.safe_fetch i).throws (.atomic fetchContainerRecord_raises)) (fun found => ?_)
    fun e _ _ _ h => finished_before h.1.2 (h.2 e rfl)
  by_cases hfound : found = C.record
  · subst hfound
    exact (C.safe_cloneFrom hkb hkl i srcInfo).pre fun _ _ _ h => h.1.2
  · exact .unreachable fun _ _ _ h => hfound (h.1.1 found rfl)

end Calls

/-! ## All calls -/

theorem Start.key_ne_base {C : Clones ι} {w : World κ} (h : C.Start w) : C.key ≠ C.base := by
  intro heq
  obtain ⟨snap, hsnap, hkind⟩ := h.active
  have hlook : w.snapshots.lookup C.base = some snap := heq ▸ hsnap
  rw [h.base snap hlook] at hkind
  cases hkind

theorem Start.key_ne_loc {C : Clones ι} {w : World κ} (h : C.Start w) (i : ι) :
    C.key ≠ C.loc i := by
  intro heq
  obtain ⟨snap, hsnap, -⟩ := h.active
  have hlook : w.snapshots.lookup (C.loc i) = some snap := heq ▸ hsnap
  rw [h.free i] at hlook
  cases hlook

/-- The phase the calls begin in. -/
def firstPhase (w : World κ) : Phase ι :=
  if (w.snapshots.lookup C.base).isSome then .existing else .fresh

theorem Start.agrees [DecidableEq ι] {C : Clones ι} {w : World κ} (h : C.Start w) :
    (C.pool w).Agrees C.proto C.Finished
      { phase := C.firstPhase w, pending := fun _ => false } := by
  have hnot : ∀ i, C.firstPhase w ≠ .committed i := by
    intro i
    unfold firstPhase
    split <;> exact nofun
  refine ⟨⟨h.found, ?_, ?_, fun _ hs => ?_, fun e he => ?_⟩, fun i => ?_⟩
  · show C.Store w (C.firstPhase w)
    unfold firstPhase
    cases hb : w.snapshots.lookup C.base with
    | some b => exact ⟨⟨b, hb, h.base b hb⟩, h.active⟩
    | none => exact ⟨hb, h.active⟩
  · show w.trace.count _ = (C.firstPhase w).commits
    rw [h.trace]
    unfold firstPhase
    split <;> rfl
  · obtain ⟨_, hm⟩ := hs
    rw [show (C.pool w).state.trace = [] from h.trace] at hm
    cases hm
  · rw [show (C.pool w).state.trace = [] from h.trace] at he
    cases he
  · exact ⟨C.Before i, C.stable_before i, ⟨h.free i, rfl, hnot i⟩,
      C.safe_cloneContainer h.key_ne_base h.key_ne_loc i⟩

/-- **Clones that race.** In every interleaving of any number of calls no `Stat`, `Commit` or
`Prepare` fails but with the answers the calls expect, and at most one `Commit` of the base
succeeds. A call that has returned an error did not fail at the base: the error is of no operation
there, and says that the destination exists only when the `Prepare` of the clone's snapshot had
gone through. When all calls have returned: none succeeded if the base was there before, exactly
one if it was not and any call came to look for it; the source is active, on the base if it was
committed; and every call that returned `Ok` has its own active snapshot on the base. -/
theorem clones_race [DecidableEq ι] (C : Clones ι) (w : World κ) (h : C.Start w) (sched : List ι)
    (t : Pool ι (World κ) Error String) (hr : run Pool.step (C.pool w) sched = some t) :
    (∀ entry ∈ t.state.trace, Fine entry) ∧
    t.state.trace.count (C.commitCall, none) ≤ 1 ∧
    (∀ i e, (t.progs i).result? = some (.error e) → ¬ OfBase e ∧
      ∀ name, e = .containerAlreadyExists name → (C.prepareCall i, none) ∈ t.state.trace) ∧
    (t.Done →
      ((w.snapshots.lookup C.base).isSome → t.state.trace.count (C.commitCall, none) = 0) ∧
      (w.snapshots.lookup C.base = none → (∃ outcome, (C.statCall, outcome) ∈ t.state.trace) →
        t.state.trace.count (C.commitCall, none) = 1) ∧
      Active t.state C.key.1 C.key.2 ∧
      (t.state.trace.count (C.commitCall, none) = 1 → C.OnBase t.state C.key) ∧
      ∀ i id, (t.progs i).result? = some (.ok id) → C.OnBase t.state (C.loc i)) := by
  have hkeep : ∀ i (s : World κ) (c : Race ι) (s' : World κ) (c' : Race ι),
      C.proto.guar i s c s' c' →
      (c.phase = .existing ↔ (w.snapshots.lookup C.base).isSome) →
      (c'.phase = .existing ↔ (w.snapshots.lookup C.base).isSome) := by
    intro i s c s' c' hg hc
    rcases hg.phase with hp | ⟨hp, hp'⟩ | ⟨hp, hp'⟩
    · rw [hp, hc]
    · rw [← hc, hp, hp']
      exact ⟨nofun, nofun⟩
    · rw [← hc, hp, hp']
      exact ⟨nofun, nofun⟩
  have hfirst : C.firstPhase w = .existing ↔ (w.snapshots.lookup C.base).isSome := by
    unfold firstPhase
    split
    · rename_i hsome
      exact ⟨fun _ => hsome, fun _ => rfl⟩
    · rename_i hnone
      exact ⟨nofun, fun hsome => absurd hsome hnone⟩
  obtain ⟨c, hagrees, hexisting⟩ := Pool.run_agrees_with hkeep h.agrees hfirst
    (Pool.allowed_of_forall (fun _ _ _ => trivial) _ _) hr
  obtain ⟨hinv, -⟩ := id hagrees
  refine ⟨hinv.fine, ?_, fun i e hres => (hagrees.returned hres).2, fun hdone => ?_⟩
  · rw [hinv.commits]
    cases c.phase <;> simp [Phase.commits]
  -- no call is between its `Stat` and its `Commit`, nor between its `Commit` and its `Prepare`
  have hended : ∀ i, C.Ended i t.state c := by
    intro i
    obtain ⟨r, hres⟩ := hdone i
    have hfin := hagrees.returned hres
    cases r with
    | ok id => exact cloned_ended hfin
    | error e => exact hfin.1
  have hstore := hinv.store
  rw [hinv.commits]
  refine ⟨fun hsome => ?_, fun hnone hstat => ?_, ?_, fun hone => ?_, fun i id hres => ?_⟩
  · rw [hexisting.mpr hsome]
    rfl
  · cases hp : c.phase with
    | existing =>
      have hsome := hexisting.mp hp
      rw [hnone] at hsome
      cases hsome
    | fresh =>
      obtain ⟨i, hi⟩ := hinv.stats hp hstat
      rw [(hended i).1] at hi
      cases hi
    | committed i => rfl
    | ready => rfl
  · cases hp : c.phase with
    | existing => rw [hp] at hstore; exact hstore.2
    | fresh => rw [hp] at hstore; exact hstore.2
    | committed i => exact absurd hp (hended i).2
    | ready =>
      rw [hp] at hstore
      obtain ⟨-, snap, hsnap, hkind, -⟩ := hstore
      exact ⟨snap, hsnap, hkind⟩
  · cases hp : c.phase with
    | existing => rw [hp] at hone; cases hone
    | fresh => rw [hp] at hone; cases hone
    | committed i => exact absurd hp (hended i).2
    | ready => rw [hp] at hstore; exact hstore.2
  · obtain ⟨⟨snap, hsnap, hkind, hparent⟩, -⟩ : C.Cloned i t.state c := hagrees.returned hres
    exact ⟨snap, hsnap, hkind, hparent⟩

/-! ## Two clones -/

/-- Two clones of the source of `sourceWorld`. -/
def twoClones : Clones Bool where
  src := "web"
  record := sourceRecord
  client _ := {}
  dst first := if first then "c2" else "c3"
  dstName first := if first then "copy2" else "copy3"
  opts _ := {}
  faultless _ _ := rfl
  distinct := by rintro (_ | _) (_ | _) <;> simp

/-- The source's image is there, its configuration cached. -/
def imageWorld : World Unit :=
  { sourceWorld with
    images := (∅ : AList fun _ : String => Option String).insert "mongo" (some "sha256:1")
    metadataCache := (∅ : AList fun _ : String => ImageMetadata).insert "sha256:1"
      { chainId := "chain", config := { diffIds := ["chain"] }, rawConfig := [] } }

/-- Both calls miss the base before one of them commits it. -/
def raceSchedule : List Bool :=
  [true, true, true, false, false, false, true, true, false] ++ List.replicate 21 true ++
    List.replicate 21 false

theorem twoClones_start : twoClones.Start imageWorld where
  found := AList.lookup_insert _
  active := ⟨_, AList.lookup_insert _, rfl⟩
  base _ h := by cases h
  free := by rintro (_ | _) <;> decide +kernel
  trace := rfl

/-- One of two racing clones commits the base, and both succeed. -/
theorem two_clones_race :
    ∃ t, run Pool.step (twoClones.pool imageWorld) raceSchedule = some t ∧ t.Done ∧
    t.state.trace.count (twoClones.commitCall, none) = 1 ∧ twoClones.OnBase t.state twoClones.key ∧
    ∀ first, twoClones.OnBase t.state (twoClones.loc first) := by
  obtain ⟨t, hr, h1, h2, hstat⟩ := run_eval Pool.step (twoClones.pool imageWorld) raceSchedule
    (fun t => (t.progs true).result? = some (.ok "c2") ∧ (t.progs false).result? = some (.ok "c3") ∧
      (twoClones.statCall, some .notFound) ∈ t.state.trace) (by decide +kernel)
  have hdone : t.Done := by
    rintro (_ | _)
    · exact ⟨_, h2⟩
    · exact ⟨_, h1⟩
  obtain ⟨-, -, -, hall⟩ := clones_race twoClones imageWorld twoClones_start raceSchedule t hr
  obtain ⟨-, hone, -, hkey, hclones⟩ := hall hdone
  have hcount := hone (by decide +kernel) ⟨_, hstat⟩
  refine ⟨t, hr, hdone, hcount, hkey hcount, ?_⟩
  rintro (_ | _)
  · exact hclones false _ h2
  · exact hclones true _ h1

end Clones

end ContainerdManager.Clone
