import ContainerdManager.Container.Setup
import ContainerdManager.System.Jobs

/-!
# Bridge IPs of one process

Jobs of one process through clients of any namespaces. `ALLOC_LOCK` and the
image cache are the process's, everything else is the namespace's. The ghost
value is the job that holds the lock: a bridge record is written by the
holder only, under an IP whose octet was free when the holder scanned, so it
is still free.

The scan sees one namespace and the bridge is the host's: IPs are unique in
a namespace, and across namespaces as long as no octet is drawn that the
process uses in another one.
-/

namespace ContainerdManager.System

open Lib Containerd Container ContainerdManager.Task

variable {κ ι α : Type}

/-! ## A process -/

/-- The namespaces, and what the clients of a process share. -/
structure Sys (κ : Type) where
  worlds : String → World κ
  lock : Bool := false
  cache : AList (fun _ : String => ImageMetadata) := ∅

/-- The namespace as its clients see it. -/
def Sys.see (namespace_ : String) (s : Sys κ) : World κ :=
  { s.worlds namespace_ with allocLock := s.lock, metadataCache := s.cache }

def Sys.put (namespace_ : String) (s : Sys κ) (w : World κ) : Sys κ where
  worlds := Function.update s.worlds namespace_ w
  lock := w.allocLock
  cache := w.metadataCache

/-- One job for each index, each through its own client. -/
structure Jobs (ι : Type) where
  client : ι → Client
  job : ι → Job

def Jobs.ns (J : Jobs ι) (i : ι) : String := (J.client i).namespace_

def Jobs.pool (J : Jobs ι) (s : Sys κ) : Pool ι (Sys κ) Error Unit where
  state := s
  progs i := ((J.job i).prog (J.client i)).zoom (Sys.see (J.ns i)) (Sys.put (J.ns i))

/-! ## Bridge containers -/

def IsBridge (record : ContainerRecord) : Prop :=
  record.labels.lookup networkModeLabel = some NetworkMode.bridge.labelValue

/-- The last octet of the bridge IP. -/
def bridgeOctet (record : ContainerRecord) : Option Nat :=
  (record.labels.lookup bridgeIpLabel).bind parseOctet

/-- A bridge-mode container of a namespace. -/
def Sys.Bridge (s : Sys κ) (ns id : String) (record : ContainerRecord) : Prop :=
  (s.worlds ns).containers.lookup id = some record ∧ IsBridge record

/-- A request to write the record has succeeded. -/
def Created (w : World κ) (id : String) : Prop :=
  ∃ record, (Call.createContainer id record, none) ∈ w.trace

/-- A bridge-mode container the process created. -/
def Sys.Own (s : Sys κ) (ns id : String) (record : ContainerRecord) : Prop :=
  s.Bridge ns id record ∧ Created (s.worlds ns) id

/-- **No two bridge containers of the process have the same IP.** -/
def Sys.Distinct (s : Sys κ) : Prop :=
  ∀ ns id record ns' id' record', s.Own ns id record → s.Own ns' id' record' →
    (ns, id) ≠ (ns', id') →
    record.labels.lookup bridgeIpLabel ≠ record'.labels.lookup bridgeIpLabel

/-- The step draws an octet in the namespace. -/
def Draws (ns : String) (s s' : Sys κ) (octet : Nat) : Prop :=
  (s'.worlds ns).octets = (s.worlds ns).octets ++ [octet]

/-- The process has no bridge container with the octet in another namespace. -/
def Sys.FreeElsewhere (s : Sys κ) (ns : String) (octet : Nat) : Prop :=
  ∀ ns' id record, ns' ≠ ns → s.Own ns' id record → bridgeOctet record ≠ some octet

/-- Every bridge container, and every one the process created, was there before. -/
def Fewer (s s' : Sys κ) : Prop :=
  ∀ ns id record, s'.Bridge ns id record →
    s.Bridge ns id record ∧ (Created (s'.worlds ns) id → Created (s.worlds ns) id)

/-- The same, for a step in one namespace that leaves the lock alone. -/
structure Unbridged (w w' : World κ) : Prop where
  lock : w'.allocLock = w.allocLock
  records : ∀ id record, IsBridge record → w'.containers.lookup id = some record →
    w.containers.lookup id = some record ∧ (Created w' id → Created w id)

/-- No bridge container of the namespace has the octet; with `across`, none of the process
in another namespace either. -/
def Sys.Free (across : Prop) (s : Sys κ) (ns : String) (octet : Nat) : Prop :=
  (∀ id record, s.Bridge ns id record → bridgeOctet record ≠ some octet) ∧
    (across → s.FreeElsewhere ns octet)

/-- The step writes a bridge record with the IP of a free octet. -/
structure Commits (across : Prop) (s s' : Sys κ) (ns id : String) (record : ContainerRecord)
    (octet : Nat) : Prop where
  range : 2 ≤ octet ∧ octet ≤ 254
  ip : record.labels.lookup bridgeIpLabel = some (bridgeIp octet)
  free : s.Free across ns octet
  only : ∀ ns' id' record', s'.Bridge ns' id' record' →
    (s.Bridge ns' id' record' ∧ (Created (s'.worlds ns') id' → Created (s.worlds ns') id')) ∨
      (ns' = ns ∧ id' = id ∧ record' = record)

/-! ## Steps that write no bridge record -/

theorem Fewer.own {s s' : Sys κ} (h : Fewer s s') {ns id : String} {record : ContainerRecord}
    (hown : s'.Own ns id record) : s.Own ns id record := by
  obtain ⟨hb, hc⟩ := h ns id record hown.1
  exact ⟨hb, hc hown.2⟩

theorem Fewer.distinct {s s' : Sys κ} (h : Fewer s s') (hd : s.Distinct) : s'.Distinct :=
  fun _ _ _ _ _ _ h1 h2 hne => hd _ _ _ _ _ _ (h.own h1) (h.own h2) hne

theorem Fewer.free {across : Prop} {s s' : Sys κ} (h : Fewer s s') {ns : String} {octet : Nat}
    (hf : s.Free across ns octet) : s'.Free across ns octet :=
  ⟨fun id record hb => hf.1 id record (h ns id record hb).1,
    fun hx ns' id record hne hown => hf.2 hx ns' id record hne (h.own hown)⟩

/-- A step in one namespace. -/
theorem Fewer.put {s : Sys κ} {ns : String} {w : World κ}
    (h : ∀ id record, IsBridge record → w.containers.lookup id = some record →
      (s.worlds ns).containers.lookup id = some record ∧
        (Created w id → Created (s.worlds ns) id)) :
    Fewer s (s.put ns w) := by
  intro ns' id record ⟨hb, hmode⟩
  by_cases hns : ns' = ns
  · subst hns
    simp only [Sys.put, Function.update_self] at hb ⊢
    obtain ⟨hl, hc⟩ := h id record hmode hb
    exact ⟨⟨hl, hmode⟩, hc⟩
  · simp only [Sys.put, Function.update_of_ne hns] at hb ⊢
    exact ⟨⟨hb, hmode⟩, fun h => h⟩

theorem Unbridged.fewer {s : Sys κ} {ns : String} {w : World κ} (h : Unbridged (s.see ns) w) :
    Fewer s (s.put ns w) := .put h.records

/-- Taking or releasing the lock. -/
theorem Fewer.lock (s : Sys κ) (ns : String) (held : Bool) :
    Fewer s (s.put ns { s.see ns with allocLock := held }) := .put fun _ _ _ h => ⟨h, fun h => h⟩

theorem created_append {w w' : World κ} {new : List (Call × Option Code)}
    (ht : w'.trace = w.trace ++ new) (hn : ∀ e ∈ new, ∀ id r, e.1 ≠ .createContainer id r)
    {id : String} (h : Created w' id) : Created w id := by
  obtain ⟨r, hr⟩ := h
  rw [ht, List.mem_append] at hr
  rcases hr with hr | hr
  · exact ⟨r, hr⟩
  · exact absurd rfl (hn _ hr id r)

theorem Unbridged.of_append {w w' : World κ} (new : List (Call × Option Code))
    (hl : w'.allocLock = w.allocLock)
    (hc : ∀ id record, w'.containers.lookup id = some record → w.containers.lookup id = some record)
    (ht : w'.trace = w.trace ++ new) (hn : ∀ e ∈ new, ∀ id r, e.1 ≠ .createContainer id r) :
    Unbridged w w' :=
  ⟨hl, fun id record _ h => ⟨hc id record h, created_append ht hn⟩⟩

theorem Unbridged.of_calm {w w' : World κ} (h : Calm w w') : Unbridged w w' := by
  obtain ⟨new, ht, hn⟩ := h.trace
  refine .of_append _ h.lock (fun id record hr => h.containers ▸ hr) ht fun e he id r heq => ?_
  have hcalm := hn e he
  rw [heq] at hcalm
  cases hcalm

theorem Unbridged.noted (client : Client) (w : World κ) {call : Call} (outcome : Option Code)
    (h : ∀ id r, call ≠ .createContainer id r) : Unbridged w (w.noted client call outcome) :=
  .of_append _ rfl (fun _ _ h => h) rfl fun e he id r heq => h id r (by
    rw [List.mem_singleton.mp he] at heq
    exact heq)

theorem Unbridged.listed (client : Client) (w : World κ) (r : Option Code) (octets : List Nat) :
    Unbridged w { w.noted client .listContainers r with octets := octets } :=
  .of_append [(.listContainers, r)] rfl (fun _ _ h => h) rfl (by simp)

theorem snapshotRequest_unbridged {client : Client} (call : Call)
    (answer : Snapshots κ → Except Code (Snapshots κ)) (h : call.ofSnapshots = true) :
    Keeps Unbridged (snapshotRequest client call answer) := by
  have hne : ∀ id r, call ≠ .createContainer id r := by
    rintro id r rfl
    cases h
  intro w
  rcases snapshotRequest_cases client call answer w with ⟨snaps, -, -, hr⟩ | ⟨code, -, hr⟩
  · rw [after_ok hr]
    have hn := Unbridged.noted client w none hne
    exact ⟨hn.lock, hn.records⟩
  · rw [after_ok hr]
    exact .noted client w _ hne

theorem statSnapshot_unbridged {client : Client} (snapshotter key : String) :
    Keeps Unbridged (statSnapshot (κ := κ) client snapshotter key) :=
  statSnapshot_keeps fun w r => .noted client w r nofun

theorem checkName_unbridged {client : Client} (name : String) :
    Keeps Unbridged (checkName (κ := κ) client name) :=
  checkName_keeps fun w r => .noted client w r nofun

theorem deleteRecord_unbridged {client : Client} (id : String) :
    Keeps Unbridged (deleteRecord (κ := κ) client id) := by
  intro w
  rcases deleteRecord_cases client id w with ⟨_, -, hr⟩ | ⟨code, -, hr⟩
  · rw [after_ok hr]
    refine .of_append [(.deleteContainer id, none)] rfl (fun id' record hl => ?_) rfl (by simp)
    by_cases h : id' = id
    · subst h
      exact absurd hl (by simp)
    · exact (AList.lookup_erase_ne h).symm.trans hl
  · rw [after_ok hr]
    exact .noted client w _ nofun

/-- A request that failed. -/
theorem Unbridged.failed (client : Client) (w : World κ) (call : Call) (code : Code) :
    Unbridged w (w.noted client call (some code)) := by
  refine ⟨rfl, fun id record _ h => ⟨h, fun ⟨r, hr⟩ => ⟨r, ?_⟩⟩⟩
  rcases List.mem_append.mp hr with hr | hr
  · exact hr
  · cases List.mem_singleton.mp hr

/-- A new record does not change who created the others. -/
theorem created_other {w w' : World κ} {id id' : String} {record : ContainerRecord}
    (ht : w'.trace = w.trace ++ [(.createContainer id record, none)]) (hne : id' ≠ id)
    (h : Created w' id') : Created w id' := by
  obtain ⟨r, hr⟩ := h
  rw [ht] at hr
  rcases List.mem_append.mp hr with hr | hr
  · exact ⟨r, hr⟩
  · cases List.mem_singleton.mp hr
    exact absurd rfl hne

theorem createRecord_unbridged {client : Client} {id : String} {record : ContainerRecord}
    (hmode : ¬ IsBridge record) : Keeps Unbridged (createRecord (κ := κ) client id record) := by
  intro w
  rcases createRecord_cases client w id record with ⟨-, -, hr⟩ | ⟨code, hr⟩
  · rw [after_ok hr]
    refine ⟨rfl, fun id' r hb hl => ?_⟩
    by_cases h : id' = id
    · subst h
      cases (AList.lookup_insert _).symm.trans hl
      exact absurd hb hmode
    · exact ⟨(AList.lookup_insert_ne h).symm.trans hl, created_other rfl h⟩
  · rw [after_ok hr]
    exact .failed client w _ code

/-! ## The agreement -/

/-- The octet of a new bridge record is free, so its IP is new. -/
theorem Commits.distinct {s s' : Sys κ} {ns id : String} {record : ContainerRecord} {octet : Nat}
    (h : Commits True s s' ns id record octet) (hd : s.Distinct) : s'.Distinct := by
  have hold : ∀ ns' id' r, s.Own ns' id' r →
      record.labels.lookup bridgeIpLabel ≠ r.labels.lookup bridgeIpLabel := by
    intro ns' id' r hown heq
    have hoctet : bridgeOctet r = some octet := by
      rw [bridgeOctet, ← heq, h.ip, Option.bind_some,
        parseOctet_bridgeIp (by have := h.range; omega)]
    by_cases hns : ns' = ns
    · subst hns
      exact h.free.1 id' r hown.1 hoctet
    · exact h.free.2 trivial ns' id' r hns hown hoctet
  intro ns₁ id₁ r₁ ns₂ id₂ r₂ h₁ h₂ hne
  rcases h.only ns₁ id₁ r₁ h₁.1 with ⟨hb₁, hc₁⟩ | ⟨rfl, rfl, rfl⟩
  · rcases h.only ns₂ id₂ r₂ h₂.1 with ⟨hb₂, hc₂⟩ | ⟨rfl, rfl, rfl⟩
    · exact hd _ _ _ _ _ _ ⟨hb₁, hc₁ h₁.2⟩ ⟨hb₂, hc₂ h₂.2⟩ hne
    · exact (hold _ _ _ ⟨hb₁, hc₁ h₁.2⟩).symm
  · rcases h.only ns₂ id₂ r₂ h₂.1 with ⟨hb₂, hc₂⟩ | ⟨rfl, rfl, rfl⟩
    · exact hold _ _ _ ⟨hb₂, hc₂ h₂.2⟩
    · exact absurd rfl hne

theorem Commits.put {across : Prop} {s : Sys κ} {ns : String} {record : ContainerRecord}
    {octet : Nat} (client : Client) (id : String) (hrange : 2 ≤ octet ∧ octet ≤ 254)
    (hip : record.labels.lookup bridgeIpLabel = some (bridgeIp octet))
    (hfree : s.Free across ns octet) :
    Commits across s (s.put ns { (s.see ns).noted client (.createContainer id record) none with
      containers := (s.see ns).containers.insert id record }) ns id record octet := by
  refine ⟨hrange, hip, hfree, fun ns' id' record' ⟨hl, hb⟩ => ?_⟩
  by_cases hns : ns' = ns
  · subst hns
    simp only [Sys.put, Function.update_self] at hl ⊢
    by_cases h : id' = id
    · subst h
      cases (AList.lookup_insert _).symm.trans hl
      exact .inr ⟨trivial, rfl, rfl⟩
    · exact .inl ⟨⟨(AList.lookup_insert_ne h).symm.trans hl, hb⟩, created_other rfl h⟩
  · simp only [Sys.put, Function.update_of_ne hns] at hl ⊢
    exact .inl ⟨⟨hl, hb⟩, fun h => h⟩

/-- What job `i` may do: take and release the lock, and write a bridge record while it holds it. -/
structure Moves (across : Prop) (i : ι) (s : Sys κ) (c : Option ι) (s' : Sys κ) (c' : Option ι) :
    Prop where
  holder : c' = c ∨ (c = none ∧ c' = some i) ∨ (c = some i ∧ c' = none)
  records : Fewer s s' ∨ (c = some i ∧ ∃ ns id record octet, Commits across s s' ns id record octet)

/-- The ghost value is the holder of the lock. With `across` the agreement is about the draws of
octets the process does not use in another namespace. -/
def bridgeProto (across : Prop) (J : Jobs ι) : Proto ι (Sys κ) (Option ι) where
  inv s c := s.lock = c.isSome ∧ (across → s.Distinct)
  guar := Moves across
  allowed i s s' := across → ∀ octet, Draws (J.ns i) s s' octet → s.FreeElsewhere (J.ns i) octet

section Agreement

variable {across : Prop} {J : Jobs ι} {i : ι}

/-- While `i` holds the lock no other job writes a bridge record. -/
theorem Moves.while_held {j : ι} (hj : j ≠ i) {s s' : Sys κ} {c' : Option ι}
    (h : Moves across j s (some i) s' c') : c' = some i ∧ Fewer s s' := by
  have hij : some i ≠ some j := fun e => hj (Option.some.inj e).symm
  constructor
  · rcases h.holder with hc | ⟨hc, -⟩ | ⟨hc, -⟩
    · exact hc
    · cases hc
    · exact absurd hc hij
  · exact h.records.resolve_right fun hc => hij hc.1

/-- Job `i` does not hold the lock. -/
def Idle (i : ι) (_ : Sys κ) (c : Option ι) : Prop := c ≠ some i

def Holding (i : ι) (_ : Sys κ) (c : Option ι) : Prop := c = some i

/-- Job `i` holds the lock and an IP no bridge container has. -/
def Allocated (across : Prop) (J : Jobs ι) (i : ι) (ip : String) (s : Sys κ) (c : Option ι) :
    Prop :=
  c = some i ∧ ∃ octet, (2 ≤ octet ∧ octet ≤ 254) ∧ ip = bridgeIp octet ∧
    s.Free across (J.ns i) octet

theorem stable_idle : Stable (bridgeProto across J) i (Idle (κ := κ) i) := by
  intro j hj s c s' c' _ hg _ hc heq
  rcases Moves.holder hg with h | ⟨-, h⟩ | ⟨-, h⟩
  · exact hc (h ▸ heq)
  · rw [heq] at h
    exact hj (Option.some.inj h).symm
  · rw [heq] at h
    cases h

theorem stable_holding : Stable (bridgeProto across J) i (Holding (κ := κ) i) := by
  rintro j hj s c s' c' - hg - rfl
  exact (Moves.while_held hj hg).1

theorem stable_allocated (ip : String) :
    Stable (bridgeProto across J) i (Allocated (κ := κ) across J i ip) := by
  rintro j hj s c s' c' - hg - ⟨rfl, octet, hrange, hip, hfree⟩
  obtain ⟨hc, hfewer⟩ := Moves.while_held hj hg
  exact ⟨hc, octet, hrange, hip, hfewer.free hfree⟩

/-- A step of `i` that leaves the lock alone and writes no bridge record. -/
theorem unbridged_step {s : Sys κ} {c : Option ι} {w : World κ}
    (hi : (bridgeProto across J).inv s c)
    (h : Unbridged (s.see (J.ns i)) w) :
    (bridgeProto across J).inv (s.put (J.ns i) w) c ∧
      (bridgeProto across J).guar i s c (s.put (J.ns i) w) c :=
  ⟨⟨h.lock.trans hi.1, fun hx => h.fewer.distinct (hi.2 hx)⟩, ⟨.inl rfl, .inl h.fewer⟩⟩

/-- **Frame**: steps that write no bridge record keep what fewer records keep. -/
theorem safe_unbridged {P : Sys κ → Option ι → Prop} (hst : Stable (bridgeProto across J) i P)
    (hP : ∀ s c s', Fewer s s' → P s c → P s' c) {φ : α → Prop} {p : Proc κ α}
    (hp : p.Steps Unbridged) (hφ : p.Returns φ) :
    Safe (bridgeProto across J) i (fun r s c => P s c ∧ ∀ a, r = .ok a → φ a) P
      (p.zoom (Sys.see (J.ns i)) (Sys.put (J.ns i))) := by
  have hzoom : (p.zoom (Sys.see (J.ns i)) (Sys.put (J.ns i))).Steps
      fun s s' : Sys κ => ∃ w, Unbridged (s.see (J.ns i)) w ∧ s' = s.put (J.ns i) w :=
    hp.zoom fun s w h => ⟨w, h, rfl⟩
  refine .returning hzoom (hφ.zoom _ _) hst ?_
  rintro s c _ hi hP' - ⟨w, h, rfl⟩
  obtain ⟨hi', hg⟩ := unbridged_step hi h
  exact ⟨c, hi', hg, hP s c _ h.fewer hP'⟩

theorem safe_idle {p : Proc κ α} (hp : p.Steps Unbridged) :
    Safe (bridgeProto across J) i (fun _ => Idle i) (Idle i)
      (p.zoom (Sys.see (J.ns i)) (Sys.put (J.ns i))) :=
  (safe_unbridged stable_idle (fun _ _ _ _ h => h) hp (.any p)).post fun _ _ _ _ h => h.1

theorem safe_holding {p : Proc κ α} (hp : p.Steps Unbridged) :
    Safe (bridgeProto across J) i (fun _ => Holding i) (Holding i)
      (p.zoom (Sys.see (J.ns i)) (Sys.put (J.ns i))) :=
  (safe_unbridged stable_holding (fun _ _ _ _ h => h) hp (.any p)).post fun _ _ _ _ h => h.1

theorem safe_allocated {ip : String} {φ : α → Prop} {p : Proc κ α} (hp : p.Steps Calm)
    (hφ : p.Returns φ) :
    Safe (bridgeProto across J) i (fun r s c => Allocated across J i ip s c ∧ ∀ a, r = .ok a → φ a)
      (Allocated across J i ip) (p.zoom (Sys.see (J.ns i)) (Sys.put (J.ns i))) :=
  safe_unbridged (stable_allocated ip)
    (fun _ _ _ hf ⟨hc, octet, hrange, hip, hfree⟩ => ⟨hc, octet, hrange, hip, hf.free hfree⟩)
    (hp.mono fun _ _ => Unbridged.of_calm) hφ

/-! ## Bridge mode -/

/-- `alloc_bridge_ip`, from the scan to the choice: no bridge container has the octet. -/
theorem alloc_safe :
    Safe (bridgeProto across J) i
      (fun r => match r with
        | .ok ip => Allocated (κ := κ) across J i ip
        | .error _ => Holding i)
      (Holding i) ((call (allocBridgeIp (J.client i))).zoom (Sys.see (J.ns i))
        (Sys.put (J.ns i))) := by
  rw [call, Prog.zoom_atomic]
  refine .atomic (fun r => ?_) fun s c hi hc hallowed => ?_
  · cases r with
    | ok ip => exact stable_allocated ip
    | error e => exact stable_holding
  · rw [Prog.after_lift] at hallowed
    rw [Prog.after_lift, Prog.result_lift]
    rcases allocBridgeIp_cases (J.client i) (s.see (J.ns i)) with ⟨octet, -, hpick, hr⟩ |
      ⟨e, r, -, hr⟩
    · have hquiet := Unbridged.listed (J.client i) (s.see (J.ns i)) none
        ((s.see (J.ns i)).octets ++ [octet])
      rw [after_ok hr] at hallowed
      rw [after_ok hr, result_ok hr]
      obtain ⟨hi', hg⟩ := unbridged_step hi hquiet
      obtain ⟨hrange, hfree⟩ := pickFreeOctet_ok hpick
      refine ⟨c, hi', hg, hc, octet, hrange, rfl,
        hquiet.fewer.free ⟨fun id record hb hoct => hfree ?_, ?_⟩⟩
      · obtain ⟨ip, hip, hp⟩ := Option.bind_eq_some_iff.mp hoct
        exact mem_usedOctets.mpr ⟨id, record, ip, hb.1, hip, hp⟩
      · intro hx
        refine hallowed hx octet ?_
        simp only [Draws, Sys.put, Function.update_self]
        rfl
    · rw [after_error hr, result_error hr]
      obtain ⟨hi', hg⟩ := unbridged_step hi
        (Unbridged.listed (J.client i) (s.see (J.ns i)) r (s.see (J.ns i)).octets)
      exact ⟨c, hi', hg, hc⟩

/-- Job `i` has built the record of a bridge container, with the IP it holds. -/
def Built (across : Prop) (J : Jobs ι) (i : ι) (record : ContainerRecord) (s : Sys κ)
    (c : Option ι) : Prop :=
  ∃ ip, record.labels.lookup bridgeIpLabel = some ip ∧ Allocated across J i ip s c

theorem setup_safe {id name image key : String} {opts : CreateContainerOpts}
    {metadata : ImageMetadata} (hmode : opts.network = .bridge) :
    Safe (bridgeProto across J) i
      (fun r => match r with
        | .ok record => Built (κ := κ) across J i record
        | .error _ => Holding i)
      (Holding i)
      ((setup (J.client i) id name image opts metadata key).zoom (Sys.see (J.ns i))
        (Sys.put (J.ns i))) := by
  simp only [setup, hmode]
  rw [Prog.zoom_bind]
  refine .bind alloc_safe (fun ip => ?_) fun _ _ _ _ h => h
  rw [Prog.zoom_bind]
  refine .bind (safe_allocated (pickPorts_calm _) (.any _)) (fun ports => ?_) fun _ _ _ _ h => h.1.1
  refine ((safe_allocated (buildRecord_calm _) (buildRecord_returns _ _ _ _ _ _ _ _)).pre
    fun _ _ _ h => h.1).post fun r s c _ h => ?_
  cases r with
  | error e => exact h.1.1
  | ok record =>
    refine ⟨ip, ?_, h.1⟩
    rw [h.2 record rfl]
    exact lookup_bridgeIp _ _ _ _ _ _

/-- The record is written while the octet is still free. -/
theorem commitRecord_safe {id name key : String} {wePrepared : Bool} {record : ContainerRecord} :
    Safe (bridgeProto across J) i (fun _ => Holding i) (Built (κ := κ) across J i record)
      ((commitRecord (J.client i) id name key wePrepared record).zoom
        (Sys.see (J.ns i)) (Sys.put (J.ns i))) := by
  rw [commitRecord, Prog.zoom_bind, call, Prog.zoom_atomic]
  refine .bind (Q := fun _ => Holding i) (.atomic (fun _ => stable_holding) ?_) (fun answer => ?_)
    fun _ _ _ _ h => h
  · rintro s c hi ⟨ip, hip, hc, octet, hrange, rfl, hfree⟩ -
    rw [Prog.after_lift]
    rcases createRecord_cases (J.client i) (s.see (J.ns i)) id record with ⟨-, -, hr⟩ | ⟨code, hr⟩
    · rw [after_ok hr]
      have hcommits := Commits.put (J.client i) id hrange hip hfree
      refine ⟨c, ⟨hi.1, fun hx => ?_⟩, ⟨.inl rfl, .inr ⟨hc, _, _, _, _, hcommits⟩⟩, hc⟩
      obtain rfl : across = True := eq_true hx
      exact hcommits.distinct (hi.2 trivial)
    · rw [after_ok hr]
      obtain ⟨hi', hg⟩ := unbridged_step hi (.failed (J.client i) (s.see (J.ns i)) _ code)
      exact ⟨c, hi', hg, hc⟩
  · cases answer with
    | ok _ => exact safe_holding trivial
    | error code =>
      refine safe_holding ?_
      dsimp only
      split
      · exact .bind (.atomic (snapshotRequest_unbridged _ _ rfl)) fun _ => trivial
      · trivial

/-- Under the lock. -/
theorem withAllocLock_safe {p : Proc κ α}
    (hp : Safe (bridgeProto across J) i (fun _ => Holding i) (Holding i)
      (p.zoom (Sys.see (J.ns i)) (Sys.put (J.ns i)))) :
    Safe (bridgeProto across J) i (fun _ => Idle i) (Idle i)
      ((withAllocLock p).zoom (Sys.see (J.ns i)) (Sys.put (J.ns i))) := by
  rw [withAllocLock, Prog.zoom_bind, Prog.zoom_await]
  refine .bind (Q := fun r s c => r = .ok () ∧ Holding i s c)
    (.await (stable_holding.and_const _) ?_)
    (fun _ => ?_) fun e _ _ _ h => nomatch h.1
  · intro s c hi _ hready _
    have hfree : s.lock = false := by simpa [Sys.see] using hready
    have hc : c = none := by
      rw [hi.1] at hfree
      simpa using hfree
    subst hc
    have hsame := Fewer.lock s (J.ns i) true
    exact ⟨some i, ⟨rfl, fun hx => hsame.distinct (hi.2 hx)⟩, ⟨.inr (.inl ⟨rfl, rfl⟩), .inl hsame⟩,
      rfl, rfl⟩
  · rw [Prog.zoom_ensuring, Prog.zoom_await]
    refine .ensuring (Q := fun _ => Holding i) (hp.pre fun _ _ _ h => h.2) (fun _ => ?_)
      fun _ _ _ _ _ h => h
    refine .await (Q := fun _ => Idle i) stable_idle ?_
    rintro s _ hi rfl - -
    have hsame := Fewer.lock s (J.ns i) false
    exact ⟨none, ⟨rfl, fun hx => hsame.distinct (hi.2 hx)⟩,
      ⟨.inr (.inr ⟨rfl, rfl⟩), .inl hsame⟩, nofun⟩

/-! ## Jobs -/

theorem isBridge_recordOf {client : Client} {id name image key : String}
    {opts : CreateContainerOpts}
    {metadata : ImageMetadata} {bridge : Option (String × List (UInt16 × UInt16))}
    (h : IsBridge (recordOf client id name image opts metadata key bridge)) :
    opts.network = .bridge := by
  have hlabel := (lookup_mode client.namespace_ name metadata.config opts (bridge.map Prod.fst)
    (hostContainerPairs opts bridge)).symm.trans h
  revert hlabel
  cases opts.network with
  | bridge => exact fun _ => rfl
  | host => decide
  | isolated => decide

theorem create_safe (id name image : String) (opts : CreateContainerOpts) :
    Safe (bridgeProto across J) i (fun _ => Idle (κ := κ) i) (Idle i)
      ((createContainerWithId (J.client i) id name image opts).zoom (Sys.see (J.ns i))
        (Sys.put (J.ns i))) := by
  rw [createContainerWithId, Prog.zoom_bind]
  refine .bind (safe_idle
    (prepareContainer_steps (fun _ _ => Unbridged.of_calm) (checkName_unbridged name)
    fun _ _ => snapshotRequest_unbridged _ _ rfl))
      (fun ⟨metadata, key, wePrepared⟩ => ?_) fun _ _ _ _ h => h
  dsimp only
  split
  · rename_i hmode
    refine withAllocLock_safe ?_
    rw [setupAndCommit, Prog.zoom_bind]
    exact .bind (setup_safe hmode) (fun record => commitRecord_safe) fun _ _ _ _ h => h
  · rename_i hmode
    refine safe_idle ?_
    have hsetup : setup (κ := κ) (J.client i) id name image opts metadata key =
        buildRecord (J.client i) id name image opts metadata key none := by
      unfold setup
      split
      · contradiction
      · rfl
    rw [setupAndCommit, hsetup]
    refine .bindReturns ((buildRecord_calm _).mono fun _ _ => Unbridged.of_calm)
      (buildRecord_returns _ _ _ _ _ _ _ _) ?_
    rintro record rfl
    exact commitRecord_steps (createRecord_unbridged fun h => hmode (isBridge_recordOf h))
      fun _ => snapshotRequest_unbridged _ _ rfl

theorem job_safe (job : Job) :
    Safe (bridgeProto across J) i (fun _ => Idle (κ := κ) i) (Idle i)
      ((job.prog (J.client i)).zoom (Sys.see (J.ns i)) (Sys.put (J.ns i))) :=
  Job.safe (fun _ hp => safe_idle hp) (fun _ _ => Unbridged.of_calm) snapshotRequest_unbridged
    statSnapshot_unbridged create_safe deleteRecord_unbridged job

end Agreement

/-! ## All together -/

/-- The jobs of a process that holds no lock, and with `across` has created no container yet. -/
theorem pool_agrees [DecidableEq ι] (across : Prop) (J : Jobs ι) (s : Sys κ) (hl : s.lock = false)
    (hn : across → ∀ ns, (s.worlds ns).trace = []) :
    (J.pool s).Agrees (bridgeProto across J) (fun i _ => Idle i) none := by
  refine ⟨⟨hl, fun hx ns id record _ _ _ hown => ?_⟩, fun i =>
    ⟨Idle i, stable_idle, nofun, job_safe _⟩⟩
  obtain ⟨r, hr⟩ := hown.2
  rw [show ((J.pool s).state.worlds ns).trace = [] from hn hx ns] at hr
  cases hr

/-- `ResourceExhausted` is returned exactly when the scan is answered and the labels
use up `2..=254`. -/
theorem alloc_exhausted_iff (client : Client) (w : World κ) :
    (∃ message w', allocBridgeIp client w = .error (.resourceExhausted message) w') ↔
      client.fault w.steps = none ∧ ∀ octet, 2 ≤ octet → octet ≤ 254 →
        ∃ id record ip, w.containers.lookup id = some record ∧
          record.labels.lookup bridgeIpLabel = some ip ∧ parseOctet ip = some octet := by
  have hused := pickFreeOctet_error_iff (client.random w.octets.length) (usedOctets w)
  simp only [mem_usedOctets] at hused
  rw [← hused]
  rcases allocBridgeIp_cases client w with ⟨octet, hf, hpick, hr⟩ |
    ⟨e, r, ⟨code, hf, rfl⟩ | ⟨hf, hpick⟩, hr⟩
  · rw [hr, hpick]
    simp
  · rw [hr, hf]
    simp
  · obtain ⟨message, rfl⟩ := pickFreeOctet_error hpick
    exact ⟨fun _ => ⟨hf, _, hpick⟩, fun _ => ⟨message, _, hr⟩⟩

/-- **The allocation protocol.** In every interleaving of jobs, a bridge record is written with an
IP `10.88.1.o`, `2 ≤ o ≤ 254`, whose octet no other bridge container of the namespace has; and an
allocation fails for want of octets exactly when the labels of the namespace use up all of them. -/
theorem bridge_allocation [DecidableEq ι] (J : Jobs ι) (s : Sys κ) (hl : s.lock = false) :
    (∀ sched p i p' ns id record, run Pool.step (J.pool s) sched = some p → p.step i = some p' →
      p'.state.Bridge ns id record → ¬ p.state.Bridge ns id record →
      ∃ octet, (2 ≤ octet ∧ octet ≤ 254) ∧
        record.labels.lookup bridgeIpLabel = some ("10.88.1." ++ toString octet) ∧
        ∀ id' record', id' ≠ id → p'.state.Bridge ns id' record' →
          bridgeOctet record' ≠ some octet) ∧
    ∀ (client : Client) (w : World κ),
      (∃ message w', allocBridgeIp client w = .error (.resourceExhausted message) w') ↔
        client.fault w.steps = none ∧ ∀ octet, 2 ≤ octet → octet ≤ 254 →
          ∃ id record ip, w.containers.lookup id = some record ∧
            record.labels.lookup bridgeIpLabel = some ip ∧ parseOctet ip = some octet := by
  refine ⟨fun sched p i p' ns id record hr hs hnew hold => ?_, alloc_exhausted_iff⟩
  have hallowed : ∀ i (s s' : Sys κ), (bridgeProto False J).allowed i s s' :=
    fun _ _ _ hx => hx.elim
  obtain ⟨c, hagrees⟩ := Pool.run_agrees (pool_agrees False J s hl fun hx => hx.elim)
    (Pool.allowed_of_forall hallowed _ _) hr
  obtain ⟨c', -, hmoves⟩ := hagrees.step hs (hallowed _ _ _)
  rcases Moves.records hmoves with hfewer | ⟨-, ns₀, id₀, r₀, octet, hcommits⟩
  · exact absurd (hfewer ns id record hnew).1 hold
  rcases hcommits.only ns id record hnew with ⟨hb, -⟩ | ⟨rfl, rfl, rfl⟩
  · exact absurd hb hold
  refine ⟨octet, hcommits.range, hcommits.ip, fun id' record' hne hb => ?_⟩
  rcases hcommits.only ns id' record' hb with ⟨hb', -⟩ | ⟨-, hid, -⟩
  · exact hcommits.free.1 id' record' hb'
  · exact absurd hid hne

/-- **Bridge IPs of a process.** In every run in which no octet is drawn that a bridge container
of the process has in another namespace, no two bridge containers of the process have the same
IP, whatever their namespaces. -/
theorem bridge_ips_distinct [DecidableEq ι] (J : Jobs ι) (s : Sys κ) (hl : s.lock = false)
    (hn : ∀ ns, (s.worlds ns).trace = []) (sched : List ι) (p : Pool ι (Sys κ) Error Unit)
    (hdraws : Along Pool.step (fun p i => ∀ p', p.step i = some p' → ∀ octet,
      Draws (J.ns i) p.state p'.state octet → p.state.FreeElsewhere (J.ns i) octet)
        (J.pool s) sched)
    (hr : run Pool.step (J.pool s) sched = some p) : p.state.Distinct := by
  have hallowed : (J.pool s).Allowed (bridgeProto True J) sched :=
    along_mono (fun p i h p' hs _ => h p' hs) hdraws
  obtain ⟨c, hagrees⟩ := Pool.run_agrees (pool_agrees True J s hl fun _ => hn) hallowed hr
  exact hagrees.1.2 trivial

/-- No bridge container of the other namespaces of the list has an octet that the step draws. -/
def drawsClear [DecidableEq ι] (J : Jobs ι) (nss : List String) (p : Pool ι (Sys κ) Error Unit)
    (i : ι) : Bool :=
  (p.step i).all fun p' =>
    ((p'.state.worlds (J.ns i)).octets.drop (p.state.worlds (J.ns i)).octets.length).all
      fun octet => nss.all fun ns => ns = J.ns i ||
        (p.state.worlds ns).containers.entries.all fun e => bridgeOctet e.2 ≠ some octet

theorem drawsClear_free [DecidableEq ι] {J : Jobs ι} {nss : List String}
    {p p' : Pool ι (Sys κ) Error Unit} {i : ι} (h : drawsClear J nss p i = true)
    (hs : p.step i = some p') {octet : Nat} (hd : Draws (J.ns i) p.state p'.state octet)
    {ns id : String} {record : ContainerRecord} (hns : ns ∈ nss) (hne : ns ≠ J.ns i)
    (hl : (p.state.worlds ns).containers.lookup id = some record) :
    bridgeOctet record ≠ some octet := by
  unfold drawsClear at h
  rw [hs, Option.all_some, show (p'.state.worlds (J.ns i)).octets = _ from hd, List.drop_left] at h
  have hall := List.all_eq_true.mp (List.all_eq_true.mp h octet (List.mem_singleton_self _)) ns hns
  rw [decide_eq_false hne, Bool.false_or] at hall
  exact of_decide_eq_true (List.all_eq_true.mp hall ⟨id, record⟩ (AList.mem_lookup_iff.mp hl))

/-- It is enough to look at the namespaces of the clients. -/
theorem free_elsewhere_of_clear [DecidableEq ι] {J : Jobs ι} {s : Sys κ} {nss : List String}
    (hns : ∀ i, J.ns i ∈ nss) (hn : ∀ ns, (s.worlds ns).trace = []) {sched : List ι}
    (hclear : Along Pool.step (fun p i => drawsClear J nss p i = true) (J.pool s) sched) :
    Along Pool.step (fun p i => ∀ p', p.step i = some p' → ∀ octet,
      Draws (J.ns i) p.state p'.state octet → p.state.FreeElsewhere (J.ns i) octet)
        (J.pool s) sched := by
  -- the process creates nothing in any other namespace
  have hother : ∀ i (s s' : Sys κ), (∀ ns, ns ∉ nss → (s.worlds ns).trace = []) → ∀ octet,
      (∀ ns id record, ns ∈ nss → ns ≠ J.ns i → (s.worlds ns).containers.lookup id = some record →
        bridgeOctet record ≠ some octet) → s.FreeElsewhere (J.ns i) octet := by
    intro i s s' h octet hfree ns id record hne hown
    by_cases hmem : ns ∈ nss
    · exact hfree ns id record hmem hne hown.1.1
    · obtain ⟨r, hr⟩ := hown.2
      rw [h ns hmem] at hr
      cases hr
  have hsteps := Pool.along_of_steps (p := J.pool s)
    (R := fun s s' : Sys κ => ∀ ns, ns ∉ nss → s'.worlds ns = s.worlds ns)
    (I := fun s => ∀ ns, ns ∉ nss → (s.worlds ns).trace = [])
    (fun s s' h hR ns hmem => by rw [hR ns hmem]; exact h ns hmem) hother
    (fun i => (Prog.Steps.any _).zoom fun s w _ ns hmem => Function.update_of_ne (fun heq => by
      rw [heq] at hmem
      exact hmem (hns i)) _ _)
    (fun ns _ => hn ns) sched
  refine along_mono (fun p i h p' hs octet hd => ?_) (along_and hclear hsteps)
  exact h.2 p' hs octet fun ns id record hmem hne hl => drawsClear_free h.1 hs hd hmem hne hl

/-- When all clients have one namespace, every run is of that kind. -/
theorem free_elsewhere_of_one_namespace [DecidableEq ι] {J : Jobs ι} {s : Sys κ} {ns : String}
    (hns : ∀ i, J.ns i = ns) (hn : ∀ ns, (s.worlds ns).trace = []) (sched : List ι) :
    Along Pool.step (fun p i => ∀ p', p.step i = some p' → ∀ octet,
      Draws (J.ns i) p.state p'.state octet → p.state.FreeElsewhere (J.ns i) octet)
        (J.pool s) sched := by
  have hclear (p : Pool ι (Sys κ) Error Unit) (i : ι) : drawsClear J [ns] p i = true := by
    simp [drawsClear, hns i, Option.all_eq_true]
  have hmem (i : ι) : J.ns i ∈ [ns] := List.mem_singleton.mpr (hns i)
  have hall : Along Pool.step (fun _ _ => True) (J.pool s) sched :=
    along_of_forall fun _ _ => trivial
  exact free_elsewhere_of_clear hmem hn (along_mono (fun p i _ => hclear p i) hall)

/-! ## Two containers -/

instance (record : ContainerRecord) : Decidable (IsBridge record) :=
  inferInstanceAs (Decidable (_ = _))

/-- The request wrote a record for the id. -/
def wrote (id : String) : Call × Option Code → Bool
  | (.createContainer id' _, none) => id' = id
  | _ => false

/-- The process has a bridge container with the IP. -/
def Sys.hasIp (s : Sys κ) (ns id ip : String) : Bool :=
  (s.worlds ns).trace.any (wrote id) && ((s.worlds ns).containers.lookup id).any fun record =>
    decide (IsBridge record ∧ record.labels.lookup bridgeIpLabel = some ip)

theorem own_of_hasIp {s : Sys κ} {ns id ip : String} (h : s.hasIp ns id ip = true) :
    ∃ record, s.Own ns id record ∧ record.labels.lookup bridgeIpLabel = some ip := by
  obtain ⟨hwrote, hrecord⟩ := (Bool.and_eq_true _ _).mp h
  obtain ⟨record, hl, hr⟩ := (Option.any_eq_true _ _).mp hrecord
  obtain ⟨hmode, hip⟩ := of_decide_eq_true hr
  refine ⟨record, ⟨⟨hl, hmode⟩, ?_⟩, hip⟩
  obtain ⟨e, he, hid⟩ := List.any_eq_true.mp hwrote
  unfold wrote at hid
  split at hid
  · rename_i id' r
    obtain rfl := of_decide_eq_true hid
    exact ⟨r, he⟩
  · cases hid

/-- Two creates, in the given namespaces. -/
def twoCreates (ns : Bool → String) : Jobs Bool where
  client first := { namespace_ := ns first }
  job first := if first then .create "c1" "web" "mongo" {} else .create "c2" "db" "mongo" {}

/-- Every namespace has the image. -/
def freshSys : Sys Unit where
  worlds _ := oneImage
  cache := oneImage.metadataCache

/-- Both jobs prepare their root snapshots before one of them takes the lock. -/
def turns : List Bool :=
  [true, true, true, true, false, false, false, false] ++ List.replicate 16 true ++
    List.replicate 16 false

/-- The two creates in two namespaces, of which the second draws the second free octet. -/
def apartCreates : Jobs Bool :=
  { twoCreates fun _ => "" with
    client first :=
      { namespace_ := if first then "a" else "b", random _ := if first then 0 else 1 } }

/-- Two creates in one namespace get different IPs, and so do two in different namespaces when the
second does not draw the octet of the first. -/
theorem bridge_ips_of_two_creates :
    (∃ p, run Pool.step ((twoCreates fun _ => "default").pool freshSys) turns = some p ∧
      p.state.Distinct ∧ p.state.hasIp "default" "c1" "10.88.1.2" = true ∧
      p.state.hasIp "default" "c2" "10.88.1.3" = true) ∧
    ∃ p, run Pool.step (apartCreates.pool freshSys) turns = some p ∧
      p.state.Distinct ∧ p.state.hasIp "a" "c1" "10.88.1.2" = true ∧
      p.state.hasIp "b" "c2" "10.88.1.3" = true := by
  refine ⟨?_, ?_⟩
  · obtain ⟨p, hr, h1, h2⟩ := run_eval Pool.step ((twoCreates fun _ => "default").pool freshSys)
      turns (fun p => p.state.hasIp "default" "c1" "10.88.1.2" = true ∧
        p.state.hasIp "default" "c2" "10.88.1.3" = true) (by decide +kernel)
    exact ⟨p, hr, bridge_ips_distinct _ _ rfl (fun _ => rfl) turns p
      (free_elsewhere_of_one_namespace (fun _ => rfl) (fun _ => rfl) turns) hr, h1, h2⟩
  · obtain ⟨p, hr, h1, h2⟩ := run_eval Pool.step (apartCreates.pool freshSys) turns
      (fun p => p.state.hasIp "a" "c1" "10.88.1.2" = true ∧
        p.state.hasIp "b" "c2" "10.88.1.3" = true) (by decide +kernel)
    have hclear : Along Pool.step (fun p i => drawsClear apartCreates ["a", "b"] p i = true)
        (apartCreates.pool freshSys) turns := by decide +kernel
    exact ⟨p, hr, bridge_ips_distinct _ _ rfl (fun _ => rfl) turns p
      (free_elsewhere_of_clear (by decide) (fun _ => rfl) hclear) hr, h1, h2⟩

/-- Two creates in different namespaces draw the same octet. -/
theorem bridge_ip_shared :
    ¬ ∀ (J : Jobs Bool) (s : Sys Unit) (sched : List Bool) (p : Pool Bool (Sys Unit) Error Unit),
      s.lock = false → (∀ ns, (s.worlds ns).trace = []) → run Pool.step (J.pool s) sched = some p →
      p.state.Distinct := by
  intro h
  obtain ⟨p, hr, h1, h2⟩ := run_eval Pool.step
    ((twoCreates fun first => if first then "a" else "b").pool freshSys) turns
    (fun p => p.state.hasIp "a" "c1" "10.88.1.2" = true ∧ p.state.hasIp "b" "c2" "10.88.1.2" = true)
    (by decide +kernel)
  obtain ⟨r1, hown1, hip1⟩ := own_of_hasIp h1
  obtain ⟨r2, hown2, hip2⟩ := own_of_hasIp h2
  exact h _ _ turns p rfl (fun _ => rfl) hr _ _ _ _ _ _ hown1 hown2 (by decide)
    (hip1.trans hip2.symm)

/-- The second create writes its record while the first container is there. -/
theorem bridge_allocated_second : ∃ p p' record octet,
    run Pool.step ((twoCreates fun _ => "default").pool freshSys) (turns.take 38) = some p ∧
      p.step false = some p' ∧ p'.state.Bridge "default" "c2" record ∧
      record.labels.lookup bridgeIpLabel = some ("10.88.1." ++ toString octet) ∧
      p'.state.hasIp "default" "c1" "10.88.1.2" = true ∧ octet ≠ 2 := by
  obtain ⟨p, hr, hnone, hsome⟩ := run_eval Pool.step ((twoCreates fun _ => "default").pool freshSys)
    (turns.take 38) (fun p => (p.state.worlds "default").containers.lookup "c2" = none ∧
      ((p.step false).any fun p' => p'.state.hasIp "default" "c1" "10.88.1.2" &&
        p'.state.hasIp "default" "c2" "10.88.1.3") = true) (by decide +kernel)
  obtain ⟨p', hs, hip⟩ := (Option.any_eq_true _ _).mp hsome
  obtain ⟨h1, h2⟩ := (Bool.and_eq_true _ _).mp hip
  obtain ⟨r1, hown1, hip1⟩ := own_of_hasIp h1
  obtain ⟨record, hown2, -⟩ := own_of_hasIp h2
  obtain ⟨octet, -, hlabel, hother⟩ :=
    (bridge_allocation (twoCreates fun _ => "default") freshSys rfl).1
    _ p false p' "default" "c2" record hr hs hown2.1 fun hb => by
      rw [hb.1] at hnone
      cases hnone
  refine ⟨p, p', record, octet, hr, hs, hown2.1, hlabel, h1, ?_⟩
  rintro rfl
  refine hother "c1" r1 (by decide) hown1.1 ?_
  rw [bridgeOctet, hip1]
  decide +kernel

end ContainerdManager.System
