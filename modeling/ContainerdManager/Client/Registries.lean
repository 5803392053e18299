import ContainerdManager.Container.Identifier
import ContainerdManager.Container.Labels
import ContainerdManager.Lib.Lines
import ContainerdManager.Lib.Runs
import ContainerdManager.Task.Delete

/-!
# The registers clients share

Clones of a client, `with_namespace` included, share three registers: the
managed port forwards, the tailers and the start times of tasks. The last
two are keyed by namespace and id, the forwards by the id alone.
`registries_isolated_iff` says when the operations of one pair leave
everything of another as it is.
-/

namespace ContainerdManager.Registry

open Lib Containerd Container ContainerdManager.Task

/-! ## The operations -/

structure PortForwardHandle where
  containerId : String
  hostPort : UInt16
  containerPort : UInt16
  deriving DecidableEq, Repr

/-- A managed handle. The namespace of the client that started it is no part of the
source's handle. -/
structure ManagedForward where
  handle : PortForwardHandle
  owner : String
  deriving DecidableEq, Repr

/-- What the clients share. A tailer and a time are known by a number. -/
structure Registries where
  managedHandles : List ManagedForward := []
  /-- A panic has poisoned the mutex of `managed_handles`. -/
  poisoned : Bool := false
  managedTailers : AList (fun _ : String => Nat) := ∅
  taskStartTimes : AList (fun _ : String => Nat) := ∅

/-- What the host makes of a listener. -/
inductive Listen where
  | bound
  | bindError (text : String)
  | nonblockingError (text : String)
  | listenerError (text : String)
  deriving DecidableEq, Repr

abbrev RegistryM (α : Type) := EStateM Error Registries α

def startPortForward (id : String) (hostPort containerPort : UInt16) (listen : Listen) :
    Except Error PortForwardHandle :=
  if hostPort = 0 then .error (.portForward "host_port cannot be 0")
  else if containerPort = 0 then .error (.portForward "container_port cannot be 0")
  else match listen with
    | .bindError text =>
      .error (.portForward ("failed to bind port " ++ portText hostPort ++ ": " ++ text))
    | .nonblockingError text =>
      .error (.portForward
        ("failed to set non-blocking on port " ++ portText hostPort ++ ": " ++ text))
    | .listenerError text => .error (.portForward ("failed to create tokio listener: " ++ text))
    | .bound => .ok { containerId := id, hostPort := hostPort, containerPort := containerPort }

def startManagedPortForward (client : Client) (id : String) (hostPort containerPort : UInt16)
    (listen : Listen) : RegistryM Unit := do
  match startPortForward id hostPort containerPort listen with
  | .error e => throw e
  | .ok handle =>
    if (← get).poisoned then throw (.statePoisoned "managed_handles")
    else modify fun reg =>
      { reg with managedHandles := reg.managedHandles ++ [⟨handle, client.namespace_⟩] }

/-- Goes on when the mutex is poisoned. -/
def stopManagedForwards (id : String) : RegistryM Unit :=
  modify fun reg =>
    { reg with managedHandles := reg.managedHandles.filter fun f => f.handle.containerId ≠ id }

def recordTaskStart (client : Client) (id : String) (now : Nat) : RegistryM Unit :=
  modify fun reg => { reg with taskStartTimes := reg.taskStartTimes.insert (nsKey client id) now }

def forgetTaskStart (client : Client) (id : String) : RegistryM Unit :=
  modify fun reg => { reg with taskStartTimes := reg.taskStartTimes.erase (nsKey client id) }

/-- `LogTailer::start` needs the home directory. -/
def startManagedTailer (client : Client) (id : String) (tailer : Nat) : RegistryM Unit :=
  if client.home then
    modify fun reg => { reg with
      managedTailers := reg.managedTailers.insert (nsKey client id) tailer }
  else throw (.io "home directory")

def stopManagedTailer (client : Client) (id : String) : RegistryM Unit :=
  modify fun reg => { reg with managedTailers := reg.managedTailers.erase (nsKey client id) }

inductive RegistryOp where
  | startManagedPortForward (hostPort containerPort : UInt16) (listen : Listen)
  | stopManagedForwards
  | startManagedTailer (tailer : Nat)
  | stopManagedTailer
  | recordTaskStart (now : Nat)
  | forgetTaskStart
  deriving DecidableEq, Repr

/-- An operation performed for a container by a client of some namespace. -/
structure RegistryCall where
  client : Client
  id : String
  op : RegistryOp
  valid : validateIdentifier id = .ok ()

def RegistryCall.apply (reg : Registries) (c : RegistryCall) : Registries :=
  match c.op with
  | .startManagedPortForward hostPort containerPort listen =>
    after (Registry.startManagedPortForward c.client c.id hostPort containerPort listen) reg
  | .stopManagedForwards => after (Registry.stopManagedForwards c.id) reg
  | .startManagedTailer tailer => after (Registry.startManagedTailer c.client c.id tailer) reg
  | .stopManagedTailer => after (Registry.stopManagedTailer c.client c.id) reg
  | .recordTaskStart now => after (Registry.recordTaskStart c.client c.id now) reg
  | .forgetTaskStart => after (Registry.forgetTaskStart c.client c.id) reg

def RegistryCall.step (reg : Registries) (c : RegistryCall) : Option Registries :=
  some (c.apply reg)

/-! ## What belongs to a pair -/

/-- The call is performed for the container `id` in the client's namespace. -/
def RegistryCall.IsFor (client : Client) (id : String) (c : RegistryCall) : Prop :=
  c.client.namespace_ = client.namespace_ ∧ c.id = id

instance (client : Client) (id : String) : DecidablePred (RegistryCall.IsFor client id) :=
  fun _ => inferInstanceAs (Decidable (_ ∧ _))

/-- The forwards, the tailer and the start time of a container in the client's namespace. -/
structure Owned where
  forwards : List ManagedForward
  tailer : Option Nat
  start : Option Nat
  deriving DecidableEq, Repr

def owned (client : Client) (id : String) (reg : Registries) : Owned where
  forwards := reg.managedHandles.filter fun f => f.owner = client.namespace_ ∧
    f.handle.containerId = id
  tailer := reg.managedTailers.lookup (nsKey client id)
  start := reg.taskStartTimes.lookup (nsKey client id)

/-- The call leaves what belongs to any other pair as it is. -/
def Isolated (reg : Registries) (c : RegistryCall) : Prop :=
  ∀ client id, validateIdentifier id = .ok () → ¬ c.IsFor client id →
    owned client id (c.apply reg) = owned client id reg

/-- Forwards are not stopped while the same id has forwards in another namespace. -/
def SparesForwards (reg : Registries) (c : RegistryCall) : Prop :=
  c.op = .stopManagedForwards →
    ∀ f ∈ reg.managedHandles, f.handle.containerId = c.id → f.owner = c.client.namespace_

/-- **Namespace and id are read off a key**: a namespace may have slashes, an id has none. -/
theorem nsKey_injective {client client' : Client} {id id' : String}
    (hid : validateIdentifier id = .ok ())
    (hid' : validateIdentifier id' = .ok ()) (h : nsKey client id = nsKey client' id') :
    client.namespace_ = client'.namespace_ ∧ id = id' := by
  have hlist := congrArg String.toList h
  simp only [nsKey, String.toList_append] at hlist
  rw [List.append_assoc, List.append_assoc] at hlist
  obtain ⟨hns, hid⟩ := split_last (slash_notMem hid) (slash_notMem hid') hlist
  exact ⟨String.toList_inj.mp hns, String.toList_inj.mp hid⟩

section Apply

variable {reg reg' : Registries} {c : RegistryCall} {client : Client} {id : String}

theorem nsKey_of_isFor (h : c.IsFor client id) : nsKey c.client c.id = nsKey client id := by
  obtain ⟨hns, rfl⟩ := h
  rw [nsKey, nsKey, hns]

theorem nsKey_ne (hid : validateIdentifier id = .ok ()) (h : ¬ c.IsFor client id) :
    nsKey client id ≠ nsKey c.client c.id := by
  intro he
  obtain ⟨hns, rfl⟩ := nsKey_injective hid c.valid he
  exact h ⟨hns.symm, rfl⟩

/-- **What a start of a forward can do**: it fails, or the handle is pushed. -/
theorem startManagedPortForward_after (client : Client) (id : String)
    (hostPort containerPort : UInt16) (listen : Listen) (reg : Registries) :
    ((reg.poisoned = true ∨ ∃ e, startPortForward id hostPort containerPort listen = .error e) ∧
        after (startManagedPortForward client id hostPort containerPort listen) reg = reg) ∨
      (reg.poisoned = false ∧ ∃ handle, startPortForward id hostPort containerPort listen =
        .ok handle ∧
        handle.containerId = id ∧
        after (startManagedPortForward client id hostPort containerPort listen) reg =
          { reg with managedHandles := reg.managedHandles ++ [⟨handle, client.namespace_⟩] }) := by
  unfold startManagedPortForward
  cases hstart : startPortForward id hostPort containerPort listen with
  | error e => exact .inl ⟨.inr ⟨e, rfl⟩, rfl⟩
  | ok handle =>
    have hid : handle.containerId = id := by
      unfold startPortForward at hstart
      split at hstart
      · cases hstart
      split at hstart
      · cases hstart
      split at hstart <;> cases hstart
      rfl
    have hget : (get : RegistryM Registries) reg = .ok reg reg := rfl
    dsimp only
    rw [after_bind_ok hget]
    by_cases hp : reg.poisoned = true
    · rw [if_pos hp]
      exact .inl ⟨.inl hp, rfl⟩
    · rw [if_neg hp]
      exact .inr ⟨by simpa using hp, handle, rfl, hid, rfl⟩

/-- **An operation leaves every other pair as it is exactly if it stops no forward of
another namespace.** -/
theorem isolated_iff (reg : Registries) (c : RegistryCall) :
    Isolated reg c ↔ SparesForwards reg c := by
  constructor
  · intro h hop f hf hid
    by_contra hne
    have hown := congrArg Owned.forwards (h { namespace_ := f.owner } f.handle.containerId
      (by rw [hid]; exact c.valid) fun hfor => hne hfor.1.symm)
    have hmem : f ∈ (owned { namespace_ := f.owner } f.handle.containerId reg).forwards := by
      simp [owned, hf]
    rw [← hown] at hmem
    simp [RegistryCall.apply, hop, owned, stopManagedForwards, hid] at hmem
  · intro h client id hid hne
    have hkey := nsKey_ne hid hne
    have hnot : ¬ (c.client.namespace_ = client.namespace_ ∧ c.id = id) := hne
    unfold RegistryCall.apply
    cases hop : c.op with
    | startManagedPortForward hostPort containerPort listen =>
      dsimp only
      rcases startManagedPortForward_after c.client c.id hostPort containerPort listen reg with
        ⟨-, hsame⟩ | ⟨-, handle, -, hhandle, hpush⟩
      · rw [hsame]
      · rw [hpush]
        simp [owned, List.filter_append, hhandle, hnot]
    | stopManagedForwards =>
      have hfilter : (reg.managedHandles.filter fun f => f.handle.containerId ≠ c.id).filter
          (fun f =>
          f.owner = client.namespace_ ∧ f.handle.containerId = id) =
          reg.managedHandles.filter fun f => f.owner = client.namespace_ ∧
            f.handle.containerId = id := by
        rw [List.filter_filter]
        refine List.filter_congr fun f hf => ?_
        by_cases hf' : f.owner = client.namespace_ ∧ f.handle.containerId = id
        · have hother : f.handle.containerId ≠ c.id := fun he =>
            hne ⟨(h hop f hf he).symm.trans hf'.1, he.symm.trans hf'.2⟩
          simp [hf', hf'.2 ▸ hother]
        · simp [hf']
      simp only [stopManagedForwards, after_modify, owned, hfilter]
    | startManagedTailer tailer =>
      dsimp only [startManagedTailer]
      split
      · simp only [after_modify, owned, AList.lookup_insert_ne hkey]
      · rfl
    | stopManagedTailer =>
        simp only [stopManagedTailer, after_modify, owned, AList.lookup_erase_ne hkey]
    | recordTaskStart now =>
        simp only [recordTaskStart, after_modify, owned, AList.lookup_insert_ne hkey]
    | forgetTaskStart =>
        simp only [forgetTaskStart, after_modify, owned, AList.lookup_erase_ne hkey]

/-- What an operation makes of its own pair depends on nothing else. -/
theorem owned_apply_congr (hfor : c.IsFor client id) (hp : reg.poisoned = reg'.poisoned)
    (h : owned client id reg = owned client id reg') :
    owned client id (c.apply reg) = owned client id (c.apply reg') := by
  have hkey := nsKey_of_isFor hfor
  obtain ⟨hns, rfl⟩ := hfor
  have hf := congrArg Owned.forwards h
  have ht := congrArg Owned.tailer h
  have hs := congrArg Owned.start h
  dsimp only [owned] at hf ht hs
  unfold RegistryCall.apply
  cases hop : c.op with
  | startManagedPortForward hostPort containerPort listen =>
    dsimp only
    rcases startManagedPortForward_after c.client c.id hostPort containerPort listen reg,
      startManagedPortForward_after c.client c.id hostPort containerPort listen reg' with
      ⟨⟨hstop, hsame⟩ | ⟨hlive, handle, hstart, -, hpush⟩, ⟨hstop', hsame'⟩ |
        ⟨hlive', handle', hstart', -, hpush'⟩⟩
    · rw [hsame, hsame', h]
    · rw [hp, hlive', hstart'] at hstop
      simp at hstop
    · rw [← hp, hlive, hstart] at hstop'
      simp at hstop'
    · obtain rfl : handle = handle' := Except.ok.inj (hstart.symm.trans hstart')
      rw [hpush, hpush']
      simp only [owned, List.filter_append, hf, ht, hs]
  | stopManagedForwards =>
    -- no forward of the pair is left
    have hnone (l : List ManagedForward) :
        (l.filter fun f => f.handle.containerId ≠ c.id).filter (fun f =>
          f.owner = client.namespace_ ∧ f.handle.containerId = c.id) = [] := by
      rw [List.filter_filter, List.filter_eq_nil_iff]
      simp
    simp only [stopManagedForwards, after_modify, owned, hnone, ht, hs]
  | startManagedTailer tailer =>
    dsimp only [startManagedTailer]
    split
    · simp only [after_modify, owned, hkey, AList.lookup_insert, hf, hs]
    · exact h
  | stopManagedTailer =>
      simp only [stopManagedTailer, after_modify, owned, hkey, AList.lookup_erase, hf, hs]
  | recordTaskStart now =>
      simp only [recordTaskStart, after_modify, owned, hkey, AList.lookup_insert, hf, ht]
  | forgetTaskStart =>
      simp only [forgetTaskStart, after_modify, owned, hkey, AList.lookup_erase, hf, ht]

theorem apply_poisoned (c : RegistryCall) (reg : Registries) :
    (c.apply reg).poisoned = reg.poisoned := by
  unfold RegistryCall.apply
  cases c.op with
  | startManagedPortForward hostPort containerPort listen =>
    dsimp only
    rcases startManagedPortForward_after c.client c.id hostPort containerPort listen reg with
      ⟨-, hsame⟩ | ⟨-, handle, -, -, hpush⟩
    · rw [hsame]
    · rw [hpush]
  | startManagedTailer tailer =>
    dsimp only [startManagedTailer]
    split <;> rfl
  | stopManagedForwards | stopManagedTailer | recordTaskStart | forgetTaskStart => rfl

/-- A pair sees its own calls only. Induction on the calls, from two registers that
agree on the pair. -/
theorem owned_purged (hid : validateIdentifier id = .ok ()) {calls : List RegistryCall}
    (h : Along RegistryCall.step SparesForwards reg calls) (hp : reg.poisoned = reg'.poisoned)
    (ho : owned client id reg = owned client id reg') :
    owned client id (calls.foldl RegistryCall.apply reg) =
      owned client id ((calls.filter (RegistryCall.IsFor client id)).foldl RegistryCall.apply
        reg') := by
  induction calls generalizing reg reg' with
  | nil => exact ho
  | cons c calls ih =>
    obtain ⟨hspares, hrest⟩ := h
    have hrest := hrest _ rfl
    by_cases hfor : c.IsFor client id
    · rw [List.filter_cons_of_pos (by simpa using hfor), List.foldl_cons, List.foldl_cons]
      refine ih hrest ?_ (owned_apply_congr hfor hp ho)
      rw [apply_poisoned, apply_poisoned, hp]
    · rw [List.filter_cons_of_neg (by simpa using hfor), List.foldl_cons]
      refine ih hrest ((apply_poisoned c reg).trans hp) ?_
      rw [(isolated_iff reg c).mpr hspares client id hid hfor, ho]

end Apply

/-! ## The registers of a world -/

section World

variable {κ : Type} {w : World κ} {reg : Registries}

/-- The world carries the keys of the start times, and the tailers. -/
structure Mirrors (w : World κ) (reg : Registries) : Prop where
  nodup : w.taskStarts.Nodup
  starts : ∀ key, key ∈ w.taskStarts ↔ key ∈ reg.taskStartTimes
  tailers : ∀ key, w.tailers.lookup key = reg.managedTailers.lookup key

theorem Mirrors.recordTaskStart (h : Mirrors w reg) (client : Client) (id : String) (now : Nat) :
    Mirrors (after (Task.recordTaskStart client id) w)
      (after (recordTaskStart client id now) reg) where
  nodup := h.nodup.insert
  starts key := by
    simp only [Registry.recordTaskStart, after_modify, AList.mem_insert]
    exact List.mem_insert_iff.trans (or_congr_right (h.starts key))
  tailers := h.tailers

theorem Mirrors.forgetTaskStart (h : Mirrors w reg) (client : Client) (id : String) :
    Mirrors (after (Task.forgetTaskStart client id) w) (after (forgetTaskStart client id) reg) where
  nodup := h.nodup.erase _
  starts key := by
    simp only [Registry.forgetTaskStart, after_modify, AList.mem_erase]
    exact h.nodup.mem_erase_iff.trans (and_congr_right' (h.starts key))
  tailers := h.tailers

theorem Mirrors.startManagedTailer (h : Mirrors w reg) (client : Client) (id : String) :
    Mirrors (after (Task.startManagedTailer client id) w)
      (after (startManagedTailer client id w.steps) reg) := by
  by_cases hhome : client.home = true
  · refine ⟨?_, ?_, fun key => ?_⟩ <;>
      simp only [Task.startManagedTailer, logPathsFor, Registry.startManagedTailer, hhome, if_true]
    · exact h.nodup
    · exact h.starts
    · show (w.tailers.insert (nsKey client id) w.steps).lookup key =
        (reg.managedTailers.insert (nsKey client id) w.steps).lookup key
      by_cases hkey : key = nsKey client id
      · rw [hkey, AList.lookup_insert, AList.lookup_insert]
      · rw [AList.lookup_insert_ne hkey, AList.lookup_insert_ne hkey, h.tailers]
  · rw [Task.startManagedTailer, logPathsFor, Registry.startManagedTailer, if_neg hhome,
      if_neg hhome]
    exact h

theorem Mirrors.stopManagedTailer (h : Mirrors w reg) (client : Client) (id : String) :
    Mirrors (after (Task.stopManagedTailer client id) w)
      (after (stopManagedTailer client id) reg) where
  nodup := h.nodup
  starts := h.starts
  tailers key := by
    show (w.tailers.erase (nsKey client id)).lookup key =
      (reg.managedTailers.erase (nsKey client id)).lookup key
    by_cases hkey : key = nsKey client id
    · rw [hkey, AList.lookup_erase, AList.lookup_erase]
    · rw [AList.lookup_erase_ne hkey, AList.lookup_erase_ne hkey, h.tailers]

/-- A call, and what happens in the world before it. -/
structure WorldCall (κ : Type) where
  before : World κ → World κ
  call : RegistryCall

/-- The world keeps no forwards. -/
def WorldCall.apply (w : World κ) (c : WorldCall κ) : World κ :=
  match c.call.op with
  | .startManagedPortForward _ _ _ | .stopManagedForwards => c.before w
  | .startManagedTailer _ => after (Task.startManagedTailer c.call.client c.call.id) (c.before w)
  | .stopManagedTailer => after (Task.stopManagedTailer c.call.client c.call.id) (c.before w)
  | .recordTaskStart _ => after (Task.recordTaskStart c.call.client c.call.id) (c.before w)
  | .forgetTaskStart => after (Task.forgetTaskStart c.call.client c.call.id) (c.before w)

def WorldCall.step (w : World κ) (c : WorldCall κ) : Option (World κ) := some (c.apply w)

/-- The registers are left alone before the call, and a tailer is known by the step that spawned
it. -/
structure WorldCall.Fits (w : World κ) (c : WorldCall κ) : Prop where
  starts : (c.before w).taskStarts = w.taskStarts
  tailers : (c.before w).tailers = w.tailers
  tailer : ∀ n, c.call.op = .startManagedTailer n → n = (c.before w).steps

theorem Mirrors.apply (h : Mirrors w reg) {c : WorldCall κ} (hc : c.Fits w) :
    Mirrors (c.apply w) (c.call.apply reg) := by
  have hbefore : Mirrors (c.before w) reg :=
    ⟨hc.starts ▸ h.nodup, hc.starts ▸ h.starts, hc.tailers ▸ h.tailers⟩
  unfold WorldCall.apply RegistryCall.apply
  cases hop : c.call.op with
  | startManagedPortForward hostPort containerPort listen =>
    dsimp only
    rcases startManagedPortForward_after c.call.client c.call.id hostPort containerPort listen reg
      with ⟨-, hsame⟩ | ⟨-, handle, -, -, hpush⟩
    · rw [hsame]
      exact hbefore
    · rw [hpush]
      exact ⟨hbefore.nodup, hbefore.starts, hbefore.tailers⟩
  | stopManagedForwards => exact ⟨hbefore.nodup, hbefore.starts, hbefore.tailers⟩
  | startManagedTailer n =>
    rw [hc.tailer n hop]
    exact hbefore.startManagedTailer _ _
  | stopManagedTailer => exact hbefore.stopManagedTailer _ _
  | recordTaskStart now => exact hbefore.recordTaskStart _ _ now
  | forgetTaskStart => exact hbefore.forgetTaskStart _ _

/-- **The registers of the world are the clients' registers** after every run of calls. -/
theorem Mirrors.run (h : Mirrors w reg) {calls : List (WorldCall κ)}
    (hc : Along WorldCall.step (fun w c => c.Fits w) w calls) :
    Mirrors (calls.foldl WorldCall.apply w)
      ((calls.map WorldCall.call).foldl RegistryCall.apply reg) := by
  induction calls generalizing w reg with
  | nil => exact h
  | cons c calls ih => exact ih (h.apply hc.1) (hc.2 _ rfl)

/-- In the world, too, a pair has what its own calls alone leave. -/
theorem Mirrors.owned (h : Mirrors w reg) {calls : List (WorldCall κ)}
    (hc : Along WorldCall.step (fun w c => c.Fits w) w calls)
    (hspares : Along RegistryCall.step SparesForwards reg (calls.map WorldCall.call))
    (client : Client) {id : String} (hid : validateIdentifier id = .ok ()) :
    let own := ((calls.map WorldCall.call).filter (RegistryCall.IsFor client id)).foldl
      RegistryCall.apply reg
    (calls.foldl WorldCall.apply w).tailers.lookup (nsKey client id) =
        own.managedTailers.lookup (nsKey client id) ∧
      (nsKey client id ∈ (calls.foldl WorldCall.apply w).taskStarts ↔
        nsKey client id ∈ own.taskStartTimes) := by
  intro own
  have hrun := h.run hc
  have hown : Registry.owned client id ((calls.map WorldCall.call).foldl RegistryCall.apply reg) =
      Registry.owned client id own := owned_purged hid hspares rfl rfl
  refine ⟨(hrun.tailers _).trans (congrArg Owned.tailer hown), (hrun.starts _).trans ?_⟩
  rw [← AList.lookup_isSome, ← AList.lookup_isSome]
  exact iff_of_eq (congrArg (fun o => o.start.isSome = true) hown)

end World

/-! ## Isolation -/

/-- **What belongs to another pair is left as it is exactly if no call stops the forwards of another
namespace**; then a pair has what its own calls alone would have given it. -/
theorem registries_isolated_iff (reg : Registries) (calls : List RegistryCall) :
    (Along RegistryCall.step Isolated reg calls ↔
      Along RegistryCall.step SparesForwards reg calls) ∧
      (Along RegistryCall.step SparesForwards reg calls →
        ∀ client id, validateIdentifier id = .ok () →
          owned client id (calls.foldl RegistryCall.apply reg) =
            owned client id
              ((calls.filter (RegistryCall.IsFor client id)).foldl RegistryCall.apply reg)) := by
  refine ⟨⟨along_mono fun reg c => (isolated_iff reg c).mp, along_mono fun reg c =>
    (isolated_iff reg c).mpr⟩, ?_⟩
  intro h client id hid
  exact owned_purged hid h rfl rfl

/-- `c1` of `default` is forwarded; `c1` of `other` is deleted. -/
def stopInOther : List RegistryCall :=
  [⟨{}, "c1", .startManagedPortForward 8080 80 .bound, by decide⟩,
    ⟨{ namespace_ := "other" }, "c1", .stopManagedForwards, by decide⟩]

theorem stop_takes_other_forward :
    (owned {} "c1" ((stopInOther.take 1).foldl RegistryCall.apply {})).forwards =
        [⟨{ containerId := "c1", hostPort := 8080, containerPort := 80 }, "default"⟩] ∧
      (owned {} "c1" (stopInOther.foldl RegistryCall.apply {})).forwards = [] ∧
      ¬ Along RegistryCall.step Isolated {} stopInOther := by
  have hstart : (owned {} "c1" ((stopInOther.take 1).foldl RegistryCall.apply {})).forwards =
      [⟨{ containerId := "c1", hostPort := 8080, containerPort := 80 }, "default"⟩] := by
    decide +kernel
  have hstop : (owned {} "c1" (stopInOther.foldl RegistryCall.apply {})).forwards = [] := by
    decide +kernel
  refine ⟨hstart, hstop, fun h => ?_⟩
  have hsame := (h.2 _ rfl).1 {} "c1" (by decide) (by decide)
  have hsame : (owned {} "c1" (stopInOther.foldl RegistryCall.apply {})).forwards =
      (owned {} "c1" ((stopInOther.take 1).foldl RegistryCall.apply {})).forwards :=
    congrArg Owned.forwards hsame
  rw [hstart, hstop] at hsame
  cases hsame

end ContainerdManager.Registry
