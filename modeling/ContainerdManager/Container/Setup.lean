import ContainerdManager.Container.Create

/-!
# The setup of a record

What the steps between the root snapshot and the record do, run alone:
bridge IP, ports, hooks and spec. `SetupFails` says when one of them fails;
otherwise the record is `recordOf`.
-/

namespace ContainerdManager.Container

open Lib Containerd ContainerdManager.Task

variable {κ : Type}

/-- One of `n` builders fails, the first being the step `first`. -/
def BuildFails (client : Client) (first n : Nat) : Prop :=
  ∃ j < n, client.buildError (first + j) ≠ none

/-- From `w` on a step between the root snapshot and the record fails: in bridge mode the list of
the containers, the choice of an octet when all are in use, or a port; in every mode a builder. -/
def SetupFails (client : Client) (opts : CreateContainerOpts) (w : World κ) : Prop :=
  match opts.network with
  | .bridge =>
    client.fault w.steps ≠ none ∨
    (∀ octet, 2 ≤ octet → octet ≤ 254 → octet ∈ usedOctets w) ∨
    (∃ i < (bridgePorts opts).length, ∀ port, client.freePort (w.portPicks + i) ≠ .port port) ∨
    BuildFails client (w.steps + 1) (hookBuilds.length + specBuilds.length)
  | _ => BuildFails client w.steps specBuilds.length

/-! ## Builders and ports -/

theorem buildFails_zero (client : Client) (first : Nat) : ¬ BuildFails client first 0 := by
  rintro ⟨j, hj, -⟩
  omega

theorem buildFails_succ (client : Client) (first n : Nat) :
    BuildFails client first (n + 1) ↔
      client.buildError first ≠ none ∨ BuildFails client (first + 1) n := by
  constructor
  · rintro ⟨j, hj, hb⟩
    cases j with
    | zero => exact .inl hb
    | succ j => exact .inr ⟨j, by omega, by rwa [show first + 1 + j = first + (j + 1) by omega]⟩
  · rintro (hb | ⟨j, hj, hb⟩)
    · exact ⟨0, by omega, hb⟩
    · exact ⟨j + 1, by omega, by rwa [show first + (j + 1) = first + 1 + j by omega]⟩

/-- Builders run to the end, one step each, unless one of them fails. -/
theorem buildAll_run (client : Client) (whats : List String) (w : World κ) :
    (¬ BuildFails client w.steps whats.length ∧
      ∃ w', (buildAll client whats).run w = .ok () w' ∧ w'.steps = w.steps + whats.length ∧
        w'.portPicks = w.portPicks) ∨
    (BuildFails client w.steps whats.length ∧ Fails (buildAll client whats).run w) := by
  induction whats generalizing w with
  | nil => exact .inl ⟨buildFails_zero _ _, w, rfl, rfl, rfl⟩
  | cons what whats ih =>
    have hrun : (buildAll client (what :: whats)).run =
        (build client what >>= fun _ => (buildAll client whats).run : Op κ Unit) := by
      rw [buildAll, Prog.run_bind, call, Prog.run_atomic]
    rw [hrun, List.length_cons, buildFails_succ]
    cases hb : client.buildError w.steps with
    | some e =>
      have hstep : build client what w =
          .error (.invalidArgument (what ++ e)) (w.advance client) := by
        simp only [build, hb]
      exact .inr ⟨.inl (by simp), (fails_of_error hstep).bind _⟩
    | none =>
      have hstep : build client what w = .ok () (w.advance client) := by
        simp only [build, hb]
      have hadv : (w.advance client).steps = w.steps + 1 := rfl
      rw [fails_bind_of_ok hstep, bind_ok hstep]
      rcases ih (w.advance client) with ⟨hn, w', hok, hs, hp⟩ | ⟨hf, hfail⟩
      · rw [hadv] at hn hs
        exact .inl ⟨by simpa using hn, w', hok, by omega, hp⟩
      · rw [hadv] at hf
        exact .inr ⟨.inr hf, hfail⟩

/-- The ports are picked one by one, unless one of them cannot be. -/
theorem pickPorts_run (client : Client) (ports : List UInt16) (w : World κ) :
    (∃ picked, (pickPorts client ports).run w =
        .ok picked { w with portPicks := w.portPicks + ports.length } ∧
      picked.map Prod.fst = ports ∧
      ∀ i < ports.length, ∃ q ∈ picked[i]?, client.freePort (w.portPicks + i) = .port q.2) ∨
    ((∃ i < ports.length, ∀ port, client.freePort (w.portPicks + i) ≠ .port port) ∧
      Fails (pickPorts client ports).run w) := by
  induction ports generalizing w with
  | nil => exact .inl ⟨[], rfl, rfl, fun i hi => absurd hi (Nat.not_lt_zero i)⟩
  | cons port ports ih =>
    have hrun : (pickPorts client (port :: ports)).run =
        (pickFreePort client >>= fun host => (pickPorts client ports).run >>= fun picked =>
          pure ((port, host) :: picked) : Op κ _) := by
      rw [pickPorts, Prog.run_bind, call, Prog.run_atomic]
      simp only [Prog.run_bind, Prog.run_pure]
    rw [hrun]
    have hfail : (∀ p, client.freePort w.portPicks ≠ .port p) → Fails (pickFreePort client) w := by
      intro hno
      unfold Fails pickFreePort
      cases hp : client.freePort w.portPicks with
      | port p => exact absurd hp (hno p)
      | bindError e => exact ⟨_, _, rfl⟩
      | addrError e => exact ⟨_, _, rfl⟩
    by_cases hno : ∀ p, client.freePort w.portPicks ≠ .port p
    · exact .inr ⟨⟨0, by simp, hno⟩, (hfail hno).bind _⟩
    · obtain ⟨host, hhost⟩ := not_forall_not.mp hno
      have hstep : pickFreePort client w = .ok host { w with portPicks := w.portPicks + 1 } := by
        simp only [pickFreePort, hhost]
      rw [fails_bind_of_ok hstep, bind_ok hstep]
      rcases ih { w with portPicks := w.portPicks + 1 } with ⟨picked, hok, hfst, hall⟩ |
        ⟨⟨i, hi, hb⟩, hf⟩
      · refine .inl ⟨(port, host) :: picked, (bind_ok hok).trans ?_, by simp [hfst], fun i hi => ?_⟩
        · show EStateM.Result.ok _ _ = _
          simp only [List.length_cons, Nat.add_assoc, Nat.add_comm 1]
        · cases i with
          | zero => exact ⟨(port, host), rfl, hhost⟩
          | succ i =>
            obtain ⟨q, hq, hqp⟩ := hall i (by simpa using hi)
            refine ⟨q, hq, ?_⟩
            rwa [show w.portPicks + (i + 1) = w.portPicks + 1 + i by omega]
      · refine .inr ⟨⟨i + 1, by simpa using hi, fun p => ?_⟩, hf.bind _⟩
        rw [show w.portPicks + (i + 1) = w.portPicks + 1 + i by omega]
        exact hb p

/-! ## The setup -/

/-- The builders of a record. -/
def recordBuilds (bridge : Option (String × List (UInt16 × UInt16))) : List String :=
  (if bridge.isSome then hookBuilds else []) ++ specBuilds

/-- The hooks of a record. -/
def hooksOf (client : Client) (id : String) (opts : CreateContainerOpts)
    (bridge : Option (String × List (UInt16 × UInt16))) : Option Hooks :=
  bridge.map fun (ip, ports) => {
    prestart := [shHook (prestartHookScript ip id client.namespace_
      (hostContainerPairs opts (some (ip, ports))))]
    poststart := [shHook (poststartHookScript id ip ports)]
    poststop := [shHook (poststopHookScript id client.namespace_ ports)] }

/-- The record that is built. -/
def recordOf (client : Client) (id name image : String) (opts : CreateContainerOpts)
    (metadata : ImageMetadata) (key : String) (bridge : Option (String × List (UInt16 × UInt16))) :
    ContainerRecord where
  image := image
  snapshotter := defaultSnapshotter
  snapshotKey := key
  labels := containerLabels client.namespace_ name metadata.config opts (bridge.map Prod.fst)
    (hostContainerPairs opts bridge)
  spec := some (ociSpec metadata.config opts (hooksOf client id opts bridge))

theorem buildAll_append (client : Client) (xs ys : List String) :
    (buildAll client (xs ++ ys)).run =
      ((buildAll client xs).run >>= fun _ => (buildAll client ys).run : Op κ Unit) := by
  induction xs with
  | nil => rfl
  | cons x xs ih =>
    simp only [List.cons_append, buildAll, Prog.run_bind, ih]
    exact (LawfulMonad.bind_assoc _ _ _).symm

/-- Building a record is running its builders. -/
theorem buildRecord_eq (client : Client) (id name image : String) (opts : CreateContainerOpts)
    (metadata : ImageMetadata) (key : String) (bridge : Option (String × List (UInt16 × UInt16))) :
    (buildRecord client id name image opts metadata key bridge).run =
      ((buildAll client (recordBuilds bridge)).run >>= fun _ =>
        pure (recordOf client id name image opts metadata key bridge) : Op κ ContainerRecord) := by
  rcases bridge with _ | ⟨ip, ports⟩
  · simp only [buildRecord, recordHooks, buildOciSpec, Prog.run_bind, Prog.run_pure, bind_assoc,
      pure_bind]
    rfl
  · simp only [recordBuilds, Option.isSome_some, if_true, buildAll_append, buildRecord, recordHooks,
      buildBridgeHooks, buildOciSpec, Prog.run_bind, Prog.run_pure, bind_assoc, pure_bind]
    rfl

theorem buildRecord_returns (client : Client) (id name image : String) (opts : CreateContainerOpts)
    (metadata : ImageMetadata) (key : String) (bridge : Option (String × List (UInt16 × UInt16))) :
    (buildRecord (κ := κ) client id name image opts metadata key bridge).Returns
      (· = recordOf client id name image opts metadata key bridge) := by
  refine .bind (φ := (· = hooksOf client id opts bridge)) ?_ fun hooks hh => ?_
  · rcases bridge with _ | ⟨ip, ports⟩
    · exact Prog.Returns.pure rfl
    · refine .bind (φ := fun hooks => some hooks = hooksOf client id opts (some (ip, ports))) ?_
        fun _ h => h
      exact .bind (.any _) fun _ _ => Prog.Returns.pure rfl
  · subst hh
    refine .bind (φ := (· = ociSpec metadata.config opts (hooksOf client id opts bridge))) ?_ ?_
    · exact .bind (.any _) fun _ _ => Prog.Returns.pure rfl
    · rintro spec rfl
      exact Prog.Returns.pure rfl

theorem buildRecord_run (client : Client) (id name image : String) (opts : CreateContainerOpts)
    (metadata : ImageMetadata) (key : String) (bridge : Option (String × List (UInt16 × UInt16)))
    (w : World κ) :
    (¬ BuildFails client w.steps (recordBuilds bridge).length ∧
      ∃ w', (buildRecord client id name image opts metadata key bridge).run w =
        .ok (recordOf client id name image opts metadata key bridge) w') ∨
    (BuildFails client w.steps (recordBuilds bridge).length ∧
      Fails (buildRecord client id name image opts metadata key bridge).run w) := by
  rw [buildRecord_eq]
  rcases buildAll_run client (recordBuilds bridge) w with ⟨hn, w', hok, -⟩ | ⟨hb, hf⟩
  · exact .inl ⟨hn, w', bind_ok hok⟩
  · exact .inr ⟨hb, hf.bind _⟩

/-- **The setup**: in bridge mode with the IP of a free octet and the ports picked, else without; it
fails exactly when one of its steps does. -/
theorem setup_run (client : Client) (id name image : String) (opts : CreateContainerOpts)
    (metadata : ImageMetadata) (key : String) (w : World κ) :
    (¬ SetupFails client opts w ∧ ∃ bridge w',
      (setup client id name image opts metadata key).run w =
        .ok (recordOf client id name image opts metadata key bridge) w' ∧
      (opts.network = .bridge → ∃ octet ports, bridge = some (bridgeIp octet, ports) ∧
        ports.map Prod.fst = bridgePorts opts ∧
        ∀ i < (bridgePorts opts).length,
          ∃ q ∈ ports[i]?, client.freePort (w.portPicks + i) = .port q.2) ∧
      (opts.network ≠ .bridge → bridge = none)) ∨
    (SetupFails client opts w ∧ Fails (setup client id name image opts metadata key).run w) := by
  by_cases hmode : opts.network = .bridge
  · have hrun : (setup client id name image opts metadata key).run =
        (allocBridgeIp client >>= fun ip => (pickPorts client (bridgePorts opts)).run >>=
          fun ports =>
          (buildRecord client id name image opts metadata key (some (ip, ports))).run :
            Op κ _) := by
      simp only [setup, hmode, call, Prog.run_bind, Prog.run_atomic]
    have hsf : SetupFails client opts w ↔ client.fault w.steps ≠ none ∨
        (∀ octet, 2 ≤ octet → octet ≤ 254 → octet ∈ usedOctets w) ∨
        (∃ i < (bridgePorts opts).length, ∀ port, client.freePort (w.portPicks + i) ≠ .port port) ∨
        BuildFails client (w.steps + 1) (hookBuilds.length + specBuilds.length) := by
      simp only [SetupFails, hmode]
    rw [hrun, hsf]
    rcases allocBridgeIp_cases client w with ⟨octet, hfault, hpick, halloc⟩ | ⟨e, r, hwhy, halloc⟩
    · have hfree : ¬ ∀ octet, 2 ≤ octet → octet ≤ 254 → octet ∈ usedOctets w := by
        rw [← pickFreeOctet_error_iff (client.random w.octets.length), hpick]
        simp
      rw [bind_ok halloc, fails_bind_of_ok halloc]
      rcases pickPorts_run client (bridgePorts opts)
          { w.noted client .listContainers none with octets := w.octets ++ [octet] } with
        ⟨ports, hports, hfst, hall⟩ | ⟨hbad, hf⟩
      · rw [bind_ok hports, fails_bind_of_ok hports]
        have hgood : ¬ ∃ i < (bridgePorts opts).length,
            ∀ port, client.freePort (w.portPicks + i) ≠ .port port := by
          rintro ⟨i, hi, hno⟩
          obtain ⟨q, -, hq⟩ := hall i hi
          exact hno q.2 hq
        rcases buildRecord_run client id name image opts metadata key (some (bridgeIp octet, ports))
            { w.noted client .listContainers none with
              octets := w.octets ++ [octet], portPicks :=
                w.portPicks + (bridgePorts opts).length } with
          ⟨hn, w', hok⟩ | ⟨hb, hf⟩
        · refine .inl ⟨?_, some (bridgeIp octet, ports), w', hok,
            fun _ => ⟨_, _, rfl, hfst, hall⟩, fun h => absurd hmode h⟩
          rintro (h | h | h | h)
          · exact h hfault
          · exact hfree h
          · exact hgood h
          · exact hn h
        · exact .inr ⟨.inr (.inr (.inr hb)), hf⟩
      · exact .inr ⟨.inr (.inr (.inl hbad)), hf.bind _⟩
    · refine .inr ⟨?_, (fails_of_error halloc).bind _⟩
      rcases hwhy with ⟨code, hfault, -⟩ | ⟨-, hpick⟩
      · exact .inl (by rw [hfault]; simp)
      · exact .inr (.inl ((pickFreeOctet_error_iff _ _).mp ⟨e, hpick⟩))
  · have hrun : setup client id name image opts metadata key =
        (buildRecord client id name image opts metadata key none : Proc κ _) := by
      unfold setup
      split
      · contradiction
      · rfl
    have hsf : SetupFails client opts w ↔ BuildFails client w.steps specBuilds.length := by
      unfold SetupFails
      split
      · contradiction
      · rfl
    rw [hrun, hsf]
    rcases buildRecord_run client id name image opts metadata key none w with ⟨hn, w', hok⟩ |
      ⟨hb, hf⟩
    · exact .inl ⟨hn, none, w', hok, fun h => absurd h hmode, fun _ => rfl⟩
    · exact .inr ⟨hb, hf⟩

theorem setup_store {client : Client} {id name image : String} {opts : CreateContainerOpts}
    {metadata : ImageMetadata} {key : String} :
    Keeps SameStore (setup (κ := κ) client id name image opts metadata key).run :=
  (setup_steps (fun _ _ h => h.toSameStore) (allocBridgeIp_keeps fun _ _ _ => ⟨rfl, rfl⟩)).keeps

theorem setup_grows {client : Client} {id name image : String} {opts : CreateContainerOpts}
    {metadata : ImageMetadata} {key : String} :
    Keeps Grows (setup (κ := κ) client id name image opts metadata key).run :=
  (setup_steps (fun _ _ h => h.grows)
    (allocBridgeIp_keeps fun w r _ => Grows.noted client w _ r)).keeps

/-- The lock changes nothing else. -/
theorem withAllocLock_run {α : Type} (p : Proc κ α) (w : World κ) :
    (∀ a w', p.run { w with allocLock := true } = .ok a w' →
      (withAllocLock p).run w = .ok a { w' with allocLock := false }) ∧
    (∀ e w', p.run { w with allocLock := true } = .error e w' →
      (withAllocLock p).run w = .error e { w' with allocLock := false }) := by
  have hrelease (w' : World κ) : (Prog.await (fun _ => true) fun w : World κ =>
      { w with allocLock := false } : Proc κ Unit).run w' =
        .ok () { w' with allocLock := false } := rfl
  constructor
  · intro a w' h
    exact Prog.run_ensuring_ok h (hrelease w')
  · intro e w' h
    exact Prog.run_ensuring_error h (hrelease w')

/-- A store with one image, whose configuration is cached. -/
def oneImage : World Unit where
  snapshots := (∅ : Snapshots Unit).insert (defaultSnapshotter, "chain")
    { kind := .committed, parent := "", labels := ∅, content := () }
  containers := ∅
  images := (∅ : AList fun _ : String => Option String).insert "mongo" (some "sha256:1")
  metadataCache := (∅ : AList fun _ : String => ImageMetadata).insert "sha256:1"
    { chainId := "chain", config := { diffIds := ["chain"] }, rawConfig := [] }

end ContainerdManager.Container
