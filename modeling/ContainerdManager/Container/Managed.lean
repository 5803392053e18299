import ContainerdManager.Container.Created

/-!
# Managed labels

`create_container` writes the network mode, the bridge IP and the port
bindings over the labels of the image and of the user, and trusts every label
under these keys afterwards: a managed label it does not write itself, but
the image or the user supplied, is taken for its own.
-/

namespace ContainerdManager.Container

open Lib Containerd ContainerdManager.Task

variable {κ : Type}

/-- The container ports a create forwards. -/
def forwardedPorts (opts : CreateContainerOpts) : List UInt16 :=
  if opts.network = .bridge then bridgePorts opts else opts.portBindings.map Prod.snd

/-- The managed labels of the record are those of this create, and so are the ports and
the octet read back from it. -/
structure Authoritative (id : String) (opts : CreateContainerOpts)
    (bridge : Option (String × List (UInt16 × UInt16))) (record : ContainerRecord) : Prop where
  managed : ∀ key ∈ record.labels, isManagedLabel key = true → key = networkModeLabel ∨
    (key = bridgeIpLabel ∧ opts.network = .bridge) ∨
    ∃ pair ∈ hostContainerPairs opts bridge, key = portLabel pair.2
  mode : record.labels.lookup networkModeLabel = some opts.network.labelValue
  bridgeIp : record.labels.lookup bridgeIpLabel = bridge.map Prod.fst
  ports : ∀ pair ∈ hostContainerPairs opts bridge,
    ∃ host, record.labels.lookup (portLabel pair.2) = some (portText host) ∧
      (host, pair.2) ∈ hostContainerPairs opts bridge
  forwards : ∀ task pair, pair ∈ (containerToInfo id record task).portForwards →
    pair ∈ hostContainerPairs opts bridge
  octet : opts.network ≠ .bridge → (record.labels.lookup bridgeIpLabel).bind parseOctet = none

/-- Every managed label of the image or of the user is one the create writes over. -/
def Overwritten (image : ImageConfiguration) (opts : CreateContainerOpts) : Prop :=
  ∀ key ∈ buildLabels image opts, isManagedLabel key = true → key = networkModeLabel ∨
    (key = bridgeIpLabel ∧ opts.network = .bridge) ∨
    ∃ port ∈ forwardedPorts opts, key = portLabel port

/-! ## Labels of a record -/

theorem isManagedLabel_iff (key : String) : isManagedLabel key = true ↔
    key = networkModeLabel ∨ key = bridgeIpLabel ∨ (stripPortLabel key).isSome := by
  simp only [isManagedLabel, stripPortLabel, Bool.or_eq_true, decide_eq_true_eq, or_assoc]
  split <;> simp_all

theorem isManagedLabel_portLabel (port : UInt16) : isManagedLabel (portLabel port) = true := by
  rw [isManagedLabel_iff, stripPortLabel_portLabel]
  exact .inr (.inr rfl)

/-- A label that stands for a binding is under the prefix of bindings. -/
theorem isSome_stripPortLabel {key value : String} {pair : UInt16 × UInt16}
    (h : portBinding key value = some pair) : (stripPortLabel key).isSome := by
  cases hs : stripPortLabel key with
  | none => simp [portBinding, hs] at h
  | some cs => rfl

theorem withPorts_lookup_cases {pairs : List (UInt16 × UInt16)} {labels : Labels}
    {key value : String} (h : (withPorts pairs labels).lookup key = some value) :
    (∃ pair ∈ pairs, key = portLabel pair.2 ∧ value = portText pair.1) ∨
      labels.lookup key = some value ∧ ∀ pair ∈ pairs, key ≠ portLabel pair.2 := by
  induction pairs generalizing labels with
  | nil => exact .inr ⟨h, fun _ hp => by cases hp⟩
  | cons q pairs ih =>
    rcases ih h with ⟨pair, hp, hk⟩ | ⟨hl, hn⟩
    · exact .inl ⟨pair, List.mem_cons_of_mem _ hp, hk⟩
    · by_cases hq : key = portLabel q.2
      · subst hq
        rw [AList.lookup_insert] at hl
        cases hl
        exact .inl ⟨q, List.mem_cons_self, rfl, rfl⟩
      · rw [AList.lookup_insert_ne hq] at hl
        refine .inr ⟨hl, fun pair hp => ?_⟩
        rcases List.mem_cons.mp hp with rfl | hp
        · exact hq
        · exact hn pair hp

/-- A label that no pair is for stays. -/
theorem lookup_withPorts_of_ne {pairs : List (UInt16 × UInt16)} {key : String}
    (h : ∀ pair ∈ pairs, key ≠ portLabel pair.2) (labels : Labels) :
    (withPorts pairs labels).lookup key = labels.lookup key := by
  induction pairs generalizing labels with
  | nil => rfl
  | cons q pairs ih =>
    exact (ih (fun pair hp => h pair (List.mem_cons_of_mem _ hp)) _).trans
      (AList.lookup_insert_ne (h q List.mem_cons_self))

theorem mem_withPorts {pairs : List (UInt16 × UInt16)} {labels : Labels} {key : String}
    (h : key ∈ labels ∨ ∃ pair ∈ pairs, key = portLabel pair.2) : key ∈ withPorts pairs labels := by
  induction pairs generalizing labels with
  | nil =>
    rcases h with h | ⟨pair, hp, -⟩
    · exact h
    · cases hp
  | cons q pairs ih =>
    refine ih ?_
    rcases h with h | ⟨pair, hp, hk⟩
    · exact .inl ((AList.mem_insert _).mpr (.inr h))
    · rcases List.mem_cons.mp hp with rfl | hp
      · exact .inl ((AList.mem_insert _).mpr (.inl hk))
      · exact .inr ⟨pair, hp, hk⟩

section Labels

variable (namespace_ name : String) (image : ImageConfiguration) (opts : CreateContainerOpts)
  (ip : Option String) (pairs : List (UInt16 × UInt16)) {key : String}

/-- Nothing that the image or the user supplied is removed. -/
theorem mem_containerLabels (h : key ∈ buildLabels image opts ∨
    ∃ pair ∈ pairs, key = portLabel pair.2) :
    key ∈ containerLabels namespace_ name image opts ip pairs := by
  simp only [containerLabels, AList.mem_insert]
  refine .inr (.inr (.inr (mem_withPorts (h.imp_left fun hk => ?_))))
  cases ip with
  | none => exact (AList.mem_insert _).mpr (.inr hk)
  | some ip => exact (AList.mem_insert _).mpr (.inr ((AList.mem_insert _).mpr (.inr hk)))

/-- A name label is not managed. -/
theorem lookup_managed (h : isManagedLabel key = true) :
    (containerLabels namespace_ name image opts ip pairs).lookup key =
      (withPorts pairs (ip.elim ((buildLabels image opts).insert networkModeLabel
        opts.network.labelValue) fun ip => ((buildLabels image opts).insert networkModeLabel
          opts.network.labelValue).insert bridgeIpLabel ip)).lookup key := by
  have hkey := not_mem_nameLabels h
  simp only [nameLabels, List.mem_cons, List.not_mem_nil, or_false, not_or] at hkey
  unfold containerLabels
  rw [AList.lookup_insert_ne hkey.2.2, AList.lookup_insert_ne hkey.2.1,
    AList.lookup_insert_ne hkey.1]
  cases ip <;> rfl

/-- **Where a managed label comes from**: this create, the image or the user. -/
theorem lookup_managed_cases {value : String} (h : isManagedLabel key = true)
    (hl : (containerLabels namespace_ name image opts ip pairs).lookup key = some value) :
    (∃ pair ∈ pairs, key = portLabel pair.2 ∧ value = portText pair.1) ∨ key = networkModeLabel ∨
      (key = bridgeIpLabel ∧ ip = some value) ∨ (buildLabels image opts).lookup key = some value ∧
        ∀ pair ∈ pairs, key ≠ portLabel pair.2 := by
  rw [lookup_managed namespace_ name image opts ip pairs h] at hl
  rcases withPorts_lookup_cases hl with hpair | ⟨hbase, hn⟩
  · exact .inl hpair
  · refine .inr ?_
    by_cases hmode : key = networkModeLabel
    · exact .inl hmode
    · refine .inr ?_
      cases ip with
      | none => exact .inr ⟨(AList.lookup_insert_ne hmode).symm.trans hbase, hn⟩
      | some ip =>
        rw [Option.elim_some] at hbase
        by_cases hip : key = bridgeIpLabel
        · subst hip
          rw [AList.lookup_insert] at hbase
          exact .inl ⟨rfl, hbase⟩
        · rw [AList.lookup_insert_ne hip, AList.lookup_insert_ne hmode] at hbase
          exact .inr ⟨hbase, hn⟩

/-- A label under the prefix of bindings that no pair is for is the image's or the user's. -/
theorem lookup_stray (hkey : (stripPortLabel key).isSome)
    (hne : ∀ pair ∈ pairs, key ≠ portLabel pair.2) :
    (containerLabels namespace_ name image opts ip pairs).lookup key =
      (buildLabels image opts).lookup key := by
  have hother : ∀ {other}, stripPortLabel other = none → key ≠ other := by
    rintro other hnone rfl
    rw [hnone] at hkey
    cases hkey
  rw [lookup_managed namespace_ name image opts ip pairs
    ((isManagedLabel_iff key).mpr (.inr (.inr hkey))), lookup_withPorts_of_ne hne]
  cases ip with
  | none => exact AList.lookup_insert_ne (hother stripPortLabel_mode)
  | some ip =>
    exact (AList.lookup_insert_ne (hother stripPortLabel_bridgeIp)).trans
      (AList.lookup_insert_ne (hother stripPortLabel_mode))

end Labels

/-! ## The bindings read back -/

/-- A binding that `labels` stand for under a key that is the label of none of `ports`. -/
def Stray (labels : Labels) (ports : List UInt16) (pair : UInt16 × UInt16) : Prop :=
  ∃ key value, labels.lookup key = some value ∧ portBinding key value = some pair ∧
    ∀ port ∈ ports, key ≠ portLabel port

section Forwards

variable {client : Client} {id name image key : String} {opts : CreateContainerOpts}
  {metadata : ImageMetadata} {bridge : Option (String × List (UInt16 × UInt16))}
  {task : Option TaskInfo}

/-- **Where a binding of a new container comes from**: it was written for one of the pairs, or the
image or the user supplied it. -/
theorem mem_forwards_cases {pair : UInt16 × UInt16}
    (h : pair ∈ (containerToInfo id
      (recordOf client id name image opts metadata key bridge) task).portForwards) :
    pair ∈ hostContainerPairs opts bridge ∨ Stray (buildLabels metadata.config opts)
      ((hostContainerPairs opts bridge).map Prod.snd) pair := by
  obtain ⟨⟨k, value⟩, hmem, hb⟩ := List.mem_filterMap.mp h
  have hstrip := isSome_stripPortLabel hb
  have hl : (recordOf client id name image opts metadata key bridge).labels.lookup k =
      some value := AList.mem_lookup_iff.mpr hmem
  by_cases hk : ∃ q ∈ hostContainerPairs opts bridge, k = portLabel q.2
  · have hmanaged : isManagedLabel k = true := (isManagedLabel_iff k).mpr (.inr (.inr hstrip))
    rcases lookup_managed_cases _ _ _ _ _ _ hmanaged hl with
      ⟨q, hq, rfl, rfl⟩ | rfl | ⟨rfl, -⟩ | ⟨-, hne⟩
    · cases (portBinding_label q.1 q.2).symm.trans hb
      exact .inl hq
    · rw [stripPortLabel_mode] at hstrip
      cases hstrip
    · rw [stripPortLabel_bridgeIp] at hstrip
      cases hstrip
    · obtain ⟨q, hq, he⟩ := hk
      exact absurd he (hne q hq)
  · have hne : ∀ q ∈ hostContainerPairs opts bridge, k ≠ portLabel q.2 := fun q hq he =>
      hk ⟨q, hq, he⟩
    refine .inr ⟨k, value, ?_, hb, fun port hport => ?_⟩
    · rw [← hl]
      exact (lookup_stray _ _ _ _ _ _ hstrip hne).symm
    · obtain ⟨q, hq, rfl⟩ := List.mem_map.mp hport
      exact hne q hq

variable (client id name image key metadata task)

/-- Every container port of the pairs is read back, with the host port of one of them. -/
theorem mem_forwards_of_pair {pair : UInt16 × UInt16} (h : pair ∈ hostContainerPairs opts bridge) :
    ∃ host, (host, pair.2) ∈ hostContainerPairs opts bridge ∧
      (host, pair.2) ∈ (containerToInfo id
        (recordOf client id name image opts metadata key bridge) task).portForwards := by
  have hmem : portLabel pair.2 ∈ (recordOf client id name image opts metadata key bridge).labels :=
    mem_containerLabels _ _ _ _ _ _ (.inr ⟨pair, h, rfl⟩)
  obtain ⟨value, hl⟩ := Option.isSome_iff_exists.mp (AList.lookup_isSome.mpr hmem)
  rcases lookup_managed_cases _ _ _ _ _ _ (isManagedLabel_portLabel pair.2) hl with
    ⟨q, hq, he, rfl⟩ | he | ⟨he, -⟩ | ⟨-, hne⟩
  · rw [portLabel_injective he] at hl ⊢
    exact ⟨q.1, hq, List.mem_filterMap.mpr ⟨⟨portLabel q.2, portText q.1⟩,
      AList.mem_lookup_iff.mp hl, portBinding_label q.1 q.2⟩⟩
  · exact absurd he.symm (portLabel_ne stripPortLabel_mode _)
  · exact absurd he.symm (portLabel_ne stripPortLabel_bridgeIp _)
  · exact absurd rfl (hne pair h)

/-- A stray binding is read back. -/
theorem mem_forwards_of_stray {pair : UInt16 × UInt16}
    (h : Stray (buildLabels metadata.config opts)
      ((hostContainerPairs opts bridge).map Prod.snd) pair) :
    pair ∈ (containerToInfo id
      (recordOf client id name image opts metadata key bridge) task).portForwards := by
  obtain ⟨k, value, hl, hb, hne⟩ := h
  refine List.mem_filterMap.mpr ⟨⟨k, value⟩, AList.mem_lookup_iff.mp ?_, hb⟩
  show _ = some value
  rw [← hl]
  exact lookup_stray _ _ _ _ _ _ (isSome_stripPortLabel hb) fun q hq =>
    hne q.2 (List.mem_map_of_mem hq)

end Forwards

/-! ## The record of a create -/

theorem BridgeDrawn.ports {client : Client} {opts : CreateContainerOpts}
    {bridge : Option (String × List (UInt16 × UInt16))} {w w' : World κ}
    (h : BridgeDrawn client opts bridge w w') :
    (hostContainerPairs opts bridge).map Prod.snd = forwardedPorts opts := by
  by_cases hmode : opts.network = .bridge
  · obtain ⟨octet, ports, rfl, -, hfst, -⟩ := h.drawn hmode
    rw [forwardedPorts, if_pos hmode, ← hfst, hostContainerPairs, List.map_map]
    rfl
  · rw [h.none hmode, forwardedPorts, if_neg hmode]
    rfl

theorem BridgeDrawn.ip {client : Client} {opts : CreateContainerOpts}
    {bridge : Option (String × List (UInt16 × UInt16))} {w w' : World κ}
    (h : BridgeDrawn client opts bridge w w') {ip : String} (hip : bridge.map Prod.fst = some ip) :
    opts.network = .bridge := by
  by_contra hmode
  rw [h.none hmode] at hip
  cases hip

section Record

variable {client : Client} {id name image key : String} {opts : CreateContainerOpts}
  {metadata : ImageMetadata} {bridge : Option (String × List (UInt16 × UInt16))} {w w' : World κ}
  (hdrawn : BridgeDrawn client opts bridge w w')

include hdrawn

theorem authoritative_of_overwritten (h : Overwritten metadata.config opts) :
    Authoritative id opts bridge (recordOf client id name image opts metadata key bridge) := by
  have hmanaged : ∀ k value, isManagedLabel k = true →
      (recordOf client id name image opts metadata key bridge).labels.lookup k = some value →
      (∃ pair ∈ hostContainerPairs opts bridge, k = portLabel pair.2 ∧ value = portText pair.1) ∨
        k = networkModeLabel ∨ (k = bridgeIpLabel ∧ opts.network = .bridge) := by
    intro k value hk hl
    rcases lookup_managed_cases client.namespace_ name metadata.config opts (bridge.map Prod.fst)
      (hostContainerPairs opts bridge) hk hl with hpair | hmode | ⟨hip, hb⟩ | ⟨hb, hn⟩
    · exact .inl hpair
    · exact .inr (.inl hmode)
    · exact .inr (.inr ⟨hip, hdrawn.ip hb⟩)
    · have hmem : k ∈ buildLabels metadata.config opts := AList.lookup_isSome.mp (by rw [hb]; rfl)
      rcases h k hmem hk with hmode | hip | ⟨port, hport, rfl⟩
      · exact .inr (.inl hmode)
      · exact .inr (.inr hip)
      · rw [← hdrawn.ports] at hport
        obtain ⟨pair, hp, rfl⟩ := List.mem_map.mp hport
        exact absurd rfl (hn pair hp)
  have hport : ∀ k value, (stripPortLabel k).isSome →
      (recordOf client id name image opts metadata key bridge).labels.lookup k = some value →
      ∃ pair ∈ hostContainerPairs opts bridge, k = portLabel pair.2 ∧ value = portText pair.1 := by
    intro k value hk hl
    rcases hmanaged k value ((isManagedLabel_iff k).mpr (.inr (.inr hk))) hl with
      hpair | rfl | ⟨rfl, -⟩
    · exact hpair
    · rw [stripPortLabel_mode] at hk
      cases hk
    · rw [stripPortLabel_bridgeIp] at hk
      cases hk
  have hip : (recordOf client id name image opts metadata key bridge).labels.lookup bridgeIpLabel =
      bridge.map Prod.fst := by
    cases hb : bridge with
    | some b => exact lookup_bridgeIp _ _ _ _ _ _
    | none =>
      subst hb
      refine Option.eq_none_iff_forall_ne_some.mpr fun value hl => ?_
      rcases hmanaged _ value isManagedLabel_bridgeIp hl with
        ⟨pair, -, hkey, -⟩ | hkey | ⟨-, hmode⟩
      · exact absurd hkey (portLabel_ne stripPortLabel_bridgeIp _)
      · exact absurd hkey bridgeIpLabel_ne_mode
      · obtain ⟨octet, ports, hsome, -⟩ := hdrawn.drawn hmode
        cases hsome
  refine ⟨fun k hk hm => ?_, lookup_mode _ _ _ _ _ _, hip, fun pair hp => ?_,
    fun task pair hp => ?_,
    fun hmode => ?_⟩
  · obtain ⟨value, hl⟩ := Option.isSome_iff_exists.mp (AList.lookup_isSome.mpr hk)
    rcases hmanaged k value hm hl with ⟨pair, hp, hkey, -⟩ | hmode | hbridge
    · exact .inr (.inr ⟨pair, hp, hkey⟩)
    · exact .inl hmode
    · exact .inr (.inl hbridge)
  · have hmem : portLabel pair.2 ∈
        (recordOf client id name image opts metadata key bridge).labels :=
      mem_containerLabels _ _ _ _ _ _ (.inr ⟨pair, hp, rfl⟩)
    obtain ⟨value, hl⟩ := Option.isSome_iff_exists.mp (AList.lookup_isSome.mpr hmem)
    obtain ⟨written, hw, hkey, rfl⟩ := hport _ value (by rw [stripPortLabel_portLabel]; rfl) hl
    rw [portLabel_injective hkey]
    exact ⟨written.1, by rw [← hl, portLabel_injective hkey], hw⟩
  · obtain ⟨⟨k, value⟩, hmem, hb⟩ := List.mem_filterMap.mp hp
    obtain ⟨written, hw, rfl, rfl⟩ := hport k value (isSome_stripPortLabel hb)
      (AList.mem_lookup_iff.mpr hmem)
    cases (portBinding_label written.1 written.2).symm.trans hb
    exact hw
  · rw [hip, hdrawn.none hmode]
    rfl

/-- **When the managed labels are those of the create**: exactly when it writes over every
managed label of the image and of the user. -/
theorem authoritative_iff :
    Authoritative id opts bridge (recordOf client id name image opts metadata key bridge) ↔
      Overwritten metadata.config opts := by
  refine ⟨fun h k hk hm => ?_, authoritative_of_overwritten hdrawn⟩
  have hmem : k ∈ (recordOf client id name image opts metadata key bridge).labels :=
    mem_containerLabels _ _ _ _ _ _ (.inl hk)
  rcases h.managed k hmem hm with hmode | hip | ⟨pair, hp, hkey⟩
  · exact .inl hmode
  · exact .inr (.inl hip)
  · refine .inr (.inr ⟨pair.2, ?_, hkey⟩)
    rw [← hdrawn.ports]
    exact List.mem_map_of_mem hp

end Record

/-- **Managed labels are those of the create** exactly when it writes over every managed label
of the image and of the user. -/
theorem managed_labels_iff (client : Client) (id name image r : String) (opts : CreateContainerOpts)
    (w w' : World κ) (record : ContainerRecord)
    (hrun : (createContainer client id name image opts).run w = .ok r w')
    (hrecord : w'.containers.lookup id = some record) :
    ∃ metadata bridge, ReadsMetadata client w image metadata ∧
      BridgeDrawn client opts bridge w w' ∧
      (Authoritative id opts bridge record ↔ Overwritten metadata.config opts) := by
  obtain ⟨metadata, bridge, hreads, hdrawn, rfl⟩ := createContainer_record hrun hrecord
  exact ⟨metadata, bridge, hreads, hdrawn, authoritative_iff hdrawn⟩

/-- Options with a label of the user, in host mode. -/
def userLabelled (key : String) : CreateContainerOpts where
  network := .host
  labels := (∅ : Labels).insert key "80"

theorem userLabelled_created (key : String)
    (h : key = "app" ∨ key = "containerd-manager.port.9999") : ∃ w' record,
    (createContainer {} "c1" "web" "mongo" (userLabelled key)).run oneImage = .ok "c1" w' ∧
      w'.containers.lookup "c1" = some record := by
  have hok : (result (createContainer {} "c1" "web" "mongo" (userLabelled key)).run
      oneImage).toOption = some "c1" := by
    rcases h with rfl | rfl <;> decide +kernel
  have hlook : ((after (createContainer {} "c1" "web" "mongo" (userLabelled key)).run
      oneImage).containers.lookup "c1").isSome = true := by
    rcases h with rfl | rfl <;> decide +kernel
  obtain ⟨w', hr⟩ := ok_of_result hok
  rw [after_ok hr, Option.isSome_iff_exists] at hlook
  obtain ⟨record, hrecord⟩ := hlook
  exact ⟨w', record, hr, hrecord⟩

/-- A label of the user that is not managed is no matter. -/
theorem managed_labels_kept : ∃ w' record,
    (createContainer {} "c1" "web" "mongo" (userLabelled "app")).run oneImage = .ok "c1" w' ∧
      w'.containers.lookup "c1" = some record ∧
      Authoritative "c1" (userLabelled "app") none record := by
  obtain ⟨w', record, hr, hrecord⟩ := userLabelled_created "app" (.inl rfl)
  obtain ⟨metadata, bridge, hreads, hdrawn, hiff⟩ :=
    managed_labels_iff _ _ _ _ _ _ _ _ record hr hrecord
  have hnone : bridge = none := hdrawn.none (by decide)
  subst hnone
  refine ⟨w', record, hr, hrecord, hiff.mpr fun key hkey hm => ?_⟩
  have hmeta := hreads.cached (AList.lookup_insert _) (AList.lookup_insert _)
  subst hmeta
  have hall : ∀ key ∈ (buildLabels { diffIds := ["chain"] } (userLabelled "app")).keys,
      isManagedLabel key = false := by decide +kernel
  rw [hall key hkey] at hm
  cases hm

/-- A label of the user is read back as a binding of port 9999. -/
theorem managed_labels_forged : ∃ w' record,
    (createContainer {} "c1" "web" "mongo" (userLabelled "containerd-manager.port.9999")).run
      oneImage = .ok "c1" w' ∧ w'.containers.lookup "c1" = some record ∧
    ∀ bridge, BridgeDrawn {} (userLabelled "containerd-manager.port.9999") bridge oneImage w' →
      ¬ Authoritative "c1" (userLabelled "containerd-manager.port.9999") bridge record := by
  obtain ⟨w', record, hr, hrecord⟩ := userLabelled_created _ (.inr rfl)
  refine ⟨w', record, hr, hrecord, fun bridge hdrawn h => ?_⟩
  have hports : ((after (createContainer {} "c1" "web" "mongo"
      (userLabelled "containerd-manager.port.9999")).run oneImage).containers.lookup "c1").map
        (fun record => parsePortBindingLabels record.labels) = some [(80, 9999)] := by
    decide +kernel
  rw [after_ok hr, hrecord, Option.map_some, Option.some.injEq] at hports
  have hforward := h.forwards none (80, 9999) (by
    show _ ∈ parsePortBindingLabels record.labels
    rw [hports]
    exact List.mem_singleton_self _)
  rw [hdrawn.none (by decide)] at hforward
  cases hforward

end ContainerdManager.Container
