import ContainerdManager.Container.Created

/-!
# The port bindings of a new container

The declared `(host_port, container_port)` pairs on their way through
`create_container`: in host and isolated mode they become the labels of the
record as they are; in bridge mode every container port gets a free port of
the host, in the hooks and in the labels, and the declared host port is
dropped.
-/

namespace ContainerdManager.Container

open Lib Containerd ContainerdManager.Task

variable {κ : Type}

/-- What is read back from the record are the declared bindings, and in bridge mode the poststart
hook forwards exactly these. -/
def DeclaredPorts (id : String) (opts : CreateContainerOpts) (record : ContainerRecord) : Prop :=
  (∀ task pair, pair ∈ (containerToInfo id record task).portForwards ↔ pair ∈ opts.portBindings) ∧
  (opts.network = .bridge → ∃ hooks script, record.spec.bind OciSpec.hooks = some hooks ∧
    hooks.poststart = [shHook script] ∧
    ∀ pair, pair ∈ socatForwards script ↔ pair ∈ opts.portBindings)

/-- No label under the prefix of port bindings but those of declared container ports. -/
def OnlyDeclaredPorts (opts : CreateContainerOpts) (record : ContainerRecord) : Prop :=
  ∀ key ∈ record.labels, (stripPortLabel key).isSome → ∃ pair ∈ opts.portBindings,
    key = portLabel pair.2

/-! ## Declared and read back -/

theorem bridgeIp_chars (octet : Nat) :
    '\n' ∉ (bridgeIp octet).toList ∧ ':' ∉ (bridgeIp octet).toList := by
  have hdig (c : Char) (hc : c.isDigit = false) : c ∉ Nat.toDigits 10 octet := fun h => by
    rw [isDigit_decimal h] at hc
    cases hc
  have hlist : (bridgeIp octet).toList = "10.88.1.".toList ++ Nat.toDigits 10 octet := by
    simp [bridgeIp, containerSubnet, toString, Nat.repr]
  rw [hlist, List.mem_append, List.mem_append]
  constructor
  · rintro (h | h)
    · exact absurd h (by decide +kernel)
    · exact hdig _ (by decide) h
  · rintro (h | h)
    · exact absurd h (by decide +kernel)
    · exact hdig _ (by decide) h

/-- The bindings read back are the pairs the record was built with. -/
theorem portForwards_recordOf {client : Client} {id name image key : String}
    {opts : CreateContainerOpts} {metadata : ImageMetadata}
    {bridge : Option (String × List (UInt16 × UInt16))}
    (hports : (hostContainerPairs opts bridge).map Prod.snd = opts.portBindings.map Prod.snd)
    (hd : (opts.portBindings.map Prod.snd).Nodup)
    (honly : OnlyDeclaredPorts opts (recordOf client id name image opts metadata key bridge))
    (task : Option TaskInfo) (pair : UInt16 × UInt16) :
    pair ∈ (containerToInfo id
      (recordOf client id name image opts metadata key bridge) task).portForwards ↔
      pair ∈ hostContainerPairs opts bridge := by
  refine mem_parsePortBindingLabels (fun k hk hs => ?_) (fun q hq => ?_) pair
  · obtain ⟨q, hq, rfl⟩ := honly k hk hs
    have hmem : q.2 ∈ (hostContainerPairs opts bridge).map Prod.snd := by
      rw [hports]
      exact List.mem_map_of_mem hq
    obtain ⟨p, hp, he⟩ := List.mem_map.mp hmem
    exact ⟨p, hp, by rw [he]⟩
  · exact lookup_port _ _ _ _ _ _ (by rwa [hports]) hq

/-- Container ports that are distinct name their pair. -/
theorem pair_eq_of_port {pairs : List (UInt16 × UInt16)} (hd : (pairs.map Prod.snd).Nodup)
    {p q : UInt16 × UInt16} (hp : p ∈ pairs) (hq : q ∈ pairs) (h : p.2 = q.2) : p = q :=
  List.inj_on_of_nodup_map hd hp hq h

/-- The pairs of a bridge container are the declared ones exactly when every free port
is the declared host port. -/
theorem picked_eq_declared_iff {client : Client} {opts : CreateContainerOpts} {first : Nat}
    {ports : List (UInt16 × UInt16)} (hd : (opts.portBindings.map Prod.snd).Nodup)
    (hfst : ports.map Prod.fst = opts.portBindings.map Prod.snd)
    (hpick : ∀ i < opts.portBindings.length,
      ∃ q ∈ ports[i]?, client.freePort (first + i) = .port q.2) :
    (∀ pair, pair ∈ ports.map Prod.swap ↔ pair ∈ opts.portBindings) ↔
      ∀ i pair, opts.portBindings[i]? = some pair → client.freePort (first + i) = .port pair.1 := by
  have hport : ∀ (i : Nat) (p q : UInt16 × UInt16), ports[i]? = some q →
      opts.portBindings[i]? = some p → q.1 = p.2 := by
    intro i p q hq hp
    have hi := congrArg (·[i]?) hfst
    simp only [List.getElem?_map, hq, hp, Option.map_some, Option.some.injEq] at hi
    exact hi
  constructor
  · intro hall i pair hpair
    obtain ⟨hi, -⟩ := List.getElem?_eq_some_iff.mp hpair
    obtain ⟨q, hq, hfree⟩ := hpick i hi
    have hmem : q.swap ∈ opts.portBindings :=
      (hall _).mp (List.mem_map_of_mem (List.mem_of_getElem? hq))
    have heq : q.swap = pair :=
      pair_eq_of_port hd hmem (List.mem_of_getElem? hpair) (hport i pair q hq hpair)
    rw [hfree, ← heq, Prod.fst_swap]
  · intro hall
    have hsame : ports.map Prod.swap = opts.portBindings := by
      have hlen : ports.length = opts.portBindings.length := by
        have hl := congrArg List.length hfst
        rwa [List.length_map, List.length_map] at hl
      refine List.ext_getElem? fun i => ?_
      cases hp : opts.portBindings[i]? with
      | none =>
        rw [List.getElem?_eq_none_iff] at hp ⊢
        rwa [List.length_map, hlen]
      | some pair =>
        obtain ⟨hi, -⟩ := List.getElem?_eq_some_iff.mp hp
        obtain ⟨q, hq, hfree⟩ := hpick i hi
        have hhost : q.2 = pair.1 := by
          have h := hfree.symm.trans (hall i pair hp)
          injection h
        rw [List.getElem?_map, hq, Option.map_some, show q.swap = (q.2, q.1) from rfl, hhost,
          hport i pair q hq hp]
    intro pair
    rw [hsame]

/-- **When the declared bindings are the ones in force**: in host and isolated mode always, in
bridge mode only when every port the host hands out happens to be the declared one. -/
theorem declared_ports_iff (client : Client) (id name image r : String) (opts : CreateContainerOpts)
    (w w' : World κ) (record : ContainerRecord) (hid : ∀ c ∈ id.toList, c.isAlphanum = true)
    (hne : opts.portBindings ≠ []) (hd : (opts.portBindings.map Prod.snd).Nodup)
    (hrun : (createContainer client id name image opts).run w = .ok r w')
    (hrecord : w'.containers.lookup id = some record) (honly : OnlyDeclaredPorts opts record) :
    DeclaredPorts id opts record ↔ (opts.network = .bridge → ∀ i pair,
      opts.portBindings[i]? = some pair → client.freePort (w.portPicks + i) = .port pair.1) := by
  obtain ⟨metadata, bridge, -, hdrawn, rfl⟩ := createContainer_record hrun hrecord
  have hports : bridgePorts opts = opts.portBindings.map Prod.snd := by
    unfold bridgePorts
    rw [if_neg (by simpa using hne)]
  by_cases hmode : opts.network = .bridge
  · obtain ⟨octet, ports, rfl, -, hfst, hpick⟩ := hdrawn.drawn hmode
    rw [hports] at hfst hpick
    rw [List.length_map] at hpick
    have hpairs : hostContainerPairs opts (some (bridgeIp octet, ports)) =
        ports.map Prod.swap := rfl
    have hsnd : (ports.map Prod.swap).map Prod.snd = opts.portBindings.map Prod.snd := by
      rw [List.map_map, ← hfst]
      rfl
    have hforwards := portForwards_recordOf (hpairs ▸ hsnd) hd honly
    have hscript : socatForwards (poststartHookScript id (bridgeIp octet) ports) =
        ports.map Prod.swap := by
      have hnl : '\n' ∉ id.toList := fun h => absurd (hid _ h) (by decide)
      exact socatForwards_poststart hnl (bridgeIp_chars octet).1 (bridgeIp_chars octet).2 ports
    have hiff := picked_eq_declared_iff hd hfst hpick
    constructor
    · intro h _
      exact hiff.mp fun pair => ((hforwards none pair).symm.trans (h.1 none pair))
    · intro h
      have hall := hiff.mpr (h hmode)
      refine ⟨fun task pair => (hforwards task pair).trans (hall pair), fun _ => ?_⟩
      refine ⟨_, poststartHookScript id (bridgeIp octet) ports, rfl, rfl, fun pair => ?_⟩
      rw [hscript]
      exact hall pair
  · obtain rfl := hdrawn.none hmode
    refine ⟨fun _ h => absurd h hmode, fun _ => ⟨?_, fun h => absurd h hmode⟩⟩
    exact portForwards_recordOf rfl hd honly

/-- One declared binding in bridge mode. -/
def oneBinding : CreateContainerOpts where
  portBindings := [(18080, 80)]

/-- The host hands out the given port. -/
def handsOut (port : UInt16) : Client where
  freePort _ := .port port

/-- A create with `oneBinding` succeeds, and its record has no other port label. -/
theorem oneBinding_created (client : Client)
    (h : client = handsOut 18080 ∨ client = handsOut 49152) : ∃ w' record,
    (createContainer client "c1" "web" "mongo" oneBinding).run oneImage = .ok "c1" w' ∧
      w'.containers.lookup "c1" = some record ∧ OnlyDeclaredPorts oneBinding record := by
  have hok : (result (createContainer client "c1" "web" "mongo" oneBinding).run oneImage).toOption =
      some "c1" := by
    rcases h with rfl | rfl <;> decide +kernel
  have hlook : ((after (createContainer client "c1" "web" "mongo" oneBinding).run
      oneImage).containers.lookup "c1").any (fun record => record.labels.keys.all fun key =>
        !(stripPortLabel key).isSome || key == portLabel 80) = true := by
    rcases h with rfl | rfl <;> decide +kernel
  obtain ⟨w', hr⟩ := ok_of_result hok
  rw [after_ok hr, Option.any_eq_true] at hlook
  obtain ⟨record, hrecord, hkeys⟩ := hlook
  refine ⟨w', record, hr, hrecord, fun key hkey hstrip => ⟨(18080, 80), by simp [oneBinding], ?_⟩⟩
  have hk := List.all_eq_true.mp hkeys key hkey
  simpa [hstrip] using hk

theorem declared_ports_handed_out : ∃ w' record,
    (createContainer (handsOut 18080) "c1" "web" "mongo" oneBinding).run oneImage = .ok "c1" w' ∧
      w'.containers.lookup "c1" = some record ∧ DeclaredPorts "c1" oneBinding record := by
  obtain ⟨w', record, hr, hrecord, honly⟩ := oneBinding_created _ (.inl rfl)
  refine ⟨w', record, hr, hrecord, ?_⟩
  refine (declared_ports_iff _ _ _ _ _ _ _ _ record (List.all_eq_true.mp (by decide)) (by decide)
    (by decide) hr hrecord honly).mpr fun _ i pair hpair => ?_
  have hmem : pair = (18080, 80) := List.mem_singleton.mp (List.mem_of_getElem? hpair)
  rw [hmem]
  rfl

/-- A container that declares host port 18080 is bound to another one. -/
theorem declared_port_dropped :
    ¬ ∀ (client : Client) (id name image r : String) (opts : CreateContainerOpts)
      (w w' : World Unit)
      (record : ContainerRecord), (∀ c ∈ id.toList, c.isAlphanum = true) → opts.portBindings ≠ [] →
      (∀ pair ∈ opts.portBindings, pair.1 ≠ 0) → (opts.portBindings.map Prod.snd).Nodup →
      (createContainer client id name image opts).run w = .ok r w' →
      w'.containers.lookup id = some record → OnlyDeclaredPorts opts record →
      DeclaredPorts id opts record := by
  intro h
  obtain ⟨w', record, hr, hrecord, honly⟩ := oneBinding_created (handsOut 49152) (.inr rfl)
  have hdeclared := h _ _ _ _ _ _ _ _ record (List.all_eq_true.mp (by decide)) (by decide)
    (fun pair hpair => by rw [List.mem_singleton.mp hpair]; decide) (by decide) hr hrecord honly
  have hread : (after (createContainer (handsOut 49152) "c1" "web" "mongo" oneBinding).run
      oneImage).containers.lookup "c1" = some record := by
    rw [after_ok hr, hrecord]
  have hports : ((after (createContainer (handsOut 49152) "c1" "web" "mongo" oneBinding).run
      oneImage).containers.lookup "c1").map (fun record => parsePortBindingLabels record.labels) =
        some [(49152, 80)] := by
    decide +kernel
  rw [hread, Option.map_some, Option.some.injEq] at hports
  have hmem : (49152, 80) ∈ oneBinding.portBindings := by
    rw [← hdeclared.1 none]
    show _ ∈ parsePortBindingLabels record.labels
    rw [hports]
    exact List.mem_singleton_self _
  revert hmem
  decide

end ContainerdManager.Container
