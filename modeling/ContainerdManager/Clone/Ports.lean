import ContainerdManager.Clone.Created
import ContainerdManager.Container.Managed
import ContainerdManager.Snapshot.Restored

/-!
# The ports of clones and restored containers

Both hand `create_container_with_id` the pair `(0, port)` for a port that is
to get a host port. Only a bridge draws one, in other modes the record says
host port 0; and a bridge without ports gets the default port.
-/

namespace ContainerdManager.Clone

open Lib Containerd Container Snapshot ContainerdManager.Task

variable {κ : Type}

/-- One of the next `count` host ports the system hands out. -/
def Drawn (client : Client) (w : World κ) (count : Nat) (host : UInt16) : Prop :=
  ∃ i < count, client.freePort (w.portPicks + i) = .port host

/-- `ports` are exposed and no others, each on a host port drawn for it. -/
structure FreshPorts (client : Client) (id : String) (ports : List UInt16)
    (record : ContainerRecord) (w : World κ) : Prop where
  exposed : ∀ task port,
    port ∈ (containerToInfo id record task).portForwards.map Prod.snd ↔ port ∈ ports
  drawn : ∀ task, ∀ pair ∈ (containerToInfo id record task).portForwards,
    pair.1 ≠ 0 ∧ Drawn client w ports.length pair.1

/-- There is a bridge exactly when there are ports, and a binding `labels` stand for that is not
written over is of one of the ports and of a host port drawn for them. -/
structure PortsWritten (client : Client) (labels : Labels) (mode : NetworkMode)
    (ports : List UInt16) (w : World κ) : Prop where
  bridged : mode = .bridge ↔ ports ≠ []
  stray : ∀ pair, Stray labels ports pair → pair.2 ∈ ports ∧ Drawn client w ports.length pair.1

/-- The container ports of a clone. -/
def clonedPorts (source : ContainerRecord) (opts : CloneContainerOpts) : List UInt16 :=
  if opts.inheritSrcPorts then (parsePortBindingLabels source.labels).map Prod.snd
  else opts.portBindings

/-! ## The ports of a record -/

section Record

variable {client : Client} {id name image key : String} {opts : CreateContainerOpts}
  {metadata : ImageMetadata} {bridge : Option (String × List (UInt16 × UInt16))}
  {ports : List UInt16} {w w₁ w₂ : World κ}

/-- With every port on a host port drawn for it, only stray bindings are in the way. -/
theorem freshPorts_iff_of_pairs
    (hports : (hostContainerPairs opts bridge).map Prod.snd = ports)
    (hpairs : ∀ pair ∈ hostContainerPairs opts bridge,
      pair.1 ≠ 0 ∧ Drawn client w ports.length pair.1)
    (hzero : ∀ n port, client.freePort n = .port port → port ≠ 0) :
    FreshPorts client id ports (recordOf client id name image opts metadata key bridge) w ↔
      ∀ pair, Stray (buildLabels metadata.config opts) ports pair →
        pair.2 ∈ ports ∧ Drawn client w ports.length pair.1 := by
  constructor
  · intro h pair hstray
    have hmem := mem_forwards_of_stray client id name image key metadata none
      (hports.symm ▸ hstray)
    exact ⟨(h.exposed none pair.2).mp (List.mem_map_of_mem hmem), (h.drawn none pair hmem).2⟩
  · intro h
    have hcases : ∀ task pair, pair ∈ (containerToInfo id
        (recordOf client id name image opts metadata key bridge) task).portForwards →
        pair.2 ∈ ports ∧ pair.1 ≠ 0 ∧ Drawn client w ports.length pair.1 := by
      intro task pair hmem
      rcases mem_forwards_cases hmem with hpair | hstray
      · exact ⟨hports ▸ List.mem_map_of_mem hpair, hpairs pair hpair⟩
      · rw [hports] at hstray
        obtain ⟨hport, i, hi, hfree⟩ := h pair hstray
        exact ⟨hport, hzero _ _ hfree, i, hi, hfree⟩
    refine ⟨fun task port => ⟨fun hmem => ?_, fun hmem => ?_⟩,
      fun task pair hmem => (hcases task pair hmem).2⟩
    · obtain ⟨pair, hpair, rfl⟩ := List.mem_map.mp hmem
      exact (hcases task pair hpair).1
    · rw [← hports] at hmem
      obtain ⟨pair, hpair, rfl⟩ := List.mem_map.mp hmem
      obtain ⟨host, -, hread⟩ := mem_forwards_of_pair client id name image key metadata task hpair
      exact List.mem_map.mpr ⟨_, hread, rfl⟩

/-- Every pair of a bridge has a host port drawn for it. -/
theorem drawn_of_mem_pairs (h : BridgeDrawn client opts bridge w₁ w₂)
    (hmode : opts.network = .bridge) {pair : UInt16 × UInt16}
    (hpair : pair ∈ hostContainerPairs opts bridge) :
    Drawn client w₁ (bridgePorts opts).length pair.1 := by
  obtain ⟨octet, drawn, rfl, -, hfst, hfree⟩ := h.drawn hmode
  obtain ⟨q, hq, rfl⟩ := List.mem_map.mp hpair
  obtain ⟨i, hi, rfl⟩ := List.mem_iff_getElem.mp hq
  have hlen : (bridgePorts opts).length = drawn.length := by
    rw [← hfst, List.length_map]
  obtain ⟨q, hget, hport⟩ := hfree i (hlen ▸ hi)
  cases (List.getElem?_eq_getElem hi).symm.trans hget
  exact ⟨i, hlen ▸ hi, hport⟩

/-- **When the ports of a create are fresh** and those asked for by `(0, port)` pairs. -/
theorem freshPorts_iff (hdrawn : BridgeDrawn client opts bridge w₁ w₂)
    (hpicks : w₁.portPicks = w.portPicks)
    (hbindings : opts.portBindings = ports.map fun port => (0, port))
    (hzero : ∀ n port, client.freePort n = .port port → port ≠ 0) :
    FreshPorts client id ports (recordOf client id name image opts metadata key bridge) w ↔
      PortsWritten client (buildLabels metadata.config opts) opts.network ports w := by
  have hsnd : opts.portBindings.map Prod.snd = ports := by
    rw [hbindings, List.map_map]
    exact List.map_id ports
  have hforwarded := hdrawn.ports
  by_cases hmode : opts.network = .bridge
  · rw [forwardedPorts, if_pos hmode] at hforwarded
    by_cases hnil : ports = []
    · -- the default port is exposed
      subst hnil
      have hdefault : bridgePorts opts = [27017] := by
        rw [bridgePorts, hbindings]
        rfl
      refine ⟨fun h => ?_, fun h => absurd rfl (h.bridged.mp hmode)⟩
      have hmem : (27017 : UInt16) ∈ (hostContainerPairs opts bridge).map Prod.snd := by
        rw [hforwarded, hdefault]
        exact List.mem_cons_self
      obtain ⟨pair, hpair, -⟩ := List.mem_map.mp hmem
      obtain ⟨host, -, hread⟩ := mem_forwards_of_pair client id name image key metadata none hpair
      cases (h.exposed none pair.2).mp (List.mem_map.mpr ⟨_, hread, rfl⟩)
    · have hbridge : bridgePorts opts = ports := by
        rw [bridgePorts, hsnd, if_neg]
        rw [hbindings, List.isEmpty_iff, List.map_eq_nil_iff]
        exact hnil
      rw [hbridge] at hforwarded
      rw [freshPorts_iff_of_pairs hforwarded (fun pair hpair => ?_) hzero]
      · exact ⟨fun h => ⟨⟨fun _ => hnil, fun _ => hmode⟩, h⟩, fun h => h.stray⟩
      · obtain ⟨i, hi, hfree⟩ := drawn_of_mem_pairs hdrawn hmode hpair
        rw [hpicks] at hfree
        exact ⟨hzero _ _ hfree, i, hbridge ▸ hi, hfree⟩
  · rw [forwardedPorts, if_neg hmode, hsnd] at hforwarded
    by_cases hnil : ports = []
    · rw [freshPorts_iff_of_pairs hforwarded (fun pair hpair => ?_) hzero]
      · exact ⟨fun h => ⟨⟨fun hb => absurd hb hmode, fun hp => absurd hnil hp⟩, h⟩,
          fun h => h.stray⟩
      · have hmem : pair.2 ∈ (hostContainerPairs opts bridge).map Prod.snd :=
          List.mem_map_of_mem hpair
        rw [hforwarded, hnil] at hmem
        cases hmem
    · -- the pair `(0, port)` is recorded as it is
      refine ⟨fun h => ?_, fun h => absurd (h.bridged.mpr hnil) hmode⟩
      obtain ⟨port, hport⟩ := List.exists_mem_of_ne_nil ports hnil
      have hpair : ((0 : UInt16), port) ∈ hostContainerPairs opts bridge := by
        rw [hdrawn.none hmode, hostContainerPairs, hbindings]
        exact List.mem_map_of_mem hport
      obtain ⟨host, hhost, hread⟩ :=
        mem_forwards_of_pair client id name image key metadata none hpair
      rw [hdrawn.none hmode, hostContainerPairs, hbindings] at hhost
      obtain ⟨_, -, he⟩ := List.mem_map.mp hhost
      cases he
      exact absurd rfl (h.drawn none _ hread).1

end Record

/-! ## Clones and restored containers -/

/-- The labels of an image. -/
def imageLabels (image : ImageConfiguration) : Labels :=
  (image.config.bind ImageConfig.labels).getD ∅

/-- The options of a clone have no managed label: a binding among its labels is the image's. -/
theorem lookup_binding_cloneOpts {srcInfo : ContainerInfo} {key : String}
    {opts : CloneContainerOpts}
    {createOpts : CreateContainerOpts} (h : cloneOpts srcInfo key opts = .ok createOpts)
    (image : ImageConfiguration) {k : String} (hk : (stripPortLabel k).isSome) :
    (buildLabels image createOpts).lookup k = (imageLabels image).lookup k := by
  have hnone := lookup_cloneOpts h k
  rw [if_pos ((isManagedLabel_iff k).mpr (.inr (.inr hk)))] at hnone
  exact AList.lookup_union_right (AList.lookup_eq_none.mp hnone)

theorem stray_cloneOpts {srcInfo : ContainerInfo} {key : String} {opts : CloneContainerOpts}
    {createOpts : CreateContainerOpts} (h : cloneOpts srcInfo key opts = .ok createOpts)
    (image : ImageConfiguration) (ports : List UInt16) (pair : UInt16 × UInt16) :
    Stray (buildLabels image createOpts) ports pair ↔ Stray (imageLabels image) ports pair := by
  constructor
  · rintro ⟨k, value, hl, hb, hne⟩
    rw [lookup_binding_cloneOpts h image (isSome_stripPortLabel hb)] at hl
    exact ⟨k, value, hl, hb, hne⟩
  · rintro ⟨k, value, hl, hb, hne⟩
    rw [← lookup_binding_cloneOpts h image (isSome_stripPortLabel hb)] at hl
    exact ⟨k, value, hl, hb, hne⟩

theorem cloneContainer_ports {client : Client}
    (hzero : ∀ n port, client.freePort n = .port port → port ≠ 0)
    {src dst dstName r : String} {opts : CloneContainerOpts} {w w' : World κ}
    {record : ContainerRecord}
    (hrun : (cloneContainer client src dst dstName opts).run w = .ok r w')
    (hrecord : w'.containers.lookup dst = some record) :
    ∃ source metadata, w.containers.lookup src = some source ∧
      ReadsMetadata client w source.image metadata ∧
      (FreshPorts client dst (clonedPorts source opts) record w ↔
        PortsWritten client (imageLabels metadata.config)
          (opts.network.getD (networkFromLabels source.labels)) (clonedPorts source opts) w) := by
  obtain ⟨-, source, createOpts, metadata, bridge, hclone⟩ := cloneContainer_created hrun
  obtain ⟨task, hopts⟩ := hclone.opts
  obtain ⟨w₁, w₂, hinputs, hcreated, hconts⟩ := hclone.created
  have hrec := hcreated.record
  rw [← hconts, hrecord] at hrec
  cases hrec
  refine ⟨source, metadata, hclone.source, hcreated.reads.of_sameImages hinputs.toSameImages, ?_⟩
  obtain ⟨-, hcreateOpts⟩ := cloneOpts_ok hopts
  have hbindings : createOpts.portBindings = (clonedPorts source opts).map fun port =>
      (0, port) := by
    rw [hcreateOpts]
    rfl
  rw [freshPorts_iff hcreated.bridge hinputs.portPicks hbindings hzero]
  have hmode : createOpts.network = opts.network.getD (networkFromLabels source.labels) := by
    rw [hcreateOpts]
    rfl
  rw [hmode]
  constructor
  · exact fun h => ⟨h.bridged, fun pair hp => h.stray pair ((stray_cloneOpts hopts _ _ _).mpr hp)⟩
  · exact fun h => ⟨h.bridged, fun pair hp => h.stray pair ((stray_cloneOpts hopts _ _ _).mp hp)⟩

theorem restoreContainer_ports {client : Client}
    (hzero : ∀ n port, client.freePort n = .port port → port ≠ 0)
    {name dst dstName r : String} {opts : RestoreContainerOpts} {w w' : World κ}
    {record : ContainerRecord}
    (hrun : (restoreContainer client name dst dstName opts).run w = .ok r w')
    (hrecord : w'.containers.lookup dst = some record) :
    ∃ snap image metadata, w.snapshots.lookup (defaultSnapshotter, name) = some snap ∧
      snap.labels.lookup imageLabel = some image ∧ ReadsMetadata client w image metadata ∧
      (FreshPorts client dst opts.portBindings record w ↔
        PortsWritten client (opts.labels ∪ imageLabels metadata.config)
          (opts.network.getD .bridge) opts.portBindings w) := by
  obtain ⟨snap, image, metadata, bridge, w₁, hl, himage, hinputs, hcreated⟩ :=
    restoreContainer_created hrun
  have hrec := hcreated.record
  rw [hrecord] at hrec
  cases hrec
  exact ⟨snap, image, metadata, hl, himage, hcreated.reads.of_sameImages hinputs.toSameImages,
    freshPorts_iff hcreated.bridge hinputs.portPicks rfl hzero⟩

/-- **When the ports of a clone or a restored container are fresh**, if the system never hands
out port 0: exactly when there is a bridge if and only if there are ports to expose, and no label
of the image or the user stands for another binding. -/
theorem fresh_ports_iff (client : Client)
    (hzero : ∀ n port, client.freePort n = .port port → port ≠ 0) :
    (∀ (src dst dstName r : String) (opts : CloneContainerOpts) (w w' : World κ)
      (record : ContainerRecord),
      (cloneContainer client src dst dstName opts).run w = .ok r w' →
      w'.containers.lookup dst = some record →
      ∃ source metadata, w.containers.lookup src = some source ∧
        ReadsMetadata client w source.image metadata ∧
        (FreshPorts client dst (clonedPorts source opts) record w ↔
          PortsWritten client (imageLabels metadata.config)
            (opts.network.getD (networkFromLabels source.labels)) (clonedPorts source opts) w)) ∧
    ∀ (name dst dstName r : String) (opts : RestoreContainerOpts) (w w' : World κ)
      (record : ContainerRecord),
      (restoreContainer client name dst dstName opts).run w = .ok r w' →
      w'.containers.lookup dst = some record →
      ∃ snap image metadata, w.snapshots.lookup (defaultSnapshotter, name) = some snap ∧
        snap.labels.lookup imageLabel = some image ∧ ReadsMetadata client w image metadata ∧
        (FreshPorts client dst opts.portBindings record w ↔
          PortsWritten client (opts.labels ∪ imageLabels metadata.config)
            (opts.network.getD .bridge) opts.portBindings w) :=
  ⟨fun _ _ _ _ _ _ _ _ => cloneContainer_ports hzero,
    fun _ _ _ _ _ _ _ _ => restoreContainer_ports hzero⟩

/-- A restore of `golden` that exposes `ports`. -/
def restoring (ports : List UInt16) : RestoreContainerOpts where
  portBindings := ports

theorem restoring_created (ports : List UInt16) (h : ports = [] ∨ ports = [80]) : ∃ r w' record,
    (restoreContainer {} "golden" "c1" "db" (restoring ports)).run goldenWorld = .ok r w' ∧
      w'.containers.lookup "c1" = some record := by
  have hok : (result (restoreContainer {} "golden" "c1" "db" (restoring ports)).run
      goldenWorld).toOption = some "c1" := by
    rcases h with rfl | rfl <;> decide +kernel
  have hlook : ((after (restoreContainer {} "golden" "c1" "db" (restoring ports)).run
      goldenWorld).containers.lookup "c1").isSome = true := by
    rcases h with rfl | rfl <;> decide +kernel
  obtain ⟨w', hr⟩ := ok_of_result hok
  rw [after_ok hr, Option.isSome_iff_exists] at hlook
  obtain ⟨record, hrecord⟩ := hlook
  exact ⟨"c1", w', record, hr, hrecord⟩

/-- The store after a container that exposes port 80 was created as `c1`. -/
def exposedWorld : World Unit :=
  after (createContainer {} "c1" "db" "mongo" { portBindings := [(0, 80)] }).run oneImage

theorem cloning_created : ∃ r w' source record,
    (cloneContainer {} "c1" "c2" "copy" {}).run exposedWorld = .ok r w' ∧
      exposedWorld.containers.lookup "c1" = some source ∧
      w'.containers.lookup "c2" = some record := by
  have hok : (result (cloneContainer {} "c1" "c2" "copy" {}).run exposedWorld).toOption =
      some "c2" := by decide +kernel
  have hlook : (exposedWorld.containers.lookup "c1").isSome = true ∧
      ((after (cloneContainer {} "c1" "c2" "copy" {}).run exposedWorld).containers.lookup
        "c2").isSome = true := by decide +kernel
  obtain ⟨w', hr⟩ := ok_of_result hok
  rw [after_ok hr] at hlook
  obtain ⟨source, hsource⟩ := Option.isSome_iff_exists.mp hlook.1
  obtain ⟨record, hrecord⟩ := Option.isSome_iff_exists.mp hlook.2
  exact ⟨"c2", w', source, record, hr, hsource, hrecord⟩

/-- A restored container that exposes port 80 has it on a host port drawn for it, and so has a clone
of one that exposes it. -/
theorem fresh_ports_restored :
    (∃ r w' record, (restoreContainer {} "golden" "c1" "db" (restoring [80])).run goldenWorld =
        .ok r w' ∧ w'.containers.lookup "c1" = some record ∧
        FreshPorts {} "c1" [80] record goldenWorld) ∧
    ∃ r w' source record, (cloneContainer {} "c1" "c2" "copy" {}).run exposedWorld = .ok r w' ∧
        exposedWorld.containers.lookup "c1" = some source ∧ clonedPorts source {} = [80] ∧
        w'.containers.lookup "c2" = some record ∧ FreshPorts {} "c2" [80] record exposedWorld := by
  have hzero : ∀ n port, ({} : Client).freePort n = .port port → port ≠ 0 := by
    rintro n port h rfl
    cases h
  constructor
  · obtain ⟨r, w', record, hr, hrecord⟩ := restoring_created [80] (.inr rfl)
    obtain ⟨snap, image, metadata, hl, himage, hreads, hiff⟩ :=
      (fresh_ports_iff {} hzero).2 _ _ _ _ _ _ _ _ hr hrecord
    refine ⟨r, w', record, hr, hrecord, hiff.mpr ⟨by decide, fun pair hstray => ?_⟩⟩
    have hmongo : (goldenWorld.snapshots.lookup (defaultSnapshotter, "golden")).map
        (fun snap => snap.labels.lookup imageLabel) = some (some "mongo") := by decide +kernel
    rw [hl, Option.map_some, himage] at hmongo
    cases hmongo
    rw [hreads.cached (AList.lookup_insert _) (AList.lookup_insert _)] at hstray
    obtain ⟨key, value, hkey, -⟩ := hstray
    cases hkey
  · obtain ⟨r, w', source, record, hr, hsource, hrecord⟩ := cloning_created
    obtain ⟨found, metadata, hl, hreads, hiff⟩ :=
      (fresh_ports_iff {} hzero).1 _ _ _ _ _ _ _ _ hr hrecord
    cases hsource.symm.trans hl
    have hread : (exposedWorld.containers.lookup "c1").map (fun source =>
        (source.image, networkFromLabels source.labels, clonedPorts source {})) =
          some ("mongo", .bridge, [80]) := by decide +kernel
    have hstore : exposedWorld.images.lookup "mongo" = some (some "sha256:1") ∧
        exposedWorld.metadataCache.lookup "sha256:1" =
          oneImage.metadataCache.lookup "sha256:1" := by decide +kernel
    rw [hsource, Option.map_some, Option.some.injEq, Prod.mk.injEq, Prod.mk.injEq] at hread
    obtain ⟨himage, hmode, hports⟩ := hread
    rw [himage] at hreads
    rw [hports] at hiff
    refine ⟨r, w', source, record, hr, hsource, hports, hrecord, hiff.mpr
      ⟨iff_of_true hmode (by decide), fun pair hstray => ?_⟩⟩
    rw [hreads.cached hstore.1 (hstore.2.trans (AList.lookup_insert _))] at hstray
    obtain ⟨key, value, hkey, -⟩ := hstray
    cases hkey

/-- A restored container that is to expose no port exposes the default one. -/
theorem fresh_ports_default : ∃ r w' record,
    (restoreContainer {} "golden" "c1" "db" (restoring [])).run goldenWorld = .ok r w' ∧
      w'.containers.lookup "c1" = some record ∧
      ¬ FreshPorts {} "c1" [] record goldenWorld := by
  obtain ⟨r, w', record, hr, hrecord⟩ := restoring_created [] (.inl rfl)
  refine ⟨r, w', record, hr, hrecord, fun h => ?_⟩
  have hports : ((after (restoreContainer {} "golden" "c1" "db" (restoring [])).run
      goldenWorld).containers.lookup "c1").map
      (fun record => (parsePortBindingLabels record.labels).map Prod.snd) = some [27017] := by
    decide +kernel
  rw [after_ok hr, hrecord, Option.map_some, Option.some.injEq] at hports
  have hmem : (27017 : UInt16) ∈ (containerToInfo "c1" record none).portForwards.map Prod.snd := by
    show _ ∈ (parsePortBindingLabels record.labels).map Prod.snd
    rw [hports]
    exact List.mem_cons_self
  cases (h.exposed none _).mp hmem

end ContainerdManager.Clone
