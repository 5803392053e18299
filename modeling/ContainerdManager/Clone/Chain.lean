import ContainerdManager.Clone.Ports

/-!
# Chains of clones

A chain is a list of calls of `clone_container`, each of the container the
one before it made. What a clone inherits is proved of one call and carried
along a chain by induction.
-/

namespace ContainerdManager.Clone

open Lib Containerd Container ContainerdManager.Task

variable {κ : Type}

/-! ## Chains -/

/-- A call of `clone_container`, with the worlds before and after it. -/
structure CloneRun (κ : Type) where
  client : Client
  src : String
  dst : String
  dstName : String
  opts : CloneContainerOpts
  before : World κ
  after : World κ

/-- The call returned, and `clone` is what it made of `source`. -/
structure CloneRun.Makes (c : CloneRun κ) (source clone : ContainerRecord) : Prop where
  run : ∃ r, (cloneContainer c.client c.src c.dst c.dstName c.opts).run c.before = .ok r c.after
  source : c.before.containers.lookup c.src = some source
  clone : c.after.containers.lookup c.dst = some clone

/-- Clones of clones; between two calls anything may happen but to the record cloned. -/
inductive CloneChain : ContainerRecord → List (CloneRun κ) → ContainerRecord → Prop
  | nil (record : ContainerRecord) : CloneChain record [] record
  | cons {c : CloneRun κ} {calls : List (CloneRun κ)} {source clone last : ContainerRecord} :
      c.Makes source clone → CloneChain clone calls last → CloneChain source (c :: calls) last

/-- The record of a clone is built from the options made of its source. -/
theorem CloneRun.Makes.built {c : CloneRun κ} {source clone : ContainerRecord}
    (h : c.Makes source clone) :
    ∃ task createOpts metadata bridge, cloneOpts (containerToInfo c.src source task)
        (snapshotKeyFor c.dst) c.opts = .ok createOpts ∧
      ReadsMetadata c.client c.before source.image metadata ∧
      clone = recordOf c.client c.dst c.dstName source.image createOpts metadata
        (createOpts.fromExistingSnapshot.getD (snapshotKeyFor c.dst)) bridge ∧
      ∃ w₁ w₂ : World κ, BridgeDrawn c.client createOpts bridge w₁ w₂ := by
  obtain ⟨r, hrun⟩ := h.run
  obtain ⟨-, record, createOpts, metadata, bridge, hclone⟩ := cloneContainer_created hrun
  cases hclone.source.symm.trans h.source
  obtain ⟨task, hopts⟩ := hclone.opts
  obtain ⟨w₁, w₂, hinputs, hcreated, hconts⟩ := hclone.created
  have hrecord := h.clone
  rw [hconts, hcreated.record] at hrecord
  cases hrecord
  exact ⟨task, createOpts, metadata, bridge, hopts,
    hcreated.reads.of_sameImages hinputs.toSameImages, rfl, w₁, w₂, hcreated.bridge⟩

/-! ## Network posture -/

/-- What a record says of its network. -/
structure Posture where
  mode : Option String
  namespaced : Bool
  hooked : Bool
  deriving DecidableEq, Repr

def posture (record : ContainerRecord) : Posture where
  mode := record.labels.lookup networkModeLabel
  namespaced := record.spec.any fun spec => spec.namespaces.contains .network
  hooked := record.spec.any fun spec => spec.hooks.isSome

/-- The posture of a container created in `mode`. -/
def postureOf (mode : NetworkMode) : Posture where
  mode := some mode.labelValue
  namespaced := mode ≠ .host
  hooked := mode = .bridge

def exposedPorts (record : ContainerRecord) : List UInt16 :=
  (parsePortBindingLabels record.labels).map Prod.snd

theorem postureOf_injective {mode mode' : NetworkMode} (h : postureOf mode = postureOf mode') :
    mode = mode' := by
  cases mode <;> cases mode' <;> first | rfl | exact absurd h (by decide)

/-- The label is read back, but for a container without external connectivity. -/
theorem networkFromLabels_eq {labels : Labels} {mode : NetworkMode}
    (h : labels.lookup networkModeLabel = some mode.labelValue) :
    networkFromLabels labels = if mode = .isolated then .bridge else mode := by
  unfold networkFromLabels
  rw [h]
  cases mode <;> decide

section Record

variable {client : Client} {id name image key : String} {opts : CreateContainerOpts}
  {metadata : ImageMetadata} {bridge : Option (String × List (UInt16 × UInt16))} {w w' : World κ}

theorem posture_recordOf (h : BridgeDrawn client opts bridge w w') :
    posture (recordOf client id name image opts metadata key bridge) = postureOf opts.network := by
  have hmode : (recordOf client id name image opts metadata key bridge).labels.lookup
      networkModeLabel = some opts.network.labelValue := lookup_mode _ _ _ _ _ _
  have hnamespaced : (buildNamespaces opts.network).contains .network =
      decide (opts.network ≠ .host) := by
    cases opts.network <;> decide
  have hhooked : (hooksOf client id opts bridge).isSome = decide (opts.network = .bridge) := by
    by_cases hbridge : opts.network = .bridge
    · obtain ⟨octet, ports, rfl, -⟩ := h.drawn hbridge
      exact (decide_eq_true hbridge).symm
    · rw [h.none hbridge]
      exact (decide_eq_false hbridge).symm
  rw [posture, hmode, postureOf]
  exact congrArg₂ (Posture.mk _) hnamespaced hhooked

/-- **The ports a record exposes** are those forwarded and those the labels of the image and the
user stand for. -/
theorem mem_exposedPorts (h : BridgeDrawn client opts bridge w w') (port : UInt16) :
    port ∈ exposedPorts (recordOf client id name image opts metadata key bridge) ↔
      port ∈ forwardedPorts opts ∨
        port ∈ (parsePortBindingLabels (buildLabels metadata.config opts)).map Prod.snd := by
  rw [← h.ports]
  constructor
  · intro hmem
    obtain ⟨pair, hpair, rfl⟩ := List.mem_map.mp hmem
    have hforward : pair ∈ (containerToInfo id
        (recordOf client id name image opts metadata key bridge) none).portForwards := hpair
    rcases mem_forwards_cases hforward with hpair | ⟨k, value, hl, hb, -⟩
    · exact .inl (List.mem_map_of_mem hpair)
    · exact .inr (List.mem_map_of_mem (List.mem_filterMap.mpr
        ⟨⟨k, value⟩, AList.mem_lookup_iff.mp hl, hb⟩))
  · have hforwarded : ∀ {port}, port ∈ (hostContainerPairs opts bridge).map Prod.snd →
        port ∈ exposedPorts (recordOf client id name image opts metadata key bridge) := by
      intro port hport
      obtain ⟨pair, hpair, rfl⟩ := List.mem_map.mp hport
      obtain ⟨host, -, hread⟩ := mem_forwards_of_pair client id name image key metadata none hpair
      exact List.mem_map.mpr ⟨_, hread, rfl⟩
    rintro (hport | hport)
    · exact hforwarded hport
    · obtain ⟨pair, hpair, rfl⟩ := List.mem_map.mp hport
      obtain ⟨⟨k, value⟩, hmem, hb⟩ := List.mem_filterMap.mp hpair
      by_cases hk : ∃ port ∈ (hostContainerPairs opts bridge).map Prod.snd, k = portLabel port
      · -- the label is written over, with a binding of the same port
        obtain ⟨port, hport, rfl⟩ := hk
        have hsame : port = pair.2 := by
          simp only [portBinding, stripPortLabel_portLabel, Option.bind_some, parseU16_portText,
            Option.bind_eq_bind] at hb
          obtain ⟨host, -, he⟩ := Option.bind_eq_some_iff.mp hb
          cases he
          rfl
        exact hforwarded (hsame ▸ hport)
      · exact List.mem_map.mpr ⟨pair, mem_forwards_of_stray client id name image key metadata none
          ⟨k, value, AList.mem_lookup_iff.mpr hmem, hb, fun port hport he => hk ⟨port, hport, he⟩⟩,
          rfl⟩

theorem exposedPorts_ne_nil (h : BridgeDrawn client opts bridge w w')
    (hbridge : opts.network = .bridge) :
    exposedPorts (recordOf client id name image opts metadata key bridge) ≠ [] := by
  have hne : bridgePorts opts ≠ [] := by
    unfold bridgePorts
    split
    · exact List.cons_ne_nil _ _
    · rename_i hempty
      rw [List.isEmpty_iff] at hempty
      exact fun h => hempty (List.map_eq_nil_iff.mp h)
  obtain ⟨port, hport⟩ := List.exists_mem_of_ne_nil _ hne
  have hforwarded : port ∈ forwardedPorts opts := by
    rw [forwardedPorts, if_pos hbridge]
    exact hport
  exact List.ne_nil_of_mem ((mem_exposedPorts h port).mpr (.inl hforwarded))

end Record

/-- The bindings among the labels of a clone's options are the image's. -/
theorem mem_bindings_cloneOpts {srcInfo : ContainerInfo} {key : String} {opts : CloneContainerOpts}
    {createOpts : CreateContainerOpts} (h : cloneOpts srcInfo key opts = .ok createOpts)
    (image : ImageConfiguration) (pair : UInt16 × UInt16) :
    pair ∈ parsePortBindingLabels (buildLabels image createOpts) ↔
      pair ∈ parsePortBindingLabels (imageLabels image) := by
  have hmem : ∀ labels : Labels, pair ∈ parsePortBindingLabels labels ↔
      ∃ k value, labels.lookup k = some value ∧ portBinding k value = some pair := by
    intro labels
    constructor
    · intro hp
      obtain ⟨⟨k, value⟩, he, hb⟩ := List.mem_filterMap.mp hp
      exact ⟨k, value, AList.mem_lookup_iff.mpr he, hb⟩
    · rintro ⟨k, value, hl, hb⟩
      exact List.mem_filterMap.mpr ⟨⟨k, value⟩, AList.mem_lookup_iff.mp hl, hb⟩
  rw [hmem, hmem]
  constructor
  · rintro ⟨k, value, hl, hb⟩
    rw [lookup_binding_cloneOpts h image (isSome_stripPortLabel hb)] at hl
    exact ⟨k, value, hl, hb⟩
  · rintro ⟨k, value, hl, hb⟩
    rw [← lookup_binding_cloneOpts h image (isSome_stripPortLabel hb)] at hl
    exact ⟨k, value, hl, hb⟩

/-- What is forwarded for ports that are given without host ports. -/
theorem mem_forwardedPorts {opts : CreateContainerOpts} {ports : List UInt16}
    (h : opts.portBindings = ports.map fun port => (0, port)) (port : UInt16) :
    port ∈ forwardedPorts opts ↔
      port ∈ ports ∨ (opts.network = .bridge ∧ ports = [] ∧ port = 27017) := by
  have hsnd : opts.portBindings.map Prod.snd = ports := by
    rw [h, List.map_map]
    exact List.map_id ports
  have hempty : opts.portBindings.isEmpty = true ↔ ports = [] := by
    rw [List.isEmpty_iff, h, List.map_eq_nil_iff]
  rw [forwardedPorts, bridgePorts, hsnd]
  by_cases hmode : opts.network = .bridge
  · by_cases hnil : ports = []
    · rw [if_pos hmode, if_pos (hempty.mpr hnil), hnil, List.mem_singleton]
      exact ⟨fun hp => .inr ⟨hmode, rfl, hp⟩, fun hp => hp.elim (fun hp => by cases hp) fun hp =>
        hp.2.2⟩
    · rw [if_pos hmode, if_neg (fun he => hnil (hempty.mp he))]
      exact ⟨.inl, fun hp => hp.elim id fun hp => absurd hp.2.1 hnil⟩
  · rw [if_neg hmode]
    exact ⟨.inl, fun hp => hp.elim id fun hp => absurd hp.1 hmode⟩

section Call

variable {c : CloneRun κ} {source clone : ContainerRecord}

/-- **What one clone does to the network**: the posture is that of the mode read from the source,
and to the ports of the source come those of the image and the default one. -/
theorem CloneRun.Makes.network (h : c.Makes source clone) (hmode : c.opts.network = none)
    (hinherit : c.opts.inheritSrcPorts = true) :
    clone.image = source.image ∧ posture clone = postureOf (networkFromLabels source.labels) ∧
      ∃ metadata, ReadsMetadata c.client c.before source.image metadata ∧
        ∀ port, port ∈ exposedPorts clone ↔ (port ∈ exposedPorts source ∨
          (networkFromLabels source.labels = .bridge ∧ exposedPorts source = [] ∧ port = 27017)) ∨
          port ∈ (parsePortBindingLabels (imageLabels metadata.config)).map Prod.snd := by
  obtain ⟨task, createOpts, metadata, bridge, hopts, hreads, rfl, w₁, w₂, hdrawn⟩ := h.built
  obtain ⟨-, hcreateOpts⟩ := cloneOpts_ok hopts
  have hnetwork : createOpts.network = networkFromLabels source.labels := by
    rw [hcreateOpts, hmode]
    rfl
  have hbindings : createOpts.portBindings = (exposedPorts source).map fun port => (0, port) := by
    rw [hcreateOpts, hinherit]
    rfl
  refine ⟨rfl, ?_, metadata, hreads, fun port => ?_⟩
  · rw [posture_recordOf hdrawn, hnetwork]
  · rw [mem_exposedPorts hdrawn, mem_forwardedPorts hbindings, hnetwork]
    refine or_congr_right ?_
    simp only [List.mem_map, mem_bindings_cloneOpts hopts]

end Call

/-- What a clone has from the container the chain started with, which was created in `mode`. -/
structure Inherited (mode : NetworkMode) (source record : ContainerRecord) : Prop where
  image : record.image = source.image
  posture : posture record = postureOf mode
  ports : ∀ port, port ∈ exposedPorts record ↔ port ∈ exposedPorts source

/-- One clone keeps what was inherited, if no label of the image adds a port. -/
theorem Inherited.makes {mode : NetworkMode} {source record clone : ContainerRecord}
    {c : CloneRun κ} (h : Inherited mode source record) (hmode : mode ≠ .isolated)
    (hdefault : mode = .bridge → exposedPorts source ≠ [])
    (hc : c.Makes record clone) (hnetwork : c.opts.network = none)
    (hinherit : c.opts.inheritSrcPorts = true)
    (hports : ∀ metadata, ReadsMetadata c.client c.before source.image metadata →
      ∀ pair ∈ parsePortBindingLabels (imageLabels metadata.config),
        pair.2 ∈ exposedPorts source) :
    Inherited mode source clone := by
  obtain ⟨himage, hposture, metadata, hreads, hexposed⟩ := hc.network hnetwork hinherit
  have hlabel : record.labels.lookup networkModeLabel = some mode.labelValue :=
    congrArg Posture.mode h.posture
  rw [networkFromLabels_eq hlabel, if_neg hmode] at hposture hexposed
  rw [h.image] at hreads
  refine ⟨himage.trans h.image, hposture, fun port => ?_⟩
  rw [hexposed, h.ports]
  refine ⟨fun hport => ?_, fun hport => .inl (.inl hport)⟩
  rcases hport with (hport | ⟨hbridge, hnil, -⟩) | hport
  · exact hport
  · refine absurd (List.eq_nil_iff_forall_not_mem.mpr fun port hport => ?_) (hdefault hbridge)
    rw [← h.ports, hnil] at hport
    cases hport
  · obtain ⟨pair, hpair, rfl⟩ := List.mem_map.mp hport
    exact hports metadata hreads pair hpair

theorem Inherited.chain {mode : NetworkMode} {source record last : ContainerRecord}
    {calls : List (CloneRun κ)} (hchain : CloneChain record calls last)
    (h : Inherited mode source record) (hmode : mode ≠ .isolated)
    (hdefault : mode = .bridge → exposedPorts source ≠ [])
    (hopts : ∀ c ∈ calls, c.opts.network = none ∧ c.opts.inheritSrcPorts = true)
    (hports : ∀ c ∈ calls, ∀ metadata, ReadsMetadata c.client c.before source.image metadata →
      ∀ pair ∈ parsePortBindingLabels (imageLabels metadata.config),
        pair.2 ∈ exposedPorts source) :
    Inherited mode source last := by
  induction hchain with
  | nil record => exact h
  | cons hc hrest ih =>
    obtain ⟨hnetwork, hinherit⟩ := hopts _ List.mem_cons_self
    exact ih (h.makes hmode hdefault hc hnetwork hinherit (hports _ List.mem_cons_self))
      (fun c hmem => hopts c (List.mem_cons_of_mem _ hmem))
      fun c hmem => hports c (List.mem_cons_of_mem _ hmem)

/-- Clones of a container without external connectivity are bridged. -/
theorem chain_of_isolated {record last : ContainerRecord} {calls : List (CloneRun κ)}
    (hchain : CloneChain record calls last) (hne : calls ≠ [])
    (hmode : posture record = postureOf .isolated ∨ posture record = postureOf .bridge)
    (hopts : ∀ c ∈ calls, c.opts.network = none ∧ c.opts.inheritSrcPorts = true) :
    posture last = postureOf .bridge := by
  induction hchain with
  | nil record => exact absurd rfl hne
  | @cons c calls source clone last hc hrest ih =>
    obtain ⟨hnetwork, hinherit⟩ := hopts _ List.mem_cons_self
    obtain ⟨-, hposture, -⟩ := hc.network hnetwork hinherit
    have hbridge : networkFromLabels source.labels = .bridge := by
      rcases hmode with hmode | hmode
      · have hlabel : source.labels.lookup networkModeLabel =
            some NetworkMode.isolated.labelValue :=
          congrArg Posture.mode hmode
        exact networkFromLabels_eq hlabel
      · have hlabel : source.labels.lookup networkModeLabel = some NetworkMode.bridge.labelValue :=
          congrArg Posture.mode hmode
        exact networkFromLabels_eq hlabel
    rw [hbridge] at hposture
    cases hrest with
    | nil => exact hposture
    | cons hc' hrest' =>
      exact ih (List.cons_ne_nil _ _) (.inr hposture) fun c hmem =>
        hopts c (List.mem_cons_of_mem _ hmem)

/-- **When network posture is inherited along a chain**, with no image whose labels stand for a port
that the source does not expose: unless the source has no external connectivity. -/
theorem clone_chain_posture (client : Client) (id name image r : String)
    (opts : CreateContainerOpts) (w w' : World κ) (source last : ContainerRecord)
    (calls : List (CloneRun κ))
    (hrun : (createContainer client id name image opts).run w = .ok r w')
    (hsource : w'.containers.lookup id = some source) (hchain : CloneChain source calls last)
    (hopts : ∀ c ∈ calls, c.opts.network = none ∧ c.opts.inheritSrcPorts = true)
    (hports : ∀ c ∈ calls, ∀ metadata, ReadsMetadata c.client c.before image metadata →
      ∀ pair ∈ parsePortBindingLabels (imageLabels metadata.config),
        pair.2 ∈ exposedPorts source) :
    (posture last = posture source ∧ ∀ port ∈ exposedPorts last, port ∈ exposedPorts source) ↔
      (calls = [] ∨ opts.network ≠ .isolated) := by
  obtain ⟨metadata, bridge, -, hdrawn, rfl⟩ := createContainer_record hrun hsource
  have hposture : posture (recordOf client id name image opts metadata
      (opts.fromExistingSnapshot.getD (snapshotKeyFor id)) bridge) = postureOf opts.network :=
    posture_recordOf hdrawn
  constructor
  · rintro ⟨hsame, -⟩
    by_contra hneither
    rw [not_or, not_not] at hneither
    rw [hneither.2] at hposture
    have hlast := chain_of_isolated hchain hneither.1 (.inl hposture) hopts
    rw [hsame, hposture] at hlast
    exact absurd (postureOf_injective hlast) (by decide)
  · rintro (rfl | hmode)
    · cases hchain
      exact ⟨rfl, fun _ hport => hport⟩
    · have hinherited := Inherited.chain hchain ⟨rfl, hposture, fun _ => Iff.rfl⟩ hmode
        (exposedPorts_ne_nil hdrawn) hopts hports
      exact ⟨hinherited.posture.trans hposture.symm, fun port => (hinherited.ports port).mp⟩

/-- A container in `mode` with one variable and no bindings. -/
def sourceOpts (mode : NetworkMode) : CreateContainerOpts where
  network := mode
  env := (∅ : Labels).insert "PORT" "80"

/-- The store after it was created as `c1`. -/
def createdWorld (mode : NetworkMode) : World Unit :=
  after (createContainer {} "c1" "db" "mongo" (sourceOpts mode)).run oneImage

/-- A clone `c2` of `c1` with the default options. -/
def cloned (mode : NetworkMode) : CloneRun Unit where
  client := {}
  src := "c1"
  dst := "c2"
  dstName := "copy"
  opts := {}
  before := createdWorld mode
  after := after (cloneContainer {} "c1" "c2" "copy" {}).run (createdWorld mode)

theorem cloned_makes (mode : NetworkMode) (h : mode = .host ∨ mode = .isolated) :
    ∃ source clone, (createContainer {} "c1" "db" "mongo" (sourceOpts mode)).run oneImage =
        .ok "c1" (createdWorld mode) ∧
      (createdWorld mode).containers.lookup "c1" = some source ∧
        (cloned mode).Makes source clone := by
  have hcreate : (result (createContainer {} "c1" "db" "mongo" (sourceOpts mode)).run
      oneImage).toOption = some "c1" := by
    rcases h with rfl | rfl <;> decide +kernel
  have hclone : (result (cloneContainer {} "c1" "c2" "copy" {}).run
      (createdWorld mode)).toOption = some "c2" := by
    rcases h with rfl | rfl <;> decide +kernel
  have hrecords : ((createdWorld mode).containers.lookup "c1").isSome = true ∧
      ((cloned mode).after.containers.lookup "c2").isSome = true := by
    rcases h with rfl | rfl <;> decide +kernel
  obtain ⟨source, hsource⟩ := Option.isSome_iff_exists.mp hrecords.1
  obtain ⟨clone, hmade⟩ := Option.isSome_iff_exists.mp hrecords.2
  obtain ⟨w, hrun⟩ := ok_of_result hcreate
  obtain ⟨w', hrun'⟩ := ok_of_result hclone
  refine ⟨source, clone, ?_, hsource, ⟨"c2", ?_⟩, hsource, hmade⟩
  · rw [createdWorld, after_ok hrun]
    exact hrun
  · show (cloneContainer {} "c1" "c2" "copy" {}).run (createdWorld mode) = .ok "c2" (after _ _)
    rw [after_ok hrun']
    exact hrun'

/-- A clone of a container in host mode is in host mode. -/
theorem clone_chain_posture_host : ∃ source clone,
    CloneChain source [cloned .host] clone ∧ posture clone = posture source := by
  obtain ⟨source, clone, hrun, hsource, hmakes⟩ := cloned_makes .host (.inl rfl)
  have hchain : CloneChain source [cloned .host] clone := .cons hmakes (.nil clone)
  have hposture := (clone_chain_posture {} "c1" "db" "mongo" "c1" (sourceOpts .host) oneImage
    (createdWorld .host) source clone [cloned .host] hrun hsource hchain ?_ ?_).mpr
    (.inr (by decide))
  · exact ⟨source, clone, hchain, hposture.1⟩
  · rintro c hc
    cases List.mem_singleton.mp hc
    exact ⟨rfl, rfl⟩
  · rintro c hc metadata hreads pair hpair
    cases List.mem_singleton.mp hc
    have himage : (createdWorld .host).images.lookup "mongo" = some (some "sha256:1") ∧
        (createdWorld .host).metadataCache.lookup "sha256:1" =
          oneImage.metadataCache.lookup "sha256:1" := by decide +kernel
    have hmeta := hreads.cached himage.1 (himage.2.trans (AList.lookup_insert _))
    subst hmeta
    cases hpair

/-- A clone of a container without external connectivity is bridged, and exposes a port. -/
theorem clone_chain_bridged : ∃ source clone,
    (createContainer {} "c1" "db" "mongo" (sourceOpts .isolated)).run oneImage =
      .ok "c1" (createdWorld .isolated) ∧
    (createdWorld .isolated).containers.lookup "c1" = some source ∧
    CloneChain source [cloned .isolated] clone ∧ posture clone ≠ posture source ∧
    27017 ∈ exposedPorts clone ∧ 27017 ∉ exposedPorts source := by
  obtain ⟨source, clone, hrun, hsource, hmakes⟩ := cloned_makes .isolated (.inr rfl)
  have hread : ((createdWorld .isolated).containers.lookup "c1").map
        (fun record => (posture record, exposedPorts record)) = some (postureOf .isolated, []) ∧
      ((cloned .isolated).after.containers.lookup "c2").map
        (fun record => (posture record, exposedPorts record)) =
        some (postureOf .bridge, [27017]) := by decide +kernel
  have hclone : (cloned .isolated).after.containers.lookup "c2" = some clone := hmakes.clone
  rw [hsource, hclone] at hread
  simp only [Option.map_some, Option.some.injEq, Prod.mk.injEq] at hread
  obtain ⟨⟨hsrc, hnone⟩, hdst, hport⟩ := hread
  refine ⟨source, clone, hrun, hsource, .cons hmakes (.nil clone), ?_, ?_, ?_⟩
  · rw [hsrc, hdst]
    decide
  · rw [hport]
    exact List.mem_cons_self
  · rw [hnone]
    exact List.not_mem_nil

end ContainerdManager.Clone
