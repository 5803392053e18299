import ContainerdManager.Container.Image

/-!
# The platform of an image

`pull_image` of `src/image.rs` asks containerd to unpack an image for one
platform, os and architecture; `fetch_image_metadata` picks a sub-manifest of
an index by architecture alone. The two agree exactly when the first entry
for the architecture names a sub-manifest that is listed for that platform.
-/

namespace ContainerdManager.Container

open Lib Containerd Logs

variable {κ : Type}

/-! ## The transfer request -/

structure Platform where
  os : String
  architecture : String
  variant : String
  osVersion : String
  deriving DecidableEq, Repr

structure UnpackConfiguration where
  snapshotter : String
  platform : Option Platform
  deriving DecidableEq, Repr

structure ImageStore where
  name : String
  unpacks : List UnpackConfiguration
  deriving DecidableEq, Repr

/-- `build_destination`; `arch` is `oci_arch()`. -/
def buildDestination (arch image : String) : ImageStore where
  name := image
  unpacks := [{
    snapshotter := defaultSnapshotter
    platform := some { os := "linux", architecture := arch, variant := "", osVersion := "" } }]

/-! ## Entries of an index -/

/-- A field of an entry's platform. -/
def platformField (key : String) (entry : Json) : Option String :=
  (entry.get "platform").bind fun platform => (platform.get key).bind Json.asStr

def entryDigest (entry : Json) : Option String := (entry.get "digest").bind Json.asStr

/-- The entry is for a platform the destination asks to unpack. -/
def Unpacked (dest : ImageStore) (entry : Json) : Prop :=
  ∃ unpack ∈ dest.unpacks, ∃ p, unpack.platform = some p ∧
    platformField "os" entry = some p.os ∧
    platformField "architecture" entry = some p.architecture

theorem unpacked_iff (arch image : String) (entry : Json) :
    Unpacked (buildDestination arch image) entry ↔
      platformField "os" entry = some "linux" ∧
        platformField "architecture" entry = some arch := by
  constructor
  · rintro ⟨unpack, hu, p, hp, hos, harch⟩
    rw [buildDestination, List.mem_singleton] at hu
    subst hu
    cases hp
    exact ⟨hos, harch⟩
  · rintro ⟨hos, harch⟩
    exact ⟨_, List.mem_singleton_self _, _, rfl, hos, harch⟩

/-- `digest` is listed for a platform the destination asks to unpack. -/
def ListedFor (dest : ImageStore) (entries : List Json) (digest : String) : Prop :=
  ∃ entry ∈ entries, Unpacked dest entry ∧ entryDigest entry = some digest

theorem selectManifest_ok_iff (arch : String) (entries : List Json) (digest : String) :
    selectManifest arch (.array entries) = .ok digest ↔
      ∃ entry, entries.find? (forArch arch) = some entry ∧ entryDigest entry = some digest := by
  have hselect : selectManifest arch (.array entries) =
      ((entries.find? (forArch arch)).bind entryDigest).elim
        (.error (.invalidArgument ("no manifest found for architecture " ++ arch))) .ok := by
    show _ = ((entries.find? (forArch arch)).bind fun entry =>
      (entry.get "digest").bind Json.asStr).elim _ _
    simp only [selectManifest, Json.asArray]
    cases (entries.find? (forArch arch)).bind fun entry => (entry.get "digest").bind Json.asStr <;>
      rfl
  rw [hselect, ← Option.bind_eq_some_iff]
  cases (entries.find? (forArch arch)).bind entryDigest <;> simp

/-! ## What reading a blob can do -/

/-- The content store is as it was. -/
def SameBlobs (w w' : World κ) : Prop := w'.blobs = w.blobs

instance : Std.Refl (SameBlobs (κ := κ)) := ⟨fun _ => rfl⟩

instance : IsTrans (World κ) SameBlobs := ⟨fun _ _ _ h h' => h'.trans h⟩

theorem query_blobs {α : Type} {client : Client} {call : Call} {answer : World κ → Except Code α} :
    Keeps SameBlobs (query client call answer) := fun w => by
  rw [after_ok (query_eq client call answer w)]
  rfl

theorem readChunks_ok {client : Client} {digest : String} {chunks : List Bytes} {data read : Bytes}
    {w w' : World κ} (h : (readChunks client digest chunks data).run w = .ok read w') :
    read = data ++ chunks.flatten := by
  induction chunks generalizing data w with
  | nil =>
    rw [readChunks, Prog.run_bind, call, Prog.run_atomic] at h
    obtain ⟨answer, w₁, -, h⟩ := bind_eq_ok h
    cases answer <;> cases h
    simp
  | cons chunk chunks ih =>
    rw [readChunks, Prog.run_bind, call, Prog.run_atomic] at h
    obtain ⟨answer, w₁, -, h⟩ := bind_eq_ok h
    cases answer with
    | error code => cases h
    | ok => rw [ih h, List.flatten_cons, List.append_assoc]

/-- **A blob that is read is the one in the content store.** -/
theorem readContent_ok {client : Client} {digest : String} {data : Bytes} {w w' : World κ}
    (h : (readContent client digest).run w = .ok data w') :
    (∃ chunks, w.blobs.lookup digest = some chunks ∧ data = chunks.flatten) ∧
      w'.blobs = w.blobs := by
  refine ⟨?_, (readContent_steps fun _ _ _ _ => query_blobs).keeps.ok h⟩
  rw [readContent, Prog.run_bind, call, Prog.run_atomic] at h
  obtain ⟨answer, w₁, hq, h⟩ := bind_eq_ok h
  cases answer with
  | error code => cases h
  | ok chunks =>
    refine ⟨chunks, ?_, by simpa using readChunks_ok h⟩
    rcases query_lookup_cases client (.readContent digest) (fun w => w.blobs.lookup digest)
        (fun chunks => chunks) w with ⟨found, -, hl, hr⟩ | ⟨code, -, hr⟩
    · cases hq.symm.trans hr
      exact hl
    · cases hq.symm.trans hr

/-! ## What is fetched from an index -/

/-- The next request after `w`, on the way to `w'`, is `call`. -/
def NextRequest (w w' : World κ) (call : Call) : Prop :=
  ∃ code, w.trace ++ [(call, code)] <+: w'.trace

theorem NextRequest.unique {w w' : World κ} {call call' : Call} (h : NextRequest w w' call)
    (h' : NextRequest w w' call') : call = call' := by
  obtain ⟨code, h⟩ := h
  obtain ⟨code', h'⟩ := h'
  have hsame := List.prefix_of_prefix_length_le h h' (by simp)
  rw [List.prefix_append_right_inj, List.cons_prefix_cons] at hsame
  exact congrArg Prod.fst hsame.1

theorem not_nextRequest_self (w : World κ) (call : Call) : ¬ NextRequest w w call := by
  rintro ⟨code, h⟩
  have hlen := h.length_le
  rw [List.length_append, List.length_singleton] at hlen
  omega

/-- The first request of reading a blob is for its content. -/
theorem readContent_next {α : Type} (client : Client) (digest : String) (f : Bytes → Proc κ α)
    (hf : ∀ data, (f data).Steps Grows) (w : World κ) :
    NextRequest w (after (readContent client digest >>= f).run w) (.readContent digest) := by
  have hgrows : ∀ (call : Call) (β : Type) (answer : World κ → Except Code β), call.calm = true →
      Keeps Grows (query client call answer) := fun _ _ _ hc w => (query_keeps hc w).grows
  have hq := query_eq client (.readContent digest)
    (fun w => (w.blobs.lookup digest).elim (.error .notFound) .ok) w
  rw [Prog.run_bind, readContent, Prog.run_bind, call, Prog.run_atomic, bind_assoc,
    after_bind_ok hq]
  cases queried client (fun w => (w.blobs.lookup digest).elim (.error .notFound) .ok) w with
  | error code => exact ⟨some code, List.prefix_refl _⟩
  | ok chunks =>
    have hrest : (readChunks client digest chunks [] >>= f).Steps Grows :=
      .bind (readChunks_steps hgrows chunks []) hf
    have hkeep := hrest.keeps (w.noted client (.readContent digest) none)
    rw [Prog.run_bind] at hkeep
    exact ⟨none, hkeep⟩

/-- The configuration behind a manifest, in the content store of `w`. -/
def ConfigOf (client : Client) (w : World κ) (digest : String) (config : ImageConfiguration) :
    Prop :=
  ∃ manifestChunks manifest digest' configChunks, w.blobs.lookup digest = some manifestChunks ∧
    client.parseJson manifestChunks.flatten = .ok manifest ∧
    configDigest manifest = some digest' ∧ w.blobs.lookup digest' = some configChunks ∧
    client.parseImageConfig configChunks.flatten = .ok config

/-- The index behind `manifestDigest` is read and parses. -/
def ReadsIndex (client : Client) (manifestDigest : String) (w w₁ : World κ)
    (entries : List Json) : Prop :=
  ∃ data manifest, (readContent client manifestDigest).run w = .ok data w₁ ∧
    client.parseJson data = .ok manifest ∧ manifest.get "config" = none ∧
    manifest.get "manifests" = some (.array entries)

/-- What is left to do once the digest of the configuration is known. -/
def fetchConfig (client : Client) (digest : String) : Proc κ ImageMetadata := do
  let configData ← readContent client digest
  let config ← parse "parse image config: " (client.parseImageConfig configData)
  if config.diffIds.isEmpty then throw (.invalidArgument "image config has no diff_ids")
  else return {
    chainId := computeChainId client.sha256 config.diffIds
    config := config
    rawConfig := configData }

/-- What is left to do once the sub-manifest is read. -/
def fetchSelected (client : Client) (data : Bytes) : Proc κ ImageMetadata := do
  let subManifest ← parse "parse sub-manifest: " (client.parseJson data)
  match configDigest subManifest with
  | none => throw (.invalidArgument "sub-manifest missing config digest")
  | some digest => fetchConfig client digest

section Index

variable {client : Client} {manifestDigest : String} {w w₁ : World κ} {entries : List Json}

theorem fetch_index (h : ReadsIndex client manifestDigest w w₁ entries) :
    (fetchImageMetadata client manifestDigest).run w =
      (indexConfigDigest client (.array entries) >>= fetchConfig client).run w₁ := by
  obtain ⟨data, manifest, hdata, hparse, hconfig, hman⟩ := h
  rw [fetchImageMetadata, Prog.run_bind, bind_ok hdata, hparse]
  show (manifestConfigDigest client manifest >>= fetchConfig client).run w₁ = _
  rw [manifestConfigDigest, hconfig, hman]

theorem fetch_selected (h : ReadsIndex client manifestDigest w w₁ entries) {digest : String}
    (hs : selectManifest client.arch (.array entries) = .ok digest) :
    (fetchImageMetadata client manifestDigest).run w =
      (readContent client digest >>= fetchSelected client).run w₁ := by
  rw [fetch_index h, indexConfigDigest, hs]
  simp only [Prog.run_bind, bind_assoc]
  refine congrFun (congrArg _ (funext fun data => ?_)) w₁
  rw [fetchSelected, Prog.run_bind]
  refine congrArg _ (funext fun sub => ?_)
  cases configDigest sub <;> rfl

theorem fetch_unselected (h : ReadsIndex client manifestDigest w w₁ entries) {e : Error}
    (hs : selectManifest client.arch (.array entries) = .error e) :
    (fetchImageMetadata client manifestDigest).run w = .error e w₁ := by
  rw [fetch_index h, indexConfigDigest, hs]
  rfl

theorem fetchConfig_steps (digest : String) : (fetchConfig (κ := κ) client digest).Steps Grows := by
  refine .bind (readContent_steps fun _ _ _ hc w => (query_keeps hc w).grows) fun _ =>
    .bind parse_steps fun config => ?_
  split <;> trivial

theorem fetchSelected_steps (data : Bytes) : (fetchSelected (κ := κ) client data).Steps Grows := by
  refine .bind parse_steps fun sub => ?_
  split
  · trivial
  · exact fetchConfig_steps _

/-- **The sub-manifest that is fetched**: the request after the index is for the content
`selectManifest` picks. -/
theorem requests_iff (h : ReadsIndex client manifestDigest w w₁ entries) (digest : String) :
    NextRequest w₁ (after (fetchImageMetadata client manifestDigest).run w)
        (.readContent digest) ↔
      selectManifest client.arch (.array entries) = .ok digest := by
  cases hs : selectManifest client.arch (.array entries) with
  | error e =>
    rw [after_error (fetch_unselected h hs)]
    exact ⟨fun hn => absurd hn (not_nextRequest_self _ _), fun hd => by cases hd⟩
  | ok digest' =>
    have hnext := readContent_next client digest' (fetchSelected client) fetchSelected_steps w₁
    have hafter : after (fetchImageMetadata client manifestDigest).run w =
        after (readContent client digest' >>= fetchSelected client).run w₁ := by
      rw [after, fetch_selected h hs]
      rfl
    rw [hafter]
    constructor
    · intro hn
      have hcall := hn.unique hnext
      cases hcall
      rfl
    · intro hd
      cases hd
      exact hnext

theorem fetchConfig_ok {digest : String} {metadata : ImageMetadata} {w' : World κ}
    (h : (fetchConfig client digest).run w = .ok metadata w') :
    (∃ chunks, w.blobs.lookup digest = some chunks ∧
      client.parseImageConfig chunks.flatten = .ok metadata.config) ∧
    metadata.chainId = computeChainId client.sha256 metadata.config.diffIds := by
  rw [fetchConfig, Prog.run_bind] at h
  obtain ⟨data, w₂, hdata, h⟩ := bind_eq_ok h
  obtain ⟨⟨chunks, hl, rfl⟩, -⟩ := readContent_ok hdata
  cases hc : client.parseImageConfig chunks.flatten with
  | error e =>
    rw [hc] at h
    cases h
  | ok config =>
    rw [hc] at h
    have hrun : (if config.diffIds.isEmpty then
        throw (.invalidArgument "image config has no diff_ids")
      else pure ⟨computeChainId client.sha256 config.diffIds, config, chunks.flatten⟩ :
        Proc κ ImageMetadata).run w₂ = .ok metadata w' := h
    split at hrun
    · cases hrun
    · cases hrun
      exact ⟨⟨chunks, hl, hc⟩, rfl⟩

/-- The metadata of an index is that of the sub-manifest picked. -/
theorem fetch_configOf (h : ReadsIndex client manifestDigest w w₁ entries) {digest : String}
    (hs : selectManifest client.arch (.array entries) = .ok digest) {metadata : ImageMetadata}
    {w' : World κ} (hr : (fetchImageMetadata client manifestDigest).run w = .ok metadata w') :
    ConfigOf client w digest metadata.config ∧
      metadata.chainId = computeChainId client.sha256 metadata.config.diffIds := by
  rw [fetch_selected h hs, Prog.run_bind] at hr
  obtain ⟨data, w₂, hdata, hr⟩ := bind_eq_ok hr
  obtain ⟨⟨chunks, hl, rfl⟩, hblobs⟩ := readContent_ok hdata
  obtain ⟨data', manifest, hdata', -⟩ := h
  obtain ⟨-, hblobs'⟩ := readContent_ok hdata'
  rw [fetchSelected, Prog.run_bind] at hr
  obtain ⟨sub, w₃, hsub, hr⟩ := bind_eq_ok hr
  cases hp : client.parseJson chunks.flatten with
  | error e =>
    rw [hp] at hsub
    cases hsub
  | ok sub' =>
    rw [hp] at hsub
    cases hsub
    cases hc : configDigest sub with
    | none =>
      rw [hc] at hr
      cases hr
    | some digest' =>
      rw [hc] at hr
      have hrun : (fetchConfig client digest').run w₂ = .ok metadata w' := hr
      obtain ⟨⟨chunks', hl', hparse⟩, hchain⟩ := fetchConfig_ok hrun
      rw [hblobs, hblobs'] at hl'
      rw [hblobs'] at hl
      exact ⟨⟨chunks, sub, digest', chunks', hl, hp, hc, hl', hparse⟩, hchain⟩

end Index

/-! ## Agreement with the pull -/

/-- The first entry for the architecture has a digest, and that digest is listed for a platform
the destination asks to unpack. -/
def FirstListed (dest : ImageStore) (arch : String) (entries : List Json) : Prop :=
  ∃ first digest, entries.find? (forArch arch) = some first ∧ entryDigest first = some digest ∧
    ListedFor dest entries digest

/-- **The platform of `create_container`**: the sub-manifest read is one listed for the platform the
pull unpacked, and the chain id that of a snapshot the pull made, exactly when the first entry
for the architecture is. `pulled` are the chain ids of the snapshots that containerd makes of the
sub-manifests listed for the destination. -/
theorem fetchImageMetadata_pulled_iff {client : Client} {manifestDigest image : String}
    {w w₁ : World κ} {entries : List Json} (h : ReadsIndex client manifestDigest w w₁ entries)
    {pulled : String → Prop}
    (hpull : ∀ digest config, ListedFor (buildDestination client.arch image) entries digest →
      ConfigOf client w digest config → pulled (computeChainId client.sha256 config.diffIds)) :
    ((∃ digest, NextRequest w₁ (after (fetchImageMetadata client manifestDigest).run w)
          (.readContent digest) ∧
        ListedFor (buildDestination client.arch image) entries digest) ∧
      ∀ metadata w', (fetchImageMetadata client manifestDigest).run w = .ok metadata w' →
        pulled metadata.chainId) ↔
      FirstListed (buildDestination client.arch image) client.arch entries := by
  constructor
  · rintro ⟨⟨digest, hnext, hlisted⟩, -⟩
    rw [requests_iff h, selectManifest_ok_iff] at hnext
    obtain ⟨first, hfirst, hdigest⟩ := hnext
    exact ⟨first, digest, hfirst, hdigest, hlisted⟩
  · rintro ⟨first, digest, hfirst, hdigest, hlisted⟩
    have hs := (selectManifest_ok_iff client.arch entries digest).mpr ⟨first, hfirst, hdigest⟩
    refine ⟨⟨digest, (requests_iff h digest).mpr hs, hlisted⟩, fun metadata w' hr => ?_⟩
    obtain ⟨hconfig, hchain⟩ := fetch_configOf h hs hr
    rw [hchain]
    exact hpull digest _ hlisted hconfig

/-- An entry of an index. -/
def indexEntry (os arch digest : String) : Json :=
  .object [("digest", .string digest),
    ("platform", .object [("os", .string os), ("architecture", .string arch)])]

/-- A client that reads the one blob of `indexWorld` as an index of `entries`. -/
def indexClient (entries : List Json) : Client where
  parseJson _ := .ok (.object [("manifests", .array entries)])

def indexWorld : World Unit where
  snapshots := ∅
  containers := ∅
  blobs := (∅ : AList fun _ : String => List Bytes).insert "sha256:index" [[1]]

theorem readsIndex (entries : List Json) :
    ReadsIndex (indexClient entries) "sha256:index" indexWorld
      (after (readContent (indexClient entries) "sha256:index").run indexWorld) entries :=
  ⟨[1], _, rfl, rfl, rfl, rfl⟩

def linuxFirst : List Json :=
  [indexEntry "linux" "amd64" "sha256:linux", indexEntry "windows" "amd64" "sha256:windows"]

def windowsFirst : List Json :=
  [indexEntry "windows" "amd64" "sha256:windows", indexEntry "linux" "amd64" "sha256:linux"]

/-- The chain ids of the sub-manifests a pull unpacks. -/
def UnpackedChain (entries : List Json) (chainId : String) : Prop :=
  ∃ digest config, ListedFor (buildDestination "amd64" "mongo") entries digest ∧
    ConfigOf (indexClient entries) indexWorld digest config ∧
    chainId = computeChainId (indexClient entries).sha256 config.diffIds

/-- With the entry for `linux` first, its sub-manifest is read. -/
theorem fetchImageMetadata_linux_first :
    ∃ digest, NextRequest
        (after (readContent (indexClient linuxFirst) "sha256:index").run indexWorld)
        (after (fetchImageMetadata (indexClient linuxFirst) "sha256:index").run indexWorld)
        (.readContent digest) ∧
      ListedFor (buildDestination "amd64" "mongo") linuxFirst digest := by
  have hpull : ∀ digest config, ListedFor (buildDestination (indexClient linuxFirst).arch "mongo")
      linuxFirst digest → ConfigOf (indexClient linuxFirst) indexWorld digest config →
      UnpackedChain linuxFirst
        (computeChainId (indexClient linuxFirst).sha256 config.diffIds) :=
    fun digest config hl hc => ⟨digest, config, hl, hc, rfl⟩
  exact ((fetchImageMetadata_pulled_iff (readsIndex linuxFirst) hpull).mpr
    ⟨_, _, rfl, rfl, _, List.mem_cons_self, (unpacked_iff _ _ _).mpr ⟨rfl, rfl⟩, rfl⟩).1

/-- With the entry for `windows` first, the sub-manifest read is not one the pull unpacked. -/
theorem fetchImageMetadata_windows_first :
    (∃ digest, ListedFor (buildDestination "amd64" "mongo") windowsFirst digest) ∧
    ¬ ∃ digest, NextRequest
        (after (readContent (indexClient windowsFirst) "sha256:index").run indexWorld)
        (after (fetchImageMetadata (indexClient windowsFirst) "sha256:index").run indexWorld)
        (.readContent digest) ∧
      ListedFor (buildDestination "amd64" "mongo") windowsFirst digest := by
  refine ⟨⟨_, _, List.mem_cons_of_mem _ List.mem_cons_self, (unpacked_iff _ _ _).mpr ⟨rfl, rfl⟩,
    rfl⟩, ?_⟩
  rintro ⟨digest, hnext, entry, hentry, hunpacked, hdigest⟩
  rw [requests_iff (readsIndex _)] at hnext
  have hselected : digest = "sha256:windows" := by
    cases hnext
    rfl
  subst hselected
  rw [unpacked_iff] at hunpacked
  rcases List.mem_cons.mp hentry with rfl | hentry
  · exact absurd hunpacked.1 (by decide)
  · rw [List.mem_singleton] at hentry
    subst hentry
    exact absurd hdigest (by decide)

end ContainerdManager.Container
