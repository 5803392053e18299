import ContainerdManager.Containerd.World

/-!
# Reading an image

The part of `src/container.rs` that goes from an image name to its
configuration: the manifest, the sub-manifest for the client's architecture
when the target is an index, and the configuration blob. The result is
cached by manifest digest. Nothing here touches the store.
-/

namespace ContainerdManager.Container

open Lib Containerd Logs

variable {κ : Type}

/-- `map_image_status`. -/
def mapImageStatus (op image : String) (code : Code) : Error :=
  if code = .notFound then .imageNotFound image else .containerd op code

/-- The manifest digest of an image. -/
def getImage (client : Client) (image : String) : Op κ String := do
  match ← query client (.getImage image) fun w =>
    (w.images.lookup image).elim (.error .notFound) .ok with
  | .error code => throw (mapImageStatus "get_image" image code)
  | .ok none => throw (.invalidArgument "image has no target")
  | .ok (some digest) => return digest

/-- The loop over the messages of a blob; the end of the stream is a message too. -/
def readChunks (client : Client) (digest : String) : List Bytes → Bytes → Proc κ Bytes
  | [], data => do
    match ← call (query client (.readChunk digest) fun _ => .ok ()) with
    | .error code => throw (.containerd "read_content_chunk" code)
    | .ok () => return data
  | chunk :: chunks, data => do
    match ← call (query client (.readChunk digest) fun _ => .ok ()) with
    | .error code => throw (.containerd "read_content_chunk" code)
    | .ok () => readChunks client digest chunks (data ++ chunk)

def readContent (client : Client) (digest : String) : Proc κ Bytes := do
  match ← call (query client (.readContent digest) fun w =>
      (w.blobs.lookup digest).elim (.error .notFound) .ok) with
  | .error code => throw (.containerd "read_content" code)
  | .ok chunks => readChunks client digest chunks []

/-! ## Manifests -/

/-- The digest of the `config` descriptor, if there is one. -/
def configDigest (manifest : Json) : Option String :=
  (manifest.get "config").bind fun config => (config.get "digest").bind Json.asStr

/-- The entry of an index is for `arch`. -/
def forArch (arch : String) (entry : Json) : Bool :=
  ((entry.get "platform").bind fun platform =>
    (platform.get "architecture").bind Json.asStr) = some arch

/-- The digest of the first entry for `arch`. -/
def selectManifest (arch : String) (manifests : Json) : Except Error String :=
  match manifests.asArray with
  | none => .error (.invalidArgument "invalid manifests array")
  | some entries =>
    match (entries.find? (forArch arch)).bind fun entry => (entry.get "digest").bind Json.asStr with
    | none => .error (.invalidArgument ("no manifest found for architecture " ++ arch))
    | some digest => .ok digest

def parse {α : Type} (what : String) (result : Except String α) : Proc κ α :=
  match result with
  | .error e => throw (.invalidArgument (what ++ e))
  | .ok a => pure a

/-- The configuration digest of an index: that of the sub-manifest for the client's architecture. -/
def indexConfigDigest (client : Client) (manifests : Json) : Proc κ String := do
  match selectManifest client.arch manifests with
  | .error e => throw e
  | .ok digest =>
    let data ← readContent client digest
    let subManifest ← parse "parse sub-manifest: " (client.parseJson data)
    match configDigest subManifest with
    | none => throw (.invalidArgument "sub-manifest missing config digest")
    | some digest => return digest

def manifestConfigDigest (client : Client) (manifest : Json) : Proc κ String :=
  match manifest.get "config", manifest.get "manifests" with
  | some _, _ =>
    match configDigest manifest with
    | none => throw (.invalidArgument "manifest missing config digest")
    | some digest => pure digest
  | none, some manifests => indexConfigDigest client manifests
  | none, none => throw (.invalidArgument "manifest has neither config nor manifests")

def fetchImageMetadata (client : Client) (manifestDigest : String) : Proc κ ImageMetadata := do
  let manifestData ← readContent client manifestDigest
  let manifest ← parse "parse manifest: " (client.parseJson manifestData)
  let digest ← manifestConfigDigest client manifest
  let configData ← readContent client digest
  let config ← parse "parse image config: " (client.parseImageConfig configData)
  if config.diffIds.isEmpty then throw (.invalidArgument "image config has no diff_ids")
  else return {
    chainId := computeChainId client.sha256 config.diffIds
    config := config
    rawConfig := configData }

/-- `get_image_metadata`: cached by manifest digest. -/
def getImageMetadata (client : Client) (manifestDigest : String) : Proc κ ImageMetadata := do
  match ← call (EStateM.get >>= fun w => pure (w.metadataCache.lookup manifestDigest)) with
  | some cached => return cached
  | none =>
    let metadata ← fetchImageMetadata client manifestDigest
    call (modify fun w =>
      { w with metadataCache := w.metadataCache.insert manifestDigest metadata })
    return metadata

/-! ## Frames -/

theorem getImage_keeps {client : Client} {image : String} :
    Keeps Calm (getImage (κ := κ) client image) := by
  refine .bind query_keeps fun answer => ?_
  rcases answer with code | _ | digest
  · exact .throw _
  · exact .throw _
  · exact .pure _

section Frames

-- `R` is any relation that a calm request keeps
variable {R : World κ → World κ → Prop} {client : Client}
  (hread : ∀ (call : Call) (β : Type) (answer : World κ → Except Code β), call.calm = true →
    Keeps R (query client call answer))

include hread

theorem readChunks_steps {digest : String} (chunks : List Bytes) (data : Bytes) :
    (readChunks client digest chunks data).Steps R := by
  induction chunks generalizing data with
  | nil =>
    refine .bind (.atomic (hread _ _ _ rfl)) fun answer => ?_
    cases answer <;> trivial
  | cons chunk chunks ih =>
    refine .bind (.atomic (hread _ _ _ rfl)) fun answer => ?_
    cases answer with
    | error code => trivial
    | ok => exact ih _

theorem readContent_steps {digest : String} : (readContent client digest).Steps R := by
  refine .bind (.atomic (hread _ _ _ rfl)) fun answer => ?_
  cases answer with
  | error code => trivial
  | ok chunks => exact readChunks_steps hread chunks []

omit hread in
theorem parse_steps {α : Type} {what : String} {result : Except String α} :
    (parse (κ := κ) what result).Steps R := by
  cases result <;> trivial

theorem manifestConfigDigest_steps {manifest : Json} :
    (manifestConfigDigest client manifest).Steps R := by
  unfold manifestConfigDigest
  split
  · split <;> trivial
  · unfold indexConfigDigest
    split
    · trivial
    · refine .bind (readContent_steps hread) fun _ => .bind parse_steps fun sub => ?_
      split <;> trivial
  · trivial

theorem fetchImageMetadata_steps {digest : String} :
    (fetchImageMetadata client digest).Steps R := by
  refine .bind (readContent_steps hread) fun _ => .bind parse_steps fun _ =>
    .bind (manifestConfigDigest_steps hread) fun _ => .bind (readContent_steps hread) fun _ =>
    .bind parse_steps fun config => ?_
  split <;> trivial

theorem getImageMetadata_steps [Std.Refl R]
    (hcache : ∀ (w : World κ) cache, R w { w with metadataCache := cache }) {digest : String} :
    (getImageMetadata client digest).Steps R := by
  refine .bind (.atomic fun w => Std.Refl.refl w) fun cached => ?_
  cases cached with
  | some metadata => trivial
  | none =>
    exact .bind (fetchImageMetadata_steps hread) fun _ =>
      .bind (.atomic fun w => hcache w _) fun _ => trivial

end Frames

/-- **Reading an image touches neither snapshots nor records**, whatever its requests answer. -/
theorem getImageMetadata_calm {client : Client} {digest : String} :
    (getImageMetadata (κ := κ) client digest).Steps Calm :=
  getImageMetadata_steps (fun _ _ _ h => query_keeps h)
    fun _ _ => .of_trace_eq ⟨rfl, rfl⟩ rfl rfl rfl

end ContainerdManager.Container
