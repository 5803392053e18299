import ContainerdManager.Container.Image
import ContainerdManager.Lib.Shared

/-!
# The image metadata cache

`image_metadata_cache` is shared by all clones of a client, keyed by the
manifest digest alone and never invalidated but by `clear_image_cache`. That
is sound because blobs are addressed by their content: what a digest means
(`metadataOf`) does not depend on when it is read. Any number of lookups run
side by side with whatever containerd does to images and blobs; each returns
what its digest means, and a cached answer is the one a fetch would give.
-/

namespace ContainerdManager.Container

open Lib Containerd Logs

variable {κ ι : Type}

/-! ## What a digest means -/

section Meaning

variable (client : Client) (content : String → Option Bytes)

def indexConfigOf (manifests : Json) : Option String := do
  let digest ← (selectManifest client.arch manifests).toOption
  let data ← content digest
  let subManifest ← (client.parseJson data).toOption
  configDigest subManifest

def configOf (manifest : Json) : Option String :=
  match manifest.get "config", manifest.get "manifests" with
  | some _, _ => configDigest manifest
  | none, some manifests => indexConfigOf client content manifests
  | none, none => none

/-- The metadata of a manifest, in a store of immutable contents. -/
def metadataOf (manifestDigest : String) : Option ImageMetadata := do
  let data ← content manifestDigest
  let manifest ← (client.parseJson data).toOption
  let digest ← configOf client content manifest
  let configData ← content digest
  let config ← (client.parseImageConfig configData).toOption
  if config.diffIds.isEmpty then none
  else some {
    chainId := computeChainId client.sha256 config.diffIds
    config := config
    rawConfig := configData }

/-- Every blob is the content its digest names. -/
def Addressed (w : World κ) : Prop :=
  ∀ digest chunks, w.blobs.lookup digest = some chunks → content digest = some chunks.flatten

/-- Every cached answer is what its digest means. -/
def Coherent (w : World κ) : Prop :=
  ∀ digest metadata, w.metadataCache.lookup digest = some metadata →
    metadataOf client content digest = some metadata

/-- What lookups rely on. -/
def Sound (w : World κ) : Prop := Addressed content w ∧ Coherent client content w

/-- The clients of one process differ in what their requests meet only. -/
structure SameCode (other : Client) : Prop where
  arch : other.arch = client.arch
  sha256 : other.sha256 = client.sha256
  parseJson : other.parseJson = client.parseJson
  parseImageConfig : other.parseImageConfig = client.parseImageConfig

end Meaning

section Lookup

variable {client reader : Client} {content : String → Option Bytes}

theorem Sound.of_same {w w' : World κ} (h : Sound reader content w) (hb : w'.blobs = w.blobs)
    (hc : w'.metadataCache = w.metadataCache) : Sound reader content w' := by
  obtain ⟨ha, hco⟩ := h
  exact ⟨by unfold Addressed; rw [hb]; exact ha, by unfold Coherent; rw [hc]; exact hco⟩

/-- A request that only reads. -/
theorem query_sound {α : Type} {call : Call} {answer : World κ → Except Code α} {w : World κ}
    (h : Sound reader content w) : Sound reader content (after (query client call answer) w) := by
  rcases query_cases client call answer w with ⟨a, -, -, hr⟩ | ⟨code, -, hr⟩
  · rw [after_ok hr]
    exact h.of_same rfl rfl
  · rw [after_ok hr]
    exact h.of_same rfl rfl

theorem readChunks_yields {digest : String} (chunks : List Bytes) (data : Bytes) :
    (readChunks (κ := κ) client digest chunks data).Yields (Sound reader content)
      fun all => all = data ++ chunks.flatten := by
  induction chunks generalizing data with
  | nil =>
    refine .bind (P := fun _ => True) (.atomic fun w h => ⟨query_sound h, fun _ _ _ => trivial⟩)
      fun answer _ => ?_
    cases answer with
    | error code => exact .throw _
    | ok => exact .pure (by simp)
  | cons chunk chunks ih =>
    refine .bind (P := fun _ => True) (.atomic fun w h => ⟨query_sound h, fun _ _ _ => trivial⟩)
      fun answer _ => ?_
    cases answer with
    | error code => exact .throw _
    | ok =>
      have := ih (data ++ chunk)
      rwa [List.append_assoc] at this

/-- **A read that returns** has the content of its digest, whatever became of the blob meanwhile. -/
theorem readContent_yields {digest : String} :
    (readContent (κ := κ) client digest).Yields (Sound reader content)
      fun data => content digest = some data := by
  refine .bind (P := fun answer => ∀ chunks, answer = .ok chunks →
    content digest = some chunks.flatten) (.atomic fun w h => ⟨query_sound h, ?_⟩)
    fun answer hans => ?_
  · rintro answer w' hr chunks rfl
    rcases query_cases client (.readContent digest) (fun w : World κ =>
        (w.blobs.lookup digest).elim (.error .notFound) .ok) w with
      ⟨a, -, ha, hr'⟩ | ⟨code, -, hr'⟩
    · cases hr'.symm.trans hr
      have hl : w.blobs.lookup digest = some chunks := by
        have hadv : (w.advance client).blobs = w.blobs := rfl
        rw [hadv] at ha
        cases hl : w.blobs.lookup digest with
        | none => rw [hl] at ha; cases ha
        | some c => rw [hl] at ha; cases ha; rfl
      exact h.1 digest chunks hl
    · cases hr'.symm.trans hr
  · cases answer with
    | error code => exact .throw _
    | ok chunks =>
      refine (readChunks_yields chunks []).mono fun data hdata => ?_
      rw [hdata, List.nil_append]
      exact hans chunks rfl

theorem parse_yields {α : Type} {what : String} {answer : Except String α} {I : World κ → Prop} :
    (parse (κ := κ) what answer).Yields I fun a => answer = .ok a := by
  cases answer with
  | error e => exact .throw _
  | ok a => exact .pure rfl

variable (hcode : SameCode reader client)

include hcode

theorem indexConfigDigest_yields {manifests : Json} :
    (indexConfigDigest (κ := κ) client manifests).Yields (Sound reader content)
      fun digest => indexConfigOf reader content manifests = some digest := by
  unfold indexConfigDigest indexConfigOf
  rw [hcode.arch]
  cases selectManifest reader.arch manifests with
  | error e => exact .throw _
  | ok digest =>
    refine .bind readContent_yields fun data hdata => .bind parse_yields fun sub hsub => ?_
    rw [hcode.parseJson] at hsub
    cases hconfig : configDigest sub with
    | none => exact .throw _
    | some config =>
      refine .pure ?_
      simp [hdata, hsub, hconfig, Except.toOption]

theorem manifestConfigDigest_yields {manifest : Json} :
    (manifestConfigDigest (κ := κ) client manifest).Yields (Sound reader content)
      fun digest => configOf reader content manifest = some digest := by
  unfold manifestConfigDigest configOf
  cases manifest.get "config" with
  | some config =>
    cases hconfig : configDigest manifest with
    | none => exact .throw _
    | some digest => exact .pure rfl
  | none =>
    cases manifest.get "manifests" with
    | none => exact .throw _
    | some manifests => exact indexConfigDigest_yields hcode

/-- **A fetch that returns** has what its digest means. -/
theorem fetchImageMetadata_yields {digest : String} :
    (fetchImageMetadata (κ := κ) client digest).Yields (Sound reader content)
      fun metadata => metadataOf reader content digest = some metadata := by
  refine .bind readContent_yields fun data hdata => .bind parse_yields fun manifest hmanifest =>
    .bind (manifestConfigDigest_yields hcode) fun config hconfig =>
    .bind readContent_yields fun configData hconfigData => .bind parse_yields fun image himage => ?_
  rw [hcode.parseJson] at hmanifest
  rw [hcode.parseImageConfig] at himage
  by_cases hempty : image.diffIds.isEmpty = true
  · rw [if_pos hempty]
    exact .throw _
  · rw [if_neg hempty]
    refine .pure ?_
    have hne : image.diffIds.isEmpty = false := by simpa using hempty
    simp only [metadataOf, hdata, hmanifest, hconfig, hconfigData, himage, hne, hcode.sha256,
      Except.toOption, Option.bind_eq_bind, Option.bind_some, Bool.false_eq_true, if_false]

/-- **A lookup that returns**, cached or not, has what its digest means, and leaves the cache so. -/
theorem getImageMetadata_yields {digest : String} :
    (getImageMetadata (κ := κ) client digest).Yields (Sound reader content)
      fun metadata => metadataOf reader content digest = some metadata := by
  refine .bind (P := fun cached => ∀ metadata, cached = some metadata →
    metadataOf reader content digest = some metadata) (.atomic fun w h => ⟨h, ?_⟩)
    fun cached hcached => ?_
  · rintro cached w' hr metadata rfl
    have hget : (EStateM.get >>= fun w => pure (w.metadataCache.lookup digest) :
        Op κ (Option ImageMetadata)) w = .ok (w.metadataCache.lookup digest) w := rfl
    injection hget.symm.trans hr with hl
    exact h.2 digest metadata hl
  · cases cached with
    | some metadata => exact .pure (hcached metadata rfl)
    | none =>
      refine .bind (fetchImageMetadata_yields hcode) fun metadata hmeans => ?_
      refine .bind (P := fun _ => True) (.atomic fun w h => ⟨⟨h.1, fun digest' found hl => ?_⟩,
        fun _ _ _ => trivial⟩) fun _ _ => .pure hmeans
      have hl' : (w.metadataCache.insert digest metadata).lookup digest' = some found := hl
      by_cases hd : digest' = digest
      · subst hd
        rw [AList.lookup_insert] at hl'
        cases hl'
        exact hmeans
      · rw [AList.lookup_insert_ne hd] at hl'
        exact h.2 digest' found hl'

end Lookup

/-! ## Side by side -/

/-- `clear_image_cache`. -/
def clearImageCache : Op κ Unit := modify fun w => { w with metadataCache := ∅ }

/-- What goes on around the cache; `change` is what containerd does on its own. -/
inductive CacheJob (κ : Type) where
  | lookup (digest : String)
  | clear
  | containerd (change : World κ → World κ)

def CacheJob.prog (client : Client) : CacheJob κ → Proc κ (Option ImageMetadata)
  | .lookup digest => do
    let metadata ← getImageMetadata client digest
    return some metadata
  | .clear => do
    call clearImageCache
    return none
  | .containerd change => do
    call (modify change)
    return none

/-- containerd knows nothing of the cache, and may pull and collect blobs, but not alter one. -/
def CacheJob.Lawful (content : String → Option Bytes) : CacheJob κ → Prop
  | .containerd change => ∀ w, (change w).metadataCache = w.metadataCache ∧
      (Addressed content w → Addressed content (change w))
  | _ => True

def cachePool (client : ι → Client) (job : ι → CacheJob κ) (w : World κ) :
    Pool ι (World κ) Error (Option ImageMetadata) where
  state := w
  progs i := (job i).prog (client i)

theorem cacheJob_yields {client reader : Client} {content : String → Option Bytes}
    (hcode : SameCode reader client) {job : CacheJob κ} (hjob : job.Lawful content) :
    (job.prog client).Yields (Sound reader content) fun found => ∀ digest metadata,
      job = .lookup digest → found = some metadata →
        metadataOf reader content digest = some metadata := by
  cases job with
  | lookup digest =>
    refine .bind (getImageMetadata_yields hcode) fun metadata hmeans => .pure ?_
    rintro d m hd hm
    cases hd
    cases hm
    exact hmeans
  | clear =>
    refine .bind (P := fun _ => True) (.atomic fun w h => ⟨⟨h.1, fun digest m hl => ?_⟩,
      fun _ _ _ => trivial⟩) fun _ _ => .pure fun _ _ _ hm => nomatch hm
    cases hl
  | containerd change =>
    refine .bind (P := fun _ => True) (.atomic fun w h => ⟨⟨(hjob w).2 h.1, ?_⟩,
      fun _ _ _ => trivial⟩) fun _ _ => .pure fun _ _ _ hm => nomatch hm
    show Coherent reader content (change w)
    unfold Coherent
    rw [(hjob w).1]
    exact h.2

/-- **The cache is coherent** in every interleaving of lookups, clears and what containerd does to
its store, whatever requests fail: every lookup that returns has what its digest means, wherever it
found it. -/
theorem cache_coherent [DecidableEq ι] (client : ι → Client) (reader : Client)
    (hcode : ∀ i, SameCode reader (client i)) (content : String → Option Bytes)
    (job : ι → CacheJob κ) (hjob : ∀ i, (job i).Lawful content) (w : World κ)
    (haddr : Addressed content w) (hcache : Coherent reader content w) (sched : List ι)
    (p : Pool ι (World κ) Error (Option ImageMetadata))
    (hr : run Pool.step (cachePool client job w) sched = some p) :
    Coherent reader content p.state ∧
    ∀ i digest metadata, job i = .lookup digest →
      (p.progs i).result? = some (.ok (some metadata)) →
      metadataOf reader content digest = some metadata := by
  obtain ⟨hsound, hresults⟩ := Pool.run_yields (I := Sound reader content) ⟨haddr, hcache⟩
    (fun i => cacheJob_yields (hcode i) (hjob i)) hr
  exact ⟨hsound.2, fun i digest metadata hi hres => hresults i _ hres digest metadata hi rfl⟩

/-! ## A store of one image -/

/-- A manifest and its configuration. -/
def twoBlobs (digest : String) : Option Bytes :=
  if digest = "m" then some [1] else if digest = "c" then some [2] else none

/-- A client that parses these. -/
def twoBlobsReader : Client where
  parseJson data := if data = [1] then
    .ok (.object [("config", .object [("digest", .string "c")])]) else .error "EOF"
  parseImageConfig data := if data = [2] then .ok { diffIds := ["d"] } else .error "EOF"

/-- Each blob is streamed in two messages. -/
def twoBlobsWorld : World Unit where
  snapshots := ∅
  containers := ∅
  blobs := ((∅ : AList fun _ : String => List Bytes).insert "m" [[1], []]).insert "c" [[], [2]]

/-- Two lookups, a clear, and the manifest being collected. -/
def twoLookups : Fin 4 → CacheJob Unit
  | 0 | 1 => .lookup "m"
  | 2 => .clear
  | 3 => .containerd fun w => { w with blobs := w.blobs.erase "m" }

theorem twoBlobs_addressed : Addressed twoBlobs twoBlobsWorld := by
  intro digest chunks hl
  have hw : twoBlobsWorld.blobs = ((∅ : AList fun _ : String => List Bytes).insert "m"
    [[1], []]).insert "c" [[], [2]] := rfl
  rw [hw] at hl
  by_cases hc : digest = "c"
  · subst hc
    rw [AList.lookup_insert] at hl
    cases hl
    rfl
  · rw [AList.lookup_insert_ne hc] at hl
    by_cases hm : digest = "m"
    · subst hm
      rw [AList.lookup_insert] at hl
      cases hl
      rfl
    · rw [AList.lookup_insert_ne hm] at hl
      cases hl

theorem twoLookups_lawful (i : Fin 4) : (twoLookups i).Lawful twoBlobs := by
  match i with
  | 0 | 1 | 2 => trivial
  | 3 =>
    intro w
    refine ⟨rfl, fun h digest chunks hl => ?_⟩
    have hl' : (w.blobs.erase "m").lookup digest = some chunks := hl
    by_cases hm : digest = "m"
    · subst hm
      rw [AList.lookup_erase] at hl'
      cases hl'
    · rw [AList.lookup_erase_ne hm] at hl'
      exact h digest chunks hl'

/-- The first lookup runs while the second is under way; then the cache is cleared and the manifest
is gone. -/
def racedLookups : List (Fin 4) :=
  List.replicate 5 1 ++ List.replicate 10 0 ++ [2, 3] ++ List.replicate 5 1

theorem raced_lookup_means : ∃ p,
    run Pool.step (cachePool (fun _ => twoBlobsReader) twoLookups twoBlobsWorld) racedLookups =
      some p ∧
    metadataOf twoBlobsReader twoBlobs "m" =
      some { chainId := "d", config := { diffIds := ["d"] }, rawConfig := [2] } := by
  obtain ⟨p, hr, hres⟩ := run_eval Pool.step
    (cachePool (fun _ => twoBlobsReader) twoLookups twoBlobsWorld) racedLookups
    (fun p => (p.progs 1).result? = some (.ok (some
      { chainId := "d", config := { diffIds := ["d"] }, rawConfig := [2] })))
    (by decide +kernel)
  exact ⟨p, hr, (cache_coherent (fun _ => twoBlobsReader) twoBlobsReader
    (fun _ => ⟨rfl, rfl, rfl, rfl⟩) twoBlobs twoLookups twoLookups_lawful twoBlobsWorld
    twoBlobs_addressed (fun _ _ hl => nomatch hl) racedLookups p hr).2 1 "m" _ rfl hres⟩

/-! ## The plain path -/

section Fetch

variable {client : Client} {content : String → Option Bytes}
  (hfault : ∀ n, client.fault n = none)

include hfault

theorem query_answered {α : Type} {call : Call} {answer : World κ → Except Code α} {w : World κ}
    {a : α} (ha : answer (w.advance client) = .ok a) :
    query client call answer w = .ok (.ok a) (w.noted client call none) := by
  rcases query_cases client call answer w with ⟨b, -, hb, hr⟩ | ⟨code, hf | ⟨-, he⟩, hr⟩
  · cases ha.symm.trans hb
    exact hr
  · rw [hfault] at hf
    cases hf
  · cases ha.symm.trans he

theorem readChunks_answered (digest : String) (chunks : List Bytes) (data : Bytes) (w : World κ) :
    ∃ w', (readChunks client digest chunks data).run w = .ok (data ++ chunks.flatten) w' ∧
      w'.blobs = w.blobs := by
  have hread (w : World κ) : query client (.readChunk digest) (fun _ => .ok ()) w =
      .ok (.ok ()) (w.noted client (.readChunk digest) none) := query_answered hfault rfl
  induction chunks generalizing data w with
  | nil =>
    simp only [readChunks, call, Prog.run_bind, Prog.run_atomic]
    rw [bind_ok (hread w), List.flatten_nil, List.append_nil]
    exact ⟨_, rfl, rfl⟩
  | cons chunk chunks ih =>
    simp only [readChunks, call, Prog.run_bind, Prog.run_atomic]
    rw [bind_ok (hread w)]
    obtain ⟨w', hr, hb⟩ := ih (data ++ chunk) (w.noted client (.readChunk digest) none)
    rw [List.append_assoc] at hr
    exact ⟨w', hr, hb⟩

/-- Every content is there to be read. -/
def Stocked (content : String → Option Bytes) (w : World κ) : Prop :=
  ∀ digest data, content digest = some data →
    ∃ chunks, w.blobs.lookup digest = some chunks ∧ chunks.flatten = data

theorem readContent_answered {digest : String} {data : Bytes} {w : World κ} (h : Stocked content w)
    (hdata : content digest = some data) :
    ∃ w', (readContent client digest).run w = .ok data w' ∧ Stocked content w' := by
  obtain ⟨chunks, hl, rfl⟩ := h digest data hdata
  have hadv : (w.advance client).blobs = w.blobs := rfl
  have hread : query client (.readContent digest) (fun w : World κ =>
      (w.blobs.lookup digest).elim (.error .notFound) .ok) w =
      .ok (.ok chunks) (w.noted client (.readContent digest) none) :=
    query_answered hfault (by rw [hadv, hl]; rfl)
  simp only [readContent, call, Prog.run_bind, Prog.run_atomic]
  rw [bind_ok hread]
  obtain ⟨w', hr, hb⟩ := readChunks_answered hfault digest chunks []
    (w.noted client (.readContent digest) none)
  refine ⟨w', hr, ?_⟩
  unfold Stocked
  rw [hb]
  exact h

omit hfault in
theorem parse_ok {α : Type} {what : String} {answer : Except String α} {a : α}
    (h : answer.toOption = some a) (w : World κ) : (parse what answer).run w = .ok a w := by
  cases answer with
  | error e => cases h
  | ok b => cases h; rfl

theorem manifestConfigDigest_ok {manifest : Json} {digest : String} {w : World κ}
    (h : Stocked content w) (hd : configOf client content manifest = some digest) :
    ∃ w', (manifestConfigDigest client manifest).run w = .ok digest w' ∧ Stocked content w' := by
  unfold configOf at hd
  unfold manifestConfigDigest
  cases hconfig : manifest.get "config" with
  | some config =>
    rw [hconfig] at hd
    dsimp only at hd ⊢
    rw [hd]
    exact ⟨w, rfl, h⟩
  | none =>
    cases hlist : manifest.get "manifests" with
    | none => rw [hconfig, hlist] at hd; cases hd
    | some manifests =>
      rw [hconfig, hlist] at hd
      dsimp only at hd ⊢
      unfold indexConfigOf at hd
      unfold indexConfigDigest
      cases hsel : selectManifest client.arch manifests with
      | error e => rw [hsel] at hd; cases hd
      | ok sub =>
        rw [hsel] at hd
        obtain ⟨_, hsub, hd⟩ := Option.bind_eq_some_iff.mp hd
        cases hsub
        obtain ⟨data, hdata, hd⟩ := Option.bind_eq_some_iff.mp hd
        obtain ⟨subManifest, hparse, hd⟩ := Option.bind_eq_some_iff.mp hd
        obtain ⟨w', hr, h'⟩ := readContent_answered hfault h hdata
        dsimp only
        simp only [Prog.run_bind]
        rw [bind_ok hr, bind_ok (parse_ok hparse w'), hd]
        exact ⟨w', rfl, h'⟩

/-- **A fetch that nothing hinders** returns what the digest means. -/
theorem fetchImageMetadata_ok {digest : String} {metadata : ImageMetadata} {w : World κ}
    (h : Stocked content w) (hm : metadataOf client content digest = some metadata) :
    ∃ w', (fetchImageMetadata client digest).run w = .ok metadata w' := by
  unfold metadataOf at hm
  obtain ⟨data, hdata, hm⟩ := Option.bind_eq_some_iff.mp hm
  obtain ⟨manifest, hmanifest, hm⟩ := Option.bind_eq_some_iff.mp hm
  obtain ⟨config, hconfig, hm⟩ := Option.bind_eq_some_iff.mp hm
  obtain ⟨configData, hconfigData, hm⟩ := Option.bind_eq_some_iff.mp hm
  obtain ⟨image, himage, hm⟩ := Option.bind_eq_some_iff.mp hm
  obtain ⟨w₁, hr₁, h₁⟩ := readContent_answered hfault h hdata
  obtain ⟨w₂, hr₂, h₂⟩ := manifestConfigDigest_ok hfault h₁ hconfig
  obtain ⟨w₃, hr₃, -⟩ := readContent_answered hfault h₂ hconfigData
  simp only [fetchImageMetadata, Prog.run_bind]
  rw [bind_ok hr₁, bind_ok (parse_ok hmanifest w₁), bind_ok hr₂, bind_ok hr₃,
    bind_ok (parse_ok himage w₃)]
  split at hm
  · cases hm
  · rename_i hne
    rw [if_neg hne]
    cases hm
    exact ⟨w₃, rfl⟩

end Fetch

/-- **A cached lookup is a fetch**: in every state such an interleaving reaches, as long as the
blobs are there, a lookup that nothing hinders comes to what it would come to without the cache. -/
theorem lookup_agrees_with_fetch [DecidableEq ι] (client : ι → Client) (reader : Client)
    (hcode : ∀ i, SameCode reader (client i)) (content : String → Option Bytes)
    (job : ι → CacheJob κ) (hjob : ∀ i, (job i).Lawful content) (w : World κ)
    (haddr : Addressed content w) (hcache : Coherent reader content w) (sched : List ι)
    (p : Pool ι (World κ) Error (Option ImageMetadata))
    (hr : run Pool.step (cachePool client job w) sched = some p)
    (hstocked : Stocked content p.state) (hfault : ∀ n, reader.fault n = none) (digest : String) :
    result (getImageMetadata reader digest).run p.state =
      result (fetchImageMetadata reader digest).run p.state := by
  have hsound : Sound reader content p.state :=
    (Pool.run_yields (I := Sound reader content) ⟨haddr, hcache⟩
      (fun i => cacheJob_yields (hcode i) (hjob i)) hr).1
  have hget : (EStateM.get >>= fun w => pure (w.metadataCache.lookup digest) :
      Op κ (Option ImageMetadata)) p.state = .ok (p.state.metadataCache.lookup digest) p.state :=
    rfl
  simp only [getImageMetadata, call, Prog.run_bind, Prog.run_atomic]
  unfold result
  rw [bind_ok hget]
  cases hl : p.state.metadataCache.lookup digest with
  | some metadata =>
    obtain ⟨w', hfetch⟩ := fetchImageMetadata_ok hfault hstocked (hsound.2 digest metadata hl)
    rw [hfetch]
    rfl
  | none =>
    dsimp only
    simp only [Prog.run_bind]
    cases hfetch : (fetchImageMetadata reader digest).run p.state with
    | ok metadata w' => rw [bind_ok hfetch]; rfl
    | error e w' => rw [bind_error hfetch]

theorem lookup_agrees_after_lookup : ∃ p,
    run Pool.step (cachePool (fun _ => twoBlobsReader) twoLookups twoBlobsWorld)
      (List.replicate 10 0) = some p ∧
    p.state.metadataCache.lookup "m" ≠ none ∧
    result (getImageMetadata twoBlobsReader "m").run p.state =
      result (fetchImageMetadata twoBlobsReader "m").run p.state := by
  obtain ⟨p, hr, hblobs, hcached⟩ := run_eval Pool.step
    (cachePool (fun _ => twoBlobsReader) twoLookups twoBlobsWorld) (List.replicate 10 0)
    (fun p => p.state.blobs.entries = twoBlobsWorld.blobs.entries ∧
      p.state.metadataCache.lookup "m" ≠ none)
    (by decide +kernel)
  refine ⟨p, hr, hcached, lookup_agrees_with_fetch (fun _ => twoBlobsReader) twoBlobsReader
    (fun _ => ⟨rfl, rfl, rfl, rfl⟩) twoBlobs twoLookups twoLookups_lawful twoBlobsWorld
    twoBlobs_addressed (fun _ _ hl => nomatch hl) _ p hr ?_ (fun _ => rfl) "m"⟩
  unfold Stocked
  rw [AList.ext hblobs]
  intro digest data hdata
  unfold twoBlobs at hdata
  split at hdata
  · rename_i hd
    cases hdata
    exact ⟨[[1], []], by rw [hd]; rfl, rfl⟩
  · split at hdata
    · rename_i hd
      cases hdata
      exact ⟨[[], [2]], by rw [hd]; rfl, rfl⟩
    · cases hdata

end ContainerdManager.Container
