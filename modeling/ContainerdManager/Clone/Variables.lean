import ContainerdManager.Clone.Chain

/-!
# Variables and labels along a chain of clones

Every clone prints the variables into a spec from which the next one reads
them back, drops the managed labels, and merges both with those of the image
again. Over a whole chain this comes to the overrides of its calls, in order.
-/

namespace ContainerdManager.Clone

open Lib Containerd Container ContainerdManager.Task

variable {κ : Type}

/-- `image` resolves to the configuration `config`. -/
def Resolves (client : Client) (w : World κ) (image : String) (config : ImageConfiguration) :
    Prop :=
  ∀ metadata, ReadsMetadata client w image metadata → metadata.config = config

/-- The variables of a record, as inspecting it reads them. -/
def variablesOf (record : ContainerRecord) : Labels :=
  (record.spec.map fun spec => parseEnvVars spec.process.env).getD ∅

/-- A key that no clone writes itself. -/
def UserKey (key : String) : Prop :=
  isManagedLabel key = false ∧ key ∉ nameLabels

/-- What a value becomes by overrides depends on that value only. -/
theorem lookup_overrides_congr {α : Type} (added : α → Labels) (calls : List α)
    {vars vars' : Labels} {key : String} (h : vars.lookup key = vars'.lookup key) :
    (calls.foldl (fun vars c => added c ∪ vars) vars).lookup key =
      (calls.foldl (fun vars c => added c ∪ vars) vars').lookup key := by
  induction calls generalizing vars vars' with
  | nil => exact h
  | cons c calls ih =>
    refine ih ?_
    rw [lookup_union, lookup_union, h]

/-! ## One record -/

section Record

variable {client : Client} {id name image key : String} {opts : CreateContainerOpts}
  {metadata : ImageMetadata} {bridge : Option (String × List (UInt16 × UInt16))}

theorem lookup_variablesOf (h : PlainKeys opts.env) (k : String) :
    (variablesOf (recordOf client id name image opts metadata key bridge)).lookup k =
      (opts.env ∪ imageEnv metadata.config).lookup k :=
  lookup_buildMergedEnv metadata.config h k

theorem lookup_recordOf {k : String} (h : UserKey k) :
    (recordOf client id name image opts metadata key bridge).labels.lookup k =
      (opts.labels ∪ imageLabels metadata.config).lookup k := by
  have hne : ∀ {other}, isManagedLabel other = true → k ≠ other := by
    rintro other hother rfl
    rw [h.1] at hother
    cases hother
  have hstrip : stripPortLabel k = none := by
    cases hs : stripPortLabel k with
    | none => rfl
    | some port =>
      have hmanaged := (isManagedLabel_iff k).mpr (.inr (.inr (by rw [hs]; rfl)))
      rw [h.1] at hmanaged
      cases hmanaged
  show (containerLabels _ _ _ _ _ _).lookup k = _
  rw [lookup_containerLabels _ _ _ _ _ _ hstrip h.2]
  cases bridge with
  | none => exact AList.lookup_insert_ne (hne (by decide +kernel))
  | some b =>
    exact (AList.lookup_insert_ne (hne (by decide +kernel))).trans
      (AList.lookup_insert_ne (hne (by decide +kernel)))

end Record

/-! ## One clone -/

/-- A record of `image` has every variable and every label that the configuration has. -/
structure Covers (image : String) (config : ImageConfiguration) (record : ContainerRecord) :
    Prop where
  image : record.image = image
  vars : ∀ key : String, (variablesOf record).lookup key = none →
    (imageEnv config).lookup key = none
  labels : ∀ key, UserKey key → record.labels.lookup key = none →
    (imageLabels config).lookup key = none

/-- What an override of values is that already cover those underneath. -/
theorem lookup_union_of_covers {added vars base : Labels} {key : String}
    (h : vars.lookup key = none → base.lookup key = none) :
    ((added ∪ vars) ∪ base).lookup key = (added ∪ vars).lookup key := by
  rw [lookup_union, lookup_union]
  cases hv : vars.lookup key with
  | none => rw [h hv, Option.or_none]
  | some value => cases added.lookup key <;> rfl

/-- **One clone is a clean override** of the variables and the labels of its source. -/
theorem CloneRun.Makes.override {c : CloneRun κ} {source clone : ContainerRecord} {image : String}
    {config : ImageConfiguration} (h : c.Makes source clone) (hcovers : Covers image config source)
    (hresolves : Resolves c.client c.before image config) (hextra : PlainKeys c.opts.extraEnv) :
    Covers image config clone ∧
      (∀ key : String, (variablesOf clone).lookup key =
        (c.opts.extraEnv ∪ variablesOf source).lookup key) ∧
      ∀ key, UserKey key →
        clone.labels.lookup key = (c.opts.labelOverrides ∪ source.labels).lookup key := by
  obtain ⟨task, createOpts, metadata, bridge, hopts, hreads, rfl, -⟩ := h.built
  rw [hcovers.image] at hreads
  have hconfig := hresolves metadata hreads
  obtain ⟨-, hcreateOpts⟩ := cloneOpts_ok hopts
  have henv : createOpts.env = c.opts.extraEnv ∪ variablesOf source := by
    rw [hcreateOpts]
    rfl
  have hplain : PlainKeys (variablesOf source) := by
    unfold variablesOf
    cases source.spec with
    | none => exact fun key hkey => absurd hkey (AList.notMem_empty key)
    | some spec => exact plainKeys_parseEnvVars _
  have hvars : ∀ key : String, (variablesOf (recordOf c.client c.dst c.dstName source.image
      createOpts metadata (createOpts.fromExistingSnapshot.getD (snapshotKeyFor c.dst))
      bridge)).lookup key = (c.opts.extraEnv ∪ variablesOf source).lookup key := by
    intro key
    rw [lookup_variablesOf (henv ▸ hextra.union hplain) key, henv, hconfig,
      lookup_union_of_covers (hcovers.vars key)]
  have hlabels : ∀ key, UserKey key → (recordOf c.client c.dst c.dstName source.image createOpts
      metadata (createOpts.fromExistingSnapshot.getD (snapshotKeyFor c.dst)) bridge).labels.lookup
      key = (c.opts.labelOverrides ∪ source.labels).lookup key := by
    intro key hkey
    have hown : createOpts.labels.lookup key =
        (c.opts.labelOverrides ∪ source.labels).lookup key := by
      rw [lookup_cloneOpts hopts key, hkey.1, if_neg Bool.false_ne_true, lookup_union]
      rfl
    rw [lookup_recordOf hkey, hconfig, lookup_union, hown, ← lookup_union,
      lookup_union_of_covers (hcovers.labels key hkey)]
  refine ⟨⟨hcovers.image, fun key hnone => ?_, fun key hkey hnone => ?_⟩, hvars, hlabels⟩
  · rw [hvars key, lookup_union, Option.or_eq_none_iff] at hnone
    exact hcovers.vars key hnone.2
  · rw [hlabels key hkey, lookup_union, Option.or_eq_none_iff] at hnone
    exact hcovers.labels key hkey hnone.2

/-! ## Chains -/

/-- A chain is the override by all its calls, in order. -/
theorem CloneChain.override {source last : ContainerRecord} {calls : List (CloneRun κ)}
    (hchain : CloneChain source calls last) {image : String} {config : ImageConfiguration}
    (hcovers : Covers image config source)
    (hresolves : ∀ c ∈ calls, Resolves c.client c.before image config)
    (hextra : ∀ c ∈ calls, PlainKeys c.opts.extraEnv) :
    (∀ key : String, (variablesOf last).lookup key =
        (calls.foldl (fun vars c => c.opts.extraEnv ∪ vars) (variablesOf source)).lookup key) ∧
      ∀ key, UserKey key → last.labels.lookup key =
        (calls.foldl (fun labels c => c.opts.labelOverrides ∪ labels) source.labels).lookup
          key := by
  induction hchain with
  | nil record => exact ⟨fun _ => rfl, fun _ _ => rfl⟩
  | @cons c calls source clone last hc hrest ih =>
    obtain ⟨hclone, hvars, hlabels⟩ := hc.override hcovers (hresolves c List.mem_cons_self)
      (hextra c List.mem_cons_self)
    obtain ⟨hlast, hlast'⟩ := ih hclone (fun c hmem => hresolves c (List.mem_cons_of_mem _ hmem))
      fun c hmem => hextra c (List.mem_cons_of_mem _ hmem)
    refine ⟨fun key => ?_, fun key hkey => ?_⟩
    · rw [hlast key]
      exact lookup_overrides_congr _ calls (hvars key)
    · rw [hlast' key hkey]
      exact lookup_overrides_congr _ calls (hlabels key hkey)

/-- **Variables and labels are inherited along a chain of clones**, if the image resolves to the
same configuration all along and no key of a variable has a `=`: those of the last clone are the
image's under the source's, under the overrides of the calls in order. -/
theorem clone_chain_variables (client : Client) (id name image r lastId : String)
    (opts : CreateContainerOpts) (w w' : World κ) (source last : ContainerRecord)
    (calls : List (CloneRun κ)) (config : ImageConfiguration) (task : Option TaskInfo)
    (hrun : (createContainer client id name image opts).run w = .ok r w')
    (hsource : w'.containers.lookup id = some source) (hchain : CloneChain source calls last)
    (hresolves : Resolves client w image config)
    (hresolves' : ∀ c ∈ calls, Resolves c.client c.before image config)
    (hplain : PlainKeys opts.env) (hextra : ∀ c ∈ calls, PlainKeys c.opts.extraEnv) :
    (∀ key : String, (containerToInfo lastId last task).env.lookup key =
        (calls.foldl (fun vars c => c.opts.extraEnv ∪ vars)
          (opts.env ∪ imageEnv config)).lookup key) ∧
      ∀ key, UserKey key → (containerToInfo lastId last task).labels.lookup key =
        (calls.foldl (fun labels c => c.opts.labelOverrides ∪ labels) source.labels).lookup
          key := by
  obtain ⟨metadata, bridge, hreads, -, rfl⟩ := createContainer_record hrun hsource
  have hconfig := hresolves metadata hreads
  have hvars : ∀ key : String, (variablesOf (recordOf client id name image opts metadata
      (opts.fromExistingSnapshot.getD (snapshotKeyFor id)) bridge)).lookup key =
      (opts.env ∪ imageEnv config).lookup key := fun key => by
    rw [lookup_variablesOf hplain, hconfig]
  have hcovers : Covers image config (recordOf client id name image opts metadata
      (opts.fromExistingSnapshot.getD (snapshotKeyFor id)) bridge) := by
    refine ⟨rfl, fun key hnone => ?_, fun key hkey hnone => ?_⟩
    · rw [hvars key, lookup_union, Option.or_eq_none_iff] at hnone
      exact hnone.2
    · rw [lookup_recordOf hkey, hconfig, lookup_union, Option.or_eq_none_iff] at hnone
      exact hnone.2
  obtain ⟨hlast, hlast'⟩ := hchain.override hcovers hresolves' hextra
  exact ⟨fun key => (hlast key).trans (lookup_overrides_congr _ calls (hvars key)), hlast'⟩

/-- A clone of a container with one variable has that variable. -/
theorem clone_chain_variables_host : ∃ source clone,
    CloneChain source [cloned .host] clone ∧
      (containerToInfo "c2" clone none).env.lookup "PORT" = some "80" := by
  obtain ⟨source, clone, hrun, hsource, hmakes⟩ := cloned_makes .host (.inl rfl)
  have hchain : CloneChain source [cloned .host] clone := .cons hmakes (.nil clone)
  have himage : (createdWorld .host).images.lookup "mongo" = some (some "sha256:1") ∧
      (createdWorld .host).metadataCache.lookup "sha256:1" =
        oneImage.metadataCache.lookup "sha256:1" := by decide +kernel
  have hvars := (clone_chain_variables {} "c1" "db" "mongo" "c1" "c2" (sourceOpts .host) oneImage
    (createdWorld .host) source clone [cloned .host] { diffIds := ["chain"] } none hrun hsource
    hchain ?_ ?_ ?_ ?_).1
  · exact ⟨source, clone, hchain, (hvars "PORT").trans (by decide +kernel)⟩
  · intro metadata hreads
    rw [hreads.cached (AList.lookup_insert _) (AList.lookup_insert _)]
  · intro c hc metadata hreads
    cases List.mem_singleton.mp hc
    rw [hreads.cached himage.1 (himage.2.trans (AList.lookup_insert _))]
  · intro key hkey
    rcases (AList.mem_insert _).mp hkey with rfl | hkey
    · decide
    · exact absurd hkey (AList.notMem_empty key)
  · intro c hc key hkey
    cases List.mem_singleton.mp hc
    exact absurd hkey (AList.notMem_empty key)

end ContainerdManager.Clone
