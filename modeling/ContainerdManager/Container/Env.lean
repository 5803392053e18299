import ContainerdManager.Container.Spec
import Mathlib.Data.List.TakeDrop
import Mathlib.Data.List.TakeWhile

/-!
# Environment variables

A map of variables is printed as `KEY=value` entries into the spec and read
back from it by splitting at the first `=`. Nothing is lost as long as no key
has a `=` in it, and the keys read back never have one.
-/

namespace ContainerdManager.Container

open Containerd

/-! ## Maps filled entry by entry -/

/-- Insert the entries of a map whose keys are not skipped; the others stay as they are. -/
theorem lookup_foldl_insert_unless {α β : Type} (skip : String → Bool) (f : α → β) (key : String)
    (entries : List (Sigma fun _ : String => α)) (h : entries.NodupKeys)
    (map : AList fun _ : String => β) :
    (entries.foldl (fun map e => if skip e.1 then map else map.insert e.1 (f e.2)) map).lookup key =
      if skip key then map.lookup key
      else ((entries.dlookup key).map f).or (map.lookup key) := by
  induction entries generalizing map with
  | nil => split <;> rfl
  | cons e entries ih =>
    obtain ⟨k, a⟩ := e
    obtain ⟨hk, hrest⟩ := List.nodupKeys_cons.mp h
    rw [List.foldl_cons, ih hrest]
    by_cases hkey : key = k
    · subst hkey
      by_cases hs : skip key = true
      · simp only [hs, if_true]
      · rw [if_neg hs, if_neg hs, if_neg hs, List.dlookup_eq_none.mpr hk, List.dlookup_cons_eq,
          AList.lookup_insert]
        rfl
    · rw [List.dlookup_cons_ne _ _ hkey]
      by_cases hs : skip k = true
      · simp only [hs, if_true]
      · rw [if_neg hs, AList.lookup_insert_ne hkey]

theorem lookup_foldl_insert {α β : Type} (f : α → β) (key : String)
    (entries : List (Sigma fun _ : String => α)) (h : entries.NodupKeys)
    (map : AList fun _ : String => β) :
    (entries.foldl (fun map e => map.insert e.1 (f e.2)) map).lookup key =
      ((entries.dlookup key).map f).or (map.lookup key) :=
  lookup_foldl_insert_unless (fun _ => false) f key entries h map

/-! ## Entries -/

/-- The key of an entry that splits ends before its first `=`. -/
theorem splitOnce_key {entry key value : String} (h : splitOnce entry = some (key, value)) :
    '=' ∉ key.toList := by
  rw [splitOnce, List.span_eq_takeWhile_dropWhile] at h
  cases hd : entry.toList.dropWhile (· ≠ '=') with
  | nil =>
    rw [hd] at h
    cases h
  | cons c rest =>
    rw [hd] at h
    cases h
    rw [String.toList_ofList]
    intro hmem
    have hne := List.mem_takeWhile_imp hmem
    exact of_decide_eq_true hne rfl

/-- An entry splits into what it was printed from. -/
theorem splitOnce_entry {key : String} (h : '=' ∉ key.toList) (value : String) :
    splitOnce (key ++ "=" ++ value) = some (key, value) := by
  have hlist : (key ++ "=" ++ value).toList = key.toList ++ '=' :: value.toList := by
    rw [String.toList_append, String.toList_append, List.append_assoc]
    rfl
  have hkey : ∀ c ∈ key.toList, decide (c ≠ '=') = true := fun c hc =>
    decide_eq_true fun he => h (he ▸ hc)
  rw [splitOnce, hlist, List.span_eq_takeWhile_dropWhile, List.takeWhile_append_of_pos hkey,
    List.dropWhile_append_of_pos hkey]
  simp [String.ofList_toList]

/-! ## Variables -/

/-- No key has a `=` in it. -/
def PlainKeys (vars : Labels) : Prop := ∀ key : String, key ∈ vars → '=' ∉ key.toList

theorem PlainKeys.union {vars vars' : Labels} (h : PlainKeys vars) (h' : PlainKeys vars') :
    PlainKeys (vars ∪ vars') := fun key hkey =>
  (AList.mem_union.mp hkey).elim (h key) (h' key)

/-- The keys that are read have no `=`. -/
theorem plainKeys_parseEnvVars (env : List String) : PlainKeys (parseEnvVars env) := by
  have hfold : ∀ (pairs : List (String × String)) (vars : Labels), PlainKeys vars →
      (∀ kv ∈ pairs, '=' ∉ kv.1.toList) →
      PlainKeys (pairs.foldl (fun vars kv => vars.insert kv.1 kv.2) vars) := by
    intro pairs
    induction pairs with
    | nil => exact fun _ hvars _ => hvars
    | cons kv pairs ih =>
      intro vars hvars hpairs
      refine ih _ (fun key hkey => ?_) fun kv' hkv' => hpairs kv' (List.mem_cons_of_mem _ hkv')
      rcases (AList.mem_insert _).mp hkey with rfl | hkey
      · exact hpairs kv List.mem_cons_self
      · exact hvars key hkey
  refine hfold _ ∅ (fun key hkey => absurd hkey (AList.notMem_empty key)) fun kv hkv => ?_
  obtain ⟨entry, -, hsplit⟩ := List.mem_filterMap.mp hkv
  exact splitOnce_key hsplit

/-- **What is printed is read back**, if no key has a `=`. -/
theorem lookup_parseEnvVars_print {vars : Labels} (h : PlainKeys vars) (key : String) :
    (parseEnvVars (vars.entries.map fun e => e.1 ++ "=" ++ e.2)).lookup key = vars.lookup key := by
  have hsplit : (vars.entries.map fun e => e.1 ++ "=" ++ e.2).filterMap splitOnce =
      vars.entries.map fun e => (e.1, e.2) := by
    rw [List.filterMap_map, ← List.filterMap_eq_map]
    refine List.filterMap_congr fun e he => ?_
    exact splitOnce_entry (h e.1 (List.mem_map_of_mem he)) e.2
  rw [parseEnvVars, hsplit, List.foldl_map]
  have hall := lookup_foldl_insert id key vars.entries vars.nodupKeys ∅
  rw [AList.lookup_empty, Option.or_none, Option.map_id] at hall
  exact hall

/-- The variables of an image. -/
def imageEnv (image : ImageConfiguration) : Labels :=
  parseEnvVars ((image.config.bind ImageConfig.env).getD [])

theorem lookup_union {vars vars' : Labels} (key : String) :
    (vars ∪ vars').lookup key = (vars.lookup key).or (vars'.lookup key) := by
  cases h : vars.lookup key with
  | none => exact AList.lookup_union_right (AList.lookup_eq_none.mp h)
  | some value =>
    rw [AList.lookup_union_left (AList.lookup_isSome.mp (by rw [h]; rfl)), h]
    rfl

/-- The spec of a container has the user's variables over those of the image. -/
theorem lookup_buildMergedEnv (image : ImageConfiguration) {opts : CreateContainerOpts}
    (h : PlainKeys opts.env) (key : String) :
    (parseEnvVars (buildMergedEnv image opts)).lookup key =
      (opts.env ∪ imageEnv image).lookup key :=
  lookup_parseEnvVars_print (h.union (plainKeys_parseEnvVars _)) key

end ContainerdManager.Container
