import ContainerdManager.Container.Create
import ContainerdManager.Containerd.Filters
import ContainerdManager.Task.List

/-!
# What the label filters select

`build_list_request` of `src/list.rs`, the filter of `resolve_name` of
`src/inspect.rs` and of the check for a duplicate name in `src/container.rs`,
read with the grammar of containerd. The key is put between double quotes
without escapes and the value is not quoted, so a filter means what it says
exactly for a key that a literal takes as it is and a value that needs no
quotes (`labelFilters_mean_iff`). A valid name is such a value, so the check
compares the labels (`checkNameBy_eq`); `resolve_name` takes any text, and
does so for a bare one (`resolveNameBy_eq`).
-/

namespace ContainerdManager.Task

open Lib Lib.GoString Containerd Container

/-- The filters `k=v`. -/
def labelFilters (pairs : List (String × String)) : List String :=
  pairs.map fun pair => pair.1 ++ "=" ++ pair.2

/-- The filter of `resolve_name`. -/
def resolveNameFilter (name : String) : String := "labels.\"" ++ nameLabel ++ "\"==" ++ name

/-- `select` answers as the grammar says. -/
def Follows (d : Dialect) (select : List String → String → ContainerRecord → Bool) : Prop :=
  ∀ request id record, select request id record = true ↔ d.Selected request id record

/-- The answers of a dialect. -/
noncomputable def answers (d : Dialect) (request : List String) (id : String)
    (record : ContainerRecord) : Bool :=
  @decide (d.Selected request id record) (Classical.propDecidable _)

theorem follows_answers (d : Dialect) : Follows d (answers d) := fun _ _ _ => by
  exact @decide_eq_true_iff _ (Classical.propDecidable _)

/-- The request for the filters is read as the conjunction of the pairs, and a list returns the
containers with all these labels. -/
structure FiltersMean (κ : Type) (d : Dialect) (pairs : List (String × String)) : Prop where
  parsed : ∀ ss, d.Request (buildListRequest (labelFilters pairs)) ss ↔ ss = pairs.map Dialect.label
  listed : ∀ select, Follows d select → ∀ (client : Client) (w w' : World κ) infos,
    listContainers client select (labelFilters pairs) w = .ok infos w' →
      infos.map ContainerInfo.id = (w.containers.entries.filter fun e =>
        pairs.all fun pair => e.2.labels.lookup pair.1 = some pair.2).map Sigma.fst

/-- The filter for a name selects the containers with that name label. -/
def NameMeans (d : Dialect) (name : String) : Prop :=
  ∀ id record, d.Selected [resolveNameFilter name] id record ↔
    record.labels.lookup nameLabel = some name

variable {κ : Type} {d : Dialect}

/-! ## The texts -/

theorem toList_labelText (key value : String) :
    ("labels.\"" ++ key ++ "\"==" ++ value).toList =
      Dialect.labelText key.toList value.toList := by
  simp [Dialect.labelText, labelsField]

theorem buildLabelFilter_pair {key : String} (h : '=' ∉ key.toList) (value : String) :
    buildLabelFilter (key ++ "=" ++ value) = some ("labels.\"" ++ key ++ "\"==" ++ value) := by
  rw [buildLabelFilter, splitOnce_entry h, Option.map_some]

theorem intercalate_labels (pair : String × String) (pairs : List (String × String)) :
    (String.intercalate "," ((pair :: pairs).map fun q =>
      "labels.\"" ++ q.1 ++ "\"==" ++ q.2)).toList = Dialect.labelEntry pair pairs := by
  induction pairs generalizing pair with
  | nil => exact toList_labelText pair.1 pair.2
  | cons next pairs ih =>
    rw [List.map_cons, String.intercalate_cons_of_ne_nil (by simp), String.toList_append, ih,
      String.toList_append, toList_labelText, List.append_assoc, Dialect.labelEntry]
    rfl

/-- **All the pairs make one entry.** -/
theorem buildListRequest_cons {pair : String × String} {pairs : List (String × String)}
    (h : ∀ q ∈ pair :: pairs, '=' ∉ q.1.toList) :
    buildListRequest (labelFilters (pair :: pairs)) =
      [String.ofList (Dialect.labelEntry pair pairs)] := by
  have hparsed : (labelFilters (pair :: pairs)).filterMap buildLabelFilter =
      (pair :: pairs).map fun q => "labels.\"" ++ q.1 ++ "\"==" ++ q.2 := by
    rw [labelFilters, List.filterMap_map, ← List.filterMap_eq_map]
    exact List.filterMap_congr fun q hq => buildLabelFilter_pair (h q hq) q.2
  rw [buildListRequest, hparsed, if_neg (by simp), ← intercalate_labels, String.ofList_toList]

/-! ## The filters of a list -/

theorem request_singleton {text : List Char} {ss : List Selector} :
    d.Request [String.ofList text] ss ↔ d.Entry text ss := by
  constructor
  · intro h
    cases h with
    | entry h => rwa [String.toList_ofList] at h
  · intro h
    exact .entry (by rwa [String.toList_ofList])

/-- Selecting by a request that is read in one way. -/
theorem selected_iff {request : List String} {pairs : List (String × String)}
    (h : ∀ ss, d.Request request ss ↔ ss = pairs.map Dialect.label) (id : String)
    (record : ContainerRecord) :
    d.Selected request id record ↔
      ∀ pair ∈ pairs, record.labels.lookup pair.1 = some pair.2 := by
  have hmatch : (∀ s ∈ pairs.map Dialect.label, d.field id record s.path = some s.value) ↔
      ∀ pair ∈ pairs, record.labels.lookup pair.1 = some pair.2 := by
    simp only [List.forall_mem_map, d.field_label_iff]
  rw [← hmatch]
  constructor
  · rintro ⟨ss, hss, hall⟩
    rwa [(h ss).mp hss] at hall
  · exact fun hall => ⟨_, (h _).mpr rfl, hall⟩

theorem filtersMean_iff {pairs : List (String × String)}
    (hkeys : ∀ pair ∈ pairs, '=' ∉ pair.1.toList) :
    FiltersMean κ d pairs ↔ ∀ pair ∈ pairs, d.Plain pair := by
  have hparsed : (∀ ss, d.Request (buildListRequest (labelFilters pairs)) ss ↔
      ss = pairs.map Dialect.label) ↔ ∀ pair ∈ pairs, d.Plain pair := by
    cases pairs with
    | nil =>
      refine iff_of_true (fun ss => ⟨fun h => ?_, fun h => ?_⟩) (by simp)
      · cases h
        rfl
      · rw [h]
        exact .all
    | cons pair pairs =>
      simp only [buildListRequest_cons hkeys, request_singleton]
      exact ⟨fun h => Dialect.plain_of_entry ((h _).mpr rfl), Dialect.entry_iff_of_plain⟩
  refine ⟨fun h => hparsed.mp h.parsed, fun h => ⟨hparsed.mpr h, ?_⟩⟩
  intro select hselect client w w' infos hlist
  rw [listContainers_ids hlist]
  congr 1
  apply List.filter_congr
  intro e _
  rw [Bool.eq_iff_iff, hselect, selected_iff (hparsed.mpr h), List.all_eq_true]
  simp only [decide_eq_true_eq]

/-! ## The filter of a name -/

theorem plainChar_nameLabel : ∀ c ∈ nameLabel.toList, PlainChar c :=
  forall_mem_of_all (by decide)

theorem resolveNameFilter_eq (name : String) :
    resolveNameFilter name = String.ofList (Dialect.labelEntry (nameLabel, name) []) := by
  rw [resolveNameFilter, Dialect.labelEntry, ← toList_labelText, String.ofList_toList]

/-- A label that is selected with its value has a value that needs no quotes. -/
theorem bare_of_selected {key value : String} (hkey : ∀ c ∈ key.toList, PlainChar c)
    (h : ∀ record : ContainerRecord, record.labels.lookup key = some value →
      d.Selected [String.ofList (Dialect.labelEntry (key, value) [])] "" record) :
    d.BareValue value.toList := by
  -- a container with this label alone is selected, so the first selector asks for the value
  let record : ContainerRecord :=
    { image := "", snapshotter := "", snapshotKey := "", labels := AList.insert key value ∅ }
  have hlabel : record.labels.lookup key = some value := AList.lookup_insert _
  obtain ⟨ss, hrequest, hall⟩ := h record hlabel
  obtain ⟨s, more, rest, rfl, hs⟩ := (request_singleton.mp hrequest).first
  obtain ⟨bs, rfl, -⟩ := (Dialect.readsSelector_iff hkey).mp hs
  have hfield := hall _ List.mem_cons_self
  rw [d.field_label, hlabel, Option.map_some, Option.some.injEq] at hfield
  have hread : d.ReadsSelector (Dialect.labelText key.toList (value.toList ++ []))
      (Dialect.label (key, value)) rest := by
    rw [List.append_nil, Dialect.label, hfield]
    exact hs
  have hplain : d.Plain (key, value) ∧ rest = [] := hread.plain (by simp) (Nat.zero_le _)
  exact hplain.1.value

theorem nameMeans_iff (name : String) : NameMeans d name ↔ d.BareValue name.toList := by
  unfold NameMeans
  rw [resolveNameFilter_eq]
  constructor
  · exact fun h => bare_of_selected plainChar_nameLabel fun record hname => (h "" record).mpr hname
  · intro h id record
    have hplain : ∀ q ∈ [(nameLabel, name)], d.Plain q :=
      List.forall_mem_singleton.mpr ⟨plainChar_nameLabel, h⟩
    rw [selected_iff fun ss => request_singleton.trans (Dialect.entry_iff_of_plain hplain ss),
      List.forall_mem_singleton]

/-! ## The lookups by name -/

/-- The ids of the containers that the filter for a name selects. -/
def selectedNames (select : List String → String → ContainerRecord → Bool) (name : String)
    (w : World κ) : List String :=
  (w.containers.entries.filter fun e => select [resolveNameFilter name] e.1 e.2).map Sigma.fst

/-- `resolve_name`, answered by the filter it sends. -/
def resolveNameBy (client : Client) (select : List String → String → ContainerRecord → Bool)
    (name : String) : Op κ String := do
  match ← query client (.listNamed name) fun w => .ok (selectedNames select name w) with
  | .error code => throw (.containerd "resolve_name" code)
  | .ok ids =>
    match ids.getLast? with
    | none => throw (.containerNotFound name)
    | some id =>
      match validateIdentifier id with
      | .error e => throw e
      | .ok () => return id

/-- The check for a duplicate name, answered by the filter it sends. -/
def checkNameBy (client : Client) (select : List String → String → ContainerRecord → Bool)
    (name : String) : Op κ Unit := do
  match ← query client (.listNamed name) fun w => .ok (selectedNames select name w) with
  | .error code => throw (.containerd "list_containers_for_name_check" code)
  | .ok existing => if existing.isEmpty then return () else throw (.containerAlreadyExists name)

section Lookups

variable {select : List String → String → ContainerRecord → Bool} {name : String}

/-- A filter that means its name selects by the label. -/
theorem selectedNames_eq (h : NameMeans d name) (hselect : Follows d select) :
    selectedNames (κ := κ) select name = namedContainers name := by
  funext w
  rw [namedContainers, selectedNames]
  congr 1
  apply List.filter_congr
  intro e _
  rw [Bool.eq_iff_iff, hselect, h e.1 e.2, decide_eq_true_eq]

/-- **A bare name is resolved by its label.** -/
theorem resolveNameBy_eq (client : Client) (hname : d.BareValue name.toList)
    (hselect : Follows d select) :
    resolveNameBy (κ := κ) client select name = resolveName client name := by
  rw [resolveName, ← selectedNames_eq ((nameMeans_iff name).mpr hname) hselect]
  rfl

/-- No letter, digit or separator of an identifier is whitespace. -/
def SpaceFree (d : Dialect) : Prop :=
  ∀ b : UInt8, isAlnum b = true ∨ isSep b = true → d.space (Char.ofNat b.toNat) = false

theorem bareValue_of_validate (hd : SpaceFree d) (h : validateIdentifier name = .ok ()) :
    d.BareValue name.toList where
  ne_nil hnil := by
    rw [String.toList_eq_nil_iff.mp hnil] at h
    exact absurd h (by decide +kernel)
  unquoted hquote := notMem_of_byte h 34 (by decide) (by decide) (List.mem_of_head? hquote)
  run c hc := by
    refine ⟨?_, ?_⟩
    · rintro rfl
      exact notMem_of_byte h 44 (by decide) (by decide) hc
    · obtain ⟨b, hb, rfl⟩ := identifier_char h hc
      exact hd b hb

/-- **The check for a duplicate name compares the labels**: it comes after the check of the name. -/
theorem checkNameBy_eq (client : Client) (hd : SpaceFree d)
    (hvalid : validateIdentifier name = .ok ()) (hselect : Follows d select) :
    checkNameBy (κ := κ) client select name = checkName client name := by
  have hbare : d.BareValue name.toList := bareValue_of_validate hd hvalid
  rw [checkName, ← selectedNames_eq ((nameMeans_iff name).mpr hbare) hselect]
  rfl

end Lookups

/-! ## What the filters mean -/

/-- **Label filters mean what the caller wrote exactly for plain keys and bare values**, and the
filter of a name exactly for a bare name. -/
theorem labelFilters_mean_iff (κ : Type) (d : Dialect) (pairs : List (String × String))
    (hkeys : ∀ pair ∈ pairs, '=' ∉ pair.1.toList) (name : String) :
    (FiltersMean κ d pairs ↔ ∀ pair ∈ pairs, d.Plain pair) ∧
      (NameMeans d name ↔ d.BareValue name.toList) :=
  ⟨filtersMean_iff hkeys, nameMeans_iff name⟩

theorem labels_found (entries : List (Sigma fun _ : String => String)) (key : String) :
    (entries.findSome? fun e =>
      if [utf8 labelsField, utf8 key.toList] = [utf8 labelsField, utf8 e.1.toList] then
        some (utf8 e.2.toList) else none) =
      (entries.dlookup key).map fun value => utf8 value.toList := by
  induction entries with
  | nil => rfl
  | cons e entries ih =>
    obtain ⟨key', value⟩ := e
    by_cases hk : key = key'
    · subst hk
      rw [List.dlookup_cons_eq, List.findSome?_cons, if_pos rfl]
      rfl
    · have hne : ¬ [utf8 labelsField, utf8 key.toList] = [utf8 labelsField, utf8 key'.toList] :=
        fun h => hk (String.toList_inj.mp (utf8_injective (List.cons.inj (List.cons.inj h).2).1))
      rw [List.dlookup_cons_ne _ _ hk, List.findSome?_cons, if_neg hne]
      exact ih

/-- Only the labels can be selected on. -/
def labelDialect (space : Char → Bool) : Dialect where
  space := space
  field _ record path := record.labels.entries.findSome? fun e =>
    if path = [utf8 labelsField, utf8 e.1.toList] then some (utf8 e.2.toList) else none
  field_label _ record key := labels_found record.labels.entries key

theorem labelFilters_mean_app :
    FiltersMean Unit (labelDialect Char.isWhitespace) [("app", "myapp"), ("env", "a=\"b\"")] ∧
      NameMeans (labelDialect Char.isWhitespace) "web-1" := by
  have hiff := labelFilters_mean_iff Unit (labelDialect Char.isWhitespace)
    [("app", "myapp"), ("env", "a=\"b\"")] (by decide) "web-1"
  refine ⟨hiff.1.mpr ?_, hiff.2.mpr ⟨by decide, by decide, forall_mem_of_all (by decide)⟩⟩
  simp only [List.forall_mem_cons]
  exact ⟨⟨forall_mem_of_all (by decide), by decide, by decide, forall_mem_of_all (by decide)⟩,
    ⟨forall_mem_of_all (by decide), by decide, by decide, forall_mem_of_all (by decide)⟩, by simp⟩

/-- A comma in a value, an empty value and a quote in a key break the request, and a blank the
filter of a name. -/
theorem labelFilters_break :
    ¬ FiltersMean Unit (labelDialect Char.isWhitespace) [("app", "x,y")] ∧
      ¬ FiltersMean Unit (labelDialect Char.isWhitespace) [("app", "")] ∧
      ¬ FiltersMean Unit (labelDialect Char.isWhitespace) [("a\"b", "x")] ∧
      ¬ NameMeans (labelDialect Char.isWhitespace) "my web" := by
  refine ⟨fun h => ?_, fun h => ?_, fun h => ?_, fun h => ?_⟩
  · have hplain := (filtersMean_iff (by decide)).mp h ("app", "x,y") List.mem_cons_self
    exact (hplain.value.run ',' (by decide)).1 rfl
  · have hplain := (filtersMean_iff (by decide)).mp h ("app", "") List.mem_cons_self
    exact hplain.value.ne_nil rfl
  · have hplain := (filtersMean_iff (by decide)).mp h ("a\"b", "x") List.mem_cons_self
    exact (hplain.key '"' (by decide)).1 rfl
  · have hbare := (nameMeans_iff "my web").mp h
    exact absurd (hbare.run ' ' (by decide)).2 (by decide)

end ContainerdManager.Task
