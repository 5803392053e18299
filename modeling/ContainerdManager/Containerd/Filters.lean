import ContainerdManager.Containerd.World
import ContainerdManager.Lib.GoString

/-!
# The filters of containerd

An entry of a list request is a conjunction of selectors `fieldpath==value`,
separated by commas. A double-quoted field or value is a Go string literal;
an unquoted value runs up to a comma or whitespace. Each relation of the
grammar is between a text, what is read off its front, and the rest.
-/

namespace ContainerdManager.Containerd

open Lib Lib.GoString

structure Selector where
  path : List (List UInt8)
  value : List UInt8
  deriving DecidableEq, Repr

/-- `labels`, the field of a container. -/
def labelsField : List Char := ['l', 'a', 'b', 'e', 'l', 's']

/-- What the grammar leaves open: what is whitespace, and what a field path finds in the container
with an id. `labels.key` finds the label `key`. -/
structure Dialect where
  space : Char → Bool
  field : String → ContainerRecord → List (List UInt8) → Option (List UInt8)
  field_label : ∀ id record (key : String),
    field id record [utf8 labelsField, utf8 key.toList] =
      (record.labels.lookup key).map fun value => utf8 value.toList

namespace Dialect

variable (d : Dialect)

/-! ## The grammar -/

/-- An unquoted field is made of letters, digits and underscores. -/
def isFieldChar (c : Char) : Bool := c.isAlphanum || c = '_'

inductive Field : List Char → List UInt8 → List Char → Prop
  | bare {name rest : List Char} (hne : name ≠ []) (hname : ∀ c ∈ name, isFieldChar c = true)
    (hrest : ∀ c ∈ rest.head?, isFieldChar c = false) : Field (name ++ rest) (utf8 name) rest
  | quoted {cs rest : List Char} {bs : List UInt8} (h : Body cs bs rest) : Field ('"' :: cs) bs rest

inductive FieldPath : List Char → List (List UInt8) → List Char → Prop
  | one {cs rest : List Char} {b : List UInt8} (h : Field cs b rest) : FieldPath cs [b] rest
  | dot {cs cs' rest : List Char} {b : List UInt8} {bs : List (List UInt8)}
    (h : Field cs b ('.' :: cs')) (hpath : FieldPath cs' bs rest) : FieldPath cs (b :: bs) rest

/-- A text that stands for itself as an unquoted value. -/
structure BareValue (value : List Char) : Prop where
  ne_nil : value ≠ []
  unquoted : value.head? ≠ some '"'
  run : ∀ c ∈ value, c ≠ ',' ∧ d.space c = false

inductive Value : List Char → List UInt8 → List Char → Prop
  | bare {run : List Char} (hrun : d.BareValue run) (rest : List Char) :
    Value (run ++ rest) (utf8 run) rest
  | quoted {cs rest : List Char} {bs : List UInt8} (h : Body cs bs rest) : Value ('"' :: cs) bs rest

inductive ReadsSelector : List Char → Selector → List Char → Prop
  | mk {cs cs' rest : List Char} {path : List (List UInt8)} {value : List UInt8}
    (hpath : FieldPath cs path ('=' :: '=' :: cs')) (hvalue : d.Value cs' value rest) :
    ReadsSelector cs ⟨path, value⟩ rest

inductive Entry : List Char → List Selector → Prop
  | last {cs : List Char} {s : Selector} (h : d.ReadsSelector cs s []) : Entry cs [s]
  | and {cs cs' : List Char} {s : Selector} {ss : List Selector}
    (h : d.ReadsSelector cs s (',' :: cs')) (hmore : Entry cs' ss) : Entry cs (s :: ss)

theorem Entry.first {cs : List Char} {ss : List Selector} (h : d.Entry cs ss) :
    ∃ s more rest, ss = s :: more ∧ d.ReadsSelector cs s rest := by
  cases h with
  | last h => exact ⟨_, [], [], rfl, h⟩
  | and h => exact ⟨_, _, _, rfl, h⟩

/-- The selectors of a request of at most one entry; no entry asks for everything. -/
inductive Request : List String → List Selector → Prop
  | all : Request [] []
  | entry {text : String} {ss : List Selector} (h : d.Entry text.toList ss) : Request [text] ss

/-- The request selects the container. -/
def Selected (request : List String) (id : String) (record : ContainerRecord) : Prop :=
  ∃ ss, d.Request request ss ∧ ∀ s ∈ ss, d.field id record s.path = some s.value

/-! ## Selectors on labels -/

/-- `labels[key] == value`. -/
def label (pair : String × String) : Selector :=
  ⟨[utf8 labelsField, utf8 pair.1.toList], utf8 pair.2.toList⟩

theorem field_label_iff (id : String) (record : ContainerRecord) (pair : String × String) :
    d.field id record (label pair).path = some (label pair).value ↔
      record.labels.lookup pair.1 = some pair.2 := by
  rw [label, d.field_label, Option.map_eq_some_iff]
  constructor
  · rintro ⟨value, hl, he⟩
    rw [hl, String.toList_inj.mp (utf8_injective he)]
  · intro hl
    exact ⟨pair.2, hl, rfl⟩

/-- The selector with a quoted key and an unquoted value. -/
def labelText (key value : List Char) : List Char :=
  labelsField ++ '.' :: '"' :: (key ++ '"' :: '=' :: '=' :: value)

theorem labelText_append (key value tail : List Char) :
    labelText key value ++ tail = labelText key (value ++ tail) := by
  simp only [labelText, List.append_assoc, List.cons_append]

/-- A run is read in one way. -/
theorem run_unique {p : Char → Bool} {xs ys xs' ys' : List Char} (hx : ∀ c ∈ xs, p c = true)
    (hy : ∀ c ∈ ys.head?, p c = false) (hx' : ∀ c ∈ xs', p c = true)
    (hy' : ∀ c ∈ ys'.head?, p c = false) (h : xs ++ ys = xs' ++ ys') : xs = xs' ∧ ys = ys' := by
  have htake : ∀ {xs ys : List Char}, (∀ c ∈ xs, p c = true) → (∀ c ∈ ys.head?, p c = false) →
      (xs ++ ys).takeWhile p = xs := by
    intro xs ys hx hy
    rw [List.takeWhile_append_of_pos hx]
    cases ys with
    | nil => rw [List.takeWhile_nil, List.append_nil]
    | cons y ys => rw [List.takeWhile_cons_of_neg (by simp [hy y rfl]), List.append_nil]
  have hxs : xs = xs' := by rw [← htake hx hy, h, htake hx' hy']
  subst hxs
  exact ⟨rfl, List.append_cancel_left h⟩

theorem Field.body {cs rest : List Char} {b : List UInt8} (h : Field ('"' :: cs) b rest) :
    Body cs b rest := by
  generalize ht : '"' :: cs = text at h
  cases h with
  | @bare name _ hne hname =>
    cases name with
    | nil => exact absurd rfl hne
    | cons c name =>
      cases ht
      exact absurd (hname '"' List.mem_cons_self) (by decide)
  | quoted hb =>
    cases ht
    exact hb

/-- Behind `labels."`, the field path goes on with a literal. -/
theorem FieldPath.labels {cs rest : List Char} {path : List (List UInt8)}
    (h : FieldPath (labelsField ++ '.' :: '"' :: cs) path ('=' :: rest)) :
    ∃ key behind, Body cs key behind ∧
      (path = [utf8 labelsField, key] ∧ behind = '=' :: rest ∨
        ∃ cs' more, behind = '.' :: cs' ∧ path = utf8 labelsField :: key :: more ∧
          FieldPath cs' more ('=' :: rest)) := by
  have hname : ∀ c ∈ labelsField, isFieldChar c = true := forall_mem_of_all (by decide)
  have hfield : ∀ {text behind : List Char} {b : List UInt8}, Field text b behind →
      text = labelsField ++ '.' :: '"' :: cs →
      b = utf8 labelsField ∧ behind = '.' :: '"' :: cs := by
    intro text behind b hf ht
    cases hf with
    | @bare name _ hne hn hr =>
      obtain ⟨rfl, rfl⟩ := run_unique hn hr hname (by simp [isFieldChar, Char.isAlphanum]) ht
      exact ⟨rfl, rfl⟩
    | quoted => cases ht
  cases h with
  | one hf =>
    obtain ⟨-, hb⟩ := hfield hf rfl
    cases hb
  | dot hf hpath =>
    obtain ⟨rfl, hb⟩ := hfield hf rfl
    obtain rfl := (List.cons.inj hb).2
    cases hpath with
    | one hf => exact ⟨_, _, hf.body, .inl ⟨rfl, rfl⟩⟩
    | dot hf hpath => exact ⟨_, _, hf.body, .inr ⟨_, _, rfl, rfl, hpath⟩⟩

/-! ## Weights

What a selector stands for weighs no more than its text. -/

variable {d}

theorem Field.size_le {cs rest : List Char} {b : List UInt8} (h : Field cs b rest) :
    weight b + size rest ≤ size cs := by
  cases h with
  | bare => exact Nat.le_of_eq (size_append _ _).symm
  | quoted hb => exact Nat.le_trans hb.size_le (Nat.le_of_eq (size_quote _).symm)

/-- Each field with a byte for what follows it. -/
def pathWeight : List (List UInt8) → Nat
  | [] => 0
  | b :: bs => weight b + 1 + pathWeight bs

theorem FieldPath.size_le {cs rest : List Char} {bs : List (List UInt8)}
    (h : FieldPath cs bs rest) : pathWeight bs + size rest ≤ size cs + 1 := by
  induction h with
  | one hf =>
    have := hf.size_le
    simp only [pathWeight]
    omega
  | dot hf _ ih =>
    have := hf.size_le
    rw [size_cons_one (by decide)] at this
    simp only [pathWeight]
    omega

theorem Value.size_le {cs rest : List Char} {bs : List UInt8} (h : d.Value cs bs rest) :
    weight bs + size rest ≤ size cs := by
  cases h with
  | bare => exact Nat.le_of_eq (size_append _ _).symm
  | quoted hb => exact Nat.le_trans hb.size_le (Nat.le_of_eq (size_quote _).symm)

def entryWeight : List Selector → Nat
  | [] => 0
  | s :: ss => pathWeight s.path + 1 + weight s.value + 1 + entryWeight ss

theorem ReadsSelector.size_le {cs rest : List Char} {s : Selector} (h : d.ReadsSelector cs s rest) :
    pathWeight s.path + 1 + weight s.value + size rest ≤ size cs := by
  cases h with
  | mk hpath hvalue =>
    have hp := hpath.size_le
    have hv := hvalue.size_le
    rw [size_cons_one (by decide), size_cons_one (by decide)] at hp
    dsimp only
    omega

theorem Entry.size_le {cs : List Char} {ss : List Selector} (h : d.Entry cs ss) :
    entryWeight ss ≤ size cs + 1 := by
  induction h with
  | last hs =>
    have := hs.size_le
    simp only [entryWeight]
    omega
  | and hs _ ih =>
    have := hs.size_le
    rw [size_cons_one (by decide)] at this
    simp only [entryWeight]
    omega

theorem size_labelText (key value : List Char) :
    size (labelText key value) = 9 + size key + size value := by
  have hlabels : size labelsField = 6 := by decide
  have hdot := size_cons_one (c := '.') (by decide)
  have heq := size_cons_one (c := '=') (by decide)
  simp only [labelText, size_append, size_quote, hlabels, hdot, heq]
  omega

/-! ## The text of a selector on a label -/

/-- A pair whose text is the selector on its label. -/
structure Plain (pair : String × String) : Prop where
  key : ∀ c ∈ pair.1.toList, PlainChar c
  value : d.BareValue pair.2.toList

theorem readsSelector_iff {key : List Char} (hkey : ∀ c ∈ key, PlainChar c) {value : List Char}
    {s : Selector} {rest : List Char} :
    d.ReadsSelector (labelText key value) s rest ↔
      ∃ bs, s = ⟨[utf8 labelsField, utf8 key], bs⟩ ∧ d.Value value bs rest := by
  constructor
  · intro h
    cases h with
    | mk hpath hvalue =>
      obtain ⟨bs, behind, hb, hcases⟩ := hpath.labels
      obtain ⟨rfl, rfl⟩ := hb.eq_of_plain hkey
      rcases hcases with ⟨rfl, hrest⟩ | ⟨cs', more, hdot, -⟩
      · cases hrest
        exact ⟨_, rfl, hvalue⟩
      · cases hdot
  · rintro ⟨bs, rfl, hvalue⟩
    have hlabels : Field (labelsField ++ '.' :: '"' :: (key ++ '"' :: '=' :: '=' :: value))
        (utf8 labelsField) ('.' :: '"' :: (key ++ '"' :: '=' :: '=' :: value)) :=
      .bare (by decide) (forall_mem_of_all (by decide)) (by simp [isFieldChar, Char.isAlphanum])
    exact .mk (.dot hlabels (.one (.quoted (body_plain hkey _)))) hvalue

/-- A value that stands for itself is read in one way. -/
theorem Value.eq_of_bare {value tail rest : List Char} {bs : List UInt8} (hv : d.BareValue value)
    (htail : ∀ c ∈ tail.head?, c = ',') (hrest : ∀ c ∈ rest.head?, c = ',')
    (h : d.Value (value ++ tail) bs rest) : bs = utf8 value ∧ rest = tail := by
  have hrun : ∀ {run : List Char}, d.BareValue run →
      ∀ c ∈ run, decide (c ≠ ',' ∧ d.space c = false) = true :=
    fun hb c hc => decide_eq_true (hb.run c hc)
  have hstop : ∀ {tail : List Char}, (∀ c ∈ tail.head?, c = ',') →
      ∀ c ∈ tail.head?, decide (c ≠ ',' ∧ d.space c = false) = false :=
    fun ht c hc => decide_eq_false fun hne => hne.1 (ht c hc)
  generalize ht : value ++ tail = text at h
  cases h with
  | bare hb =>
    obtain ⟨rfl, rfl⟩ := run_unique (hrun hv) (hstop htail) (hrun hb) (hstop hrest) ht
    exact ⟨rfl, rfl⟩
  | quoted =>
    cases value with
    | nil => exact absurd rfl hv.ne_nil
    | cons c value =>
      cases ht
      exact absurd rfl hv.unquoted

/-! ## A label read back

A text that is read as what it was made from, and leaves no less behind,
has neither escapes nor another quotation. -/

theorem FieldPath.plain_of_le {key after rest : List Char}
    (hsize : size after ≤ size ('=' :: rest))
    (h : FieldPath (labelsField ++ '.' :: '"' :: (key ++ '"' :: after))
      [utf8 labelsField, utf8 key] ('=' :: rest)) :
    (∀ c ∈ key, PlainChar c) ∧ '=' :: rest = after := by
  obtain ⟨bs, behind, hb, ⟨hp, rfl⟩ | ⟨cs', more, -, hp, hmore⟩⟩ := h.labels
  · obtain rfl := (List.cons.inj (List.cons.inj hp).2).1
    rcases hb.plain_or_lt with ⟨body, hbody, htext, hbytes⟩ | hlt
    · obtain rfl := utf8_injective hbytes
      exact ⟨hbody, (List.cons.inj (List.append_cancel_left htext)).2.symm⟩
    · rw [size_append, size_quote, weight_utf8] at hlt
      omega
  · cases hmore <;> cases hp

theorem Value.bare_of_le {value tail rest : List Char} (htail : ∀ c ∈ tail.head?, c = ',')
    (hsize : size tail ≤ size rest) (h : d.Value (value ++ tail) (utf8 value) rest) :
    d.BareValue value ∧ rest = tail := by
  generalize htext : value ++ tail = text at h
  generalize hbytes : utf8 value = bytes at h
  cases h with
  | bare hrun =>
    obtain rfl := utf8_injective hbytes
    exact ⟨hrun, (List.append_cancel_left htext).symm⟩
  | @quoted cs _ _ hb =>
    exfalso
    rcases hb.plain_or_lt with ⟨body, hbody, rfl, hbody'⟩ | hlt
    -- a value without quotes cannot begin with one, nor can what follows it
    · obtain rfl := utf8_injective (hbytes.trans hbody')
      cases value with
      | nil =>
        rw [List.nil_append] at htext
        exact absurd (htail '"' (by rw [htext]; rfl)) (by decide)
      | cons c value => exact (hbody c List.mem_cons_self).1 (List.cons.inj htext).1
    · have htextsize := congrArg size htext
      rw [size_append, size_quote] at htextsize
      rw [← hbytes, weight_utf8] at hlt
      omega

/-- **A text read as the selector on its label is plain**, when nothing behind it is lost. -/
theorem ReadsSelector.plain {pair : String × String} {tail rest : List Char}
    (htail : ∀ c ∈ tail.head?, c = ',') (hsize : size tail ≤ size rest)
    (h : d.ReadsSelector (labelText pair.1.toList (pair.2.toList ++ tail)) (label pair) rest) :
    d.Plain pair ∧ rest = tail := by
  generalize hs : label pair = s at h
  cases h with
  | @mk cs' _ _ _ hpath hvalue =>
    cases hs
    have hafter : size ('=' :: '=' :: (pair.2.toList ++ tail)) ≤ size ('=' :: '=' :: cs') := by
      have hvsize := hvalue.size_le
      rw [weight_utf8] at hvsize
      simp only [size_cons, size_append]
      omega
    obtain ⟨hkey, hcs⟩ := hpath.plain_of_le hafter
    cases hcs
    obtain ⟨hbare, rfl⟩ := hvalue.bare_of_le htail hsize
    exact ⟨⟨hkey, hbare⟩, rfl⟩

/-! ## Entries of labels -/

/-- The conjunction of the selectors on the labels. -/
def labelEntry (pair : String × String) : List (String × String) → List Char
  | [] => labelText pair.1.toList pair.2.toList
  | next :: pairs => labelText pair.1.toList pair.2.toList ++ ',' :: labelEntry next pairs

theorem size_labelEntry (pair : String × String) (pairs : List (String × String)) :
    entryWeight ((pair :: pairs).map label) = size (labelEntry pair pairs) + 1 := by
  have hlabels : weight (utf8 labelsField) = 6 := by decide
  induction pairs generalizing pair with
  | nil =>
    rw [labelEntry, size_labelText]
    simp only [List.map_cons, List.map_nil, entryWeight, label, pathWeight, hlabels, weight_utf8]
    omega
  | cons next pairs ih =>
    rw [List.map_cons, entryWeight, ih, labelEntry, size_append, size_labelText,
      size_cons_one (by decide)]
    simp only [label, pathWeight, hlabels, weight_utf8]
    omega

/-- A plain label is read in one way. -/
theorem Plain.reads_iff {pair : String × String} (hp : d.Plain pair) {tail rest : List Char}
    (htail : ∀ c ∈ tail.head?, c = ',') (hrest : ∀ c ∈ rest.head?, c = ',') {s : Selector} :
    d.ReadsSelector (labelText pair.1.toList (pair.2.toList ++ tail)) s rest ↔
      s = label pair ∧ rest = tail := by
  rw [readsSelector_iff hp.key]
  constructor
  · rintro ⟨bs, rfl, hvalue⟩
    obtain ⟨rfl, rfl⟩ := hvalue.eq_of_bare hp.value htail hrest
    exact ⟨rfl, rfl⟩
  · rintro ⟨rfl, rfl⟩
    exact ⟨_, rfl, .bare hp.value _⟩

/-- **An entry of plain labels means what it says**, and nothing else. -/
theorem entry_iff_of_plain {pair : String × String} {pairs : List (String × String)}
    (h : ∀ q ∈ pair :: pairs, d.Plain q) (ss : List Selector) :
    d.Entry (labelEntry pair pairs) ss ↔ ss = (pair :: pairs).map label := by
  induction pairs generalizing pair ss with
  | nil =>
    have hp := h pair List.mem_cons_self
    rw [labelEntry, ← List.append_nil pair.2.toList]
    constructor
    · intro he
      cases he with
      | last hs =>
        obtain ⟨rfl, -⟩ := (hp.reads_iff (by simp) (by simp)).mp hs
        rfl
      | and hs => cases ((hp.reads_iff (by simp) (by simp)).mp hs).2
    · rintro rfl
      exact .last ((hp.reads_iff (by simp) (by simp)).mpr ⟨rfl, rfl⟩)
  | cons next pairs ih =>
    have hp := h pair List.mem_cons_self
    have ih := ih fun q hq => h q (List.mem_cons_of_mem pair hq)
    rw [labelEntry, labelText_append]
    constructor
    · intro he
      cases he with
      | last hs => cases ((hp.reads_iff (by simp) (by simp)).mp hs).2
      | and hs hmore =>
        obtain ⟨rfl, hrest⟩ := (hp.reads_iff (by simp) (by simp)).mp hs
        cases hrest
        rw [(ih _).mp hmore]
        rfl
    · rintro rfl
      exact .and ((hp.reads_iff (by simp) (by simp)).mpr ⟨rfl, rfl⟩) ((ih _).mpr rfl)

/-- **Labels read back from their entry are plain.** -/
theorem plain_of_entry {pair : String × String} {pairs : List (String × String)}
    (h : d.Entry (labelEntry pair pairs) ((pair :: pairs).map label)) :
    ∀ q ∈ pair :: pairs, d.Plain q := by
  induction pairs generalizing pair with
  | nil =>
    rw [labelEntry, ← List.append_nil pair.2.toList] at h
    cases h with
    | last hs => exact List.forall_mem_singleton.mpr (hs.plain (by simp) (Nat.zero_le _)).1
    | and _ hmore => cases hmore
  | cons next pairs ih =>
    rw [labelEntry, labelText_append] at h
    cases h with
    | and hs hmore =>
      -- what is left is no lighter than the other labels
      have hweight := size_labelEntry next pairs
      have hle := hmore.size_le
      obtain ⟨hp, hrest⟩ := hs.plain (by simp) (by
        simp only [size_cons]
        omega)
      cases hrest
      exact List.forall_mem_cons.mpr ⟨hp, ih hmore⟩

end Dialect

end ContainerdManager.Containerd
