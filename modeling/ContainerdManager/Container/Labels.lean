import ContainerdManager.Container.Spec
import ContainerdManager.Lib.Decimal

/-!
# Labels of a container record

The labels `create_container_with_id` writes and what is read back from
them: port bindings (`src/port_forward.rs`), the network mode and the
managed labels (`src/snapshot_util.rs`), and the last octet of a bridge IP
(`src/bridge.rs`).
-/

namespace ContainerdManager.Container

open Containerd Lib

/-! ## Numbers in labels -/

/-- The bytes of a text; a character outside ASCII is no digit. -/
def asciiBytes (cs : List Char) : List UInt8 :=
  cs.map fun c => if c.toNat < 128 then UInt8.ofNat c.toNat else 255

/-- `str::parse::<u16>`. -/
def parseU16 (cs : List Char) : Option UInt16 :=
  (parseUint 0x10000 (asciiBytes cs)).map UInt16.ofNat

/-- `u16::to_string`. -/
def portText (port : UInt16) : String := toString port.toNat

theorem portText_toList (port : UInt16) : (portText port).toList = Nat.toDigits 10 port.toNat := by
  simp [portText, toString, Nat.repr]

theorem asciiBytes_digits (n : Nat) : asciiBytes (Nat.toDigits 10 n) = decimal n := by
  refine List.map_congr_left fun c hc => ?_
  have hd := isDigit_decimal hc
  simp only [Char.isDigit, Bool.and_eq_true, decide_eq_true_eq, UInt32.le_iff_toNat_le] at hd
  have h2 : c.toNat ≤ 57 := hd.2
  rw [if_pos (by omega)]

theorem parseU16_portText (port : UInt16) : parseU16 (portText port).toList = some port := by
  rw [portText_toList, parseU16, asciiBytes_digits, parseUint_decimal port.toNat_lt]
  simp

/-! ## Port bindings -/

/-- `key.strip_prefix(PORT_BINDING_LABEL_PREFIX)`. -/
def stripPortLabel (key : String) : Option (List Char) :=
  if portBindingLabel.toList.isPrefixOf key.toList then
    some (key.toList.drop portBindingLabel.toList.length)
  else none

/-- The label of a binding for `containerPort`. -/
def portLabel (containerPort : UInt16) : String := portBindingLabel ++ portText containerPort

/-- The binding a label stands for, as `(host_port, container_port)`. -/
def portBinding (key value : String) : Option (UInt16 × UInt16) := do
  let containerPort ← (stripPortLabel key).bind parseU16
  let hostPort ← parseU16 value.toList
  return (hostPort, containerPort)

def parsePortBindingLabels (labels : Labels) : List (UInt16 × UInt16) :=
  labels.entries.filterMap fun e => portBinding e.1 e.2

theorem stripPortLabel_portLabel (port : UInt16) :
    stripPortLabel (portLabel port) = some (portText port).toList := by
  have hp : portBindingLabel.toList.isPrefixOf (portLabel port).toList = true := by
    rw [List.isPrefixOf_iff_prefix, portLabel, String.toList_append]
    exact List.prefix_append _ _
  rw [stripPortLabel, if_pos hp, portLabel, String.toList_append, List.drop_left]

theorem portBinding_label (hostPort containerPort : UInt16) :
    portBinding (portLabel containerPort) (portText hostPort) = some (hostPort, containerPort) := by
  simp [portBinding, stripPortLabel_portLabel, parseU16_portText]

theorem portLabel_injective {a b : UInt16} (h : portLabel a = portLabel b) : a = b := by
  have hs := congrArg stripPortLabel h
  rw [stripPortLabel_portLabel, stripPortLabel_portLabel] at hs
  have ht := congrArg parseU16 (Option.some.inj hs)
  rw [parseU16_portText, parseU16_portText] at ht
  exact Option.some.inj ht

/-! ## Managed labels -/

/-- `network_from_labels`: anything but `host` counts as bridge. -/
def networkFromLabels (labels : Labels) : NetworkMode :=
  if labels.lookup networkModeLabel = some "host" then .host else .bridge

/-- Labels regenerated by `create_container`. -/
def isManagedLabel (key : String) : Bool :=
  key = networkModeLabel || key = bridgeIpLabel || portBindingLabel.toList.isPrefixOf key.toList

/-- The labels of a name. -/
def nameLabels : List String := [nameLabel, "nerdctl/name", "nerdctl/namespace"]

/-- The labels written beside the port labels are apart from these and from each other. -/
theorem labels_apart : nameLabels.Nodup ∧
    (∀ key ∈ nameLabels, stripPortLabel key = none ∧ isManagedLabel key = false) ∧
    stripPortLabel networkModeLabel = none ∧ stripPortLabel bridgeIpLabel = none ∧
    bridgeIpLabel ≠ networkModeLabel := by
  decide +kernel

theorem stripPortLabel_name (key : String) (h : key ∈ nameLabels) : stripPortLabel key = none :=
  (labels_apart.2.1 key h).1

theorem isManagedLabel_name (key : String) (h : key ∈ nameLabels) : isManagedLabel key = false :=
  (labels_apart.2.1 key h).2

theorem stripPortLabel_mode : stripPortLabel networkModeLabel = none := labels_apart.2.2.1

theorem stripPortLabel_bridgeIp : stripPortLabel bridgeIpLabel = none := labels_apart.2.2.2.1

theorem bridgeIpLabel_ne_mode : bridgeIpLabel ≠ networkModeLabel := labels_apart.2.2.2.2

theorem isManagedLabel_mode : isManagedLabel networkModeLabel = true := by simp [isManagedLabel]

theorem isManagedLabel_bridgeIp : isManagedLabel bridgeIpLabel = true := by simp [isManagedLabel]

theorem not_mem_nameLabels {key : String} (h : isManagedLabel key = true) : key ∉ nameLabels := by
  intro hm
  rw [isManagedLabel_name key hm] at h
  cases h

/-! ## Bridge IPs -/

/-- One decimal group of an IPv4 address: one to three digits, no leading zero, at most 255. -/
def readOctet (cs : List Char) : Option Nat :=
  if 1 ≤ cs.length ∧ cs.length ≤ 3 ∧ (cs.head? = some '0' → cs.length = 1) then
    parseDigits 256 0 (asciiBytes cs)
  else none

/-- The last octet of a dotted address. -/
def lastOctet (cs : List Char) : Option Nat :=
  match cs.splitOn '.' with
  | [a, b, c, d] => do
    let _ ← readOctet a
    let _ ← readOctet b
    let _ ← readOctet c
    readOctet d
  | _ => none

/-- `Ipv4Addr::from_str(ip).ok().map(|a| a.octets()[3])`. -/
def parseOctet (ip : String) : Option Nat := lastOctet ip.toList

/-- The IP for an octet. -/
def bridgeIp (octet : Nat) : String := containerSubnet ++ "." ++ toString octet

theorem parseOctet_bridgeIp {octet : Nat} (h : octet < 256) :
    parseOctet (bridgeIp octet) = some octet := by
  have hall : ∀ o < 256,
      lastOctet ("10.88.1.".toList ++ Nat.toDigits 10 o) = some o := by decide +kernel
  have hlist : (bridgeIp octet).toList = "10.88.1.".toList ++ Nat.toDigits 10 octet := by
    simp [bridgeIp, containerSubnet, toString, Nat.repr]
  rw [parseOctet, hlist, hall octet h]

/-! ## The labels of a new record -/

/-- The port labels on top of `labels`. -/
def withPorts (pairs : List (UInt16 × UInt16)) (labels : Labels) : Labels :=
  pairs.foldl (fun labels pair => labels.insert (portLabel pair.2) (portText pair.1)) labels

/-- The labels written by `create_container_with_id`. -/
def containerLabels (namespace_ name : String) (image : ImageConfiguration)
    (opts : CreateContainerOpts) (ip : Option String) (pairs : List (UInt16 × UInt16)) : Labels :=
  let labels := (buildLabels image opts).insert networkModeLabel opts.network.labelValue
  let labels := match ip with
    | some ip => labels.insert bridgeIpLabel ip
    | none => labels
  (((withPorts pairs labels).insert nameLabel name).insert "nerdctl/name" name).insert
    "nerdctl/namespace" namespace_

theorem portLabel_ne {key : String} (h : stripPortLabel key = none) (port : UInt16) :
    key ≠ portLabel port := by
  rintro rfl
  rw [stripPortLabel_portLabel] at h
  cases h

theorem lookup_withPorts_other {key : String} (h : stripPortLabel key = none)
    (pairs : List (UInt16 × UInt16)) (labels : Labels) :
    (withPorts pairs labels).lookup key = labels.lookup key := by
  induction pairs generalizing labels with
  | nil => rfl
  | cons pair pairs ih =>
    exact (ih _).trans (AList.lookup_insert_ne (portLabel_ne h pair.2))

/-- With distinct container ports every pair keeps its label. -/
theorem lookup_withPorts {pairs : List (UInt16 × UInt16)} (hd : (pairs.map Prod.snd).Nodup)
    {pair : UInt16 × UInt16} (hp : pair ∈ pairs) (labels : Labels) :
    (withPorts pairs labels).lookup (portLabel pair.2) = some (portText pair.1) := by
  induction pairs generalizing labels with
  | nil => cases hp
  | cons q pairs ih =>
    rw [List.map_cons, List.nodup_cons] at hd
    rcases List.mem_cons.mp hp with rfl | hp
    · -- no later pair has the same container port
      have hkeep : ∀ (ps : List (UInt16 × UInt16)) (m : Labels), pair.2 ∉ ps.map Prod.snd →
          (withPorts ps m).lookup (portLabel pair.2) = m.lookup (portLabel pair.2) := by
        intro ps
        induction ps with
        | nil => exact fun _ _ => rfl
        | cons r ps ihp =>
          intro m hm
          rw [List.map_cons, List.mem_cons, not_or] at hm
          refine (ihp _ hm.2).trans (AList.lookup_insert_ne fun e => hm.1 (portLabel_injective e))
      exact (hkeep pairs _ hd.1).trans (AList.lookup_insert _)
    · exact ih hd.2 hp _

section Lookup

variable (namespace_ name : String) (image : ImageConfiguration) (opts : CreateContainerOpts)
  (ip : Option String) (pairs : List (UInt16 × UInt16))

/-- A label that is neither a name nor a port of the new record. -/
theorem lookup_containerLabels {key : String} (h : stripPortLabel key = none)
    (hkey : key ∉ nameLabels) :
    (containerLabels namespace_ name image opts ip pairs).lookup key =
      match ip with
      | some ip => (((buildLabels image opts).insert networkModeLabel
          opts.network.labelValue).insert
          bridgeIpLabel ip).lookup key
      | none => ((buildLabels image opts).insert networkModeLabel opts.network.labelValue).lookup
          key := by
  simp only [nameLabels, List.mem_cons, List.not_mem_nil, or_false, not_or] at hkey
  unfold containerLabels
  rw [AList.lookup_insert_ne hkey.2.2, AList.lookup_insert_ne hkey.2.1,
    AList.lookup_insert_ne hkey.1,
    lookup_withPorts_other h]
  cases ip <;> rfl

theorem lookup_mode :
    (containerLabels namespace_ name image opts ip pairs).lookup networkModeLabel =
    some opts.network.labelValue := by
  rw [lookup_containerLabels namespace_ name image opts ip pairs stripPortLabel_mode
    (not_mem_nameLabels isManagedLabel_mode)]
  cases ip with
  | none => exact AList.lookup_insert _
  | some ip =>
    exact (AList.lookup_insert_ne bridgeIpLabel_ne_mode.symm).trans (AList.lookup_insert _)

theorem lookup_bridgeIp (octetIp : String) :
    (containerLabels namespace_ name image opts (some octetIp) pairs).lookup bridgeIpLabel =
      some octetIp := by
  rw [lookup_containerLabels namespace_ name image opts _ pairs stripPortLabel_bridgeIp
    (not_mem_nameLabels isManagedLabel_bridgeIp)]
  exact AList.lookup_insert _

theorem lookup_name : (containerLabels namespace_ name image opts ip pairs).lookup nameLabel =
    some name := by
  have hapart := labels_apart.1
  simp only [nameLabels, List.nodup_cons, List.mem_cons, List.not_mem_nil, or_false, not_or]
    at hapart
  unfold containerLabels
  rw [AList.lookup_insert_ne hapart.1.2, AList.lookup_insert_ne hapart.1.1, AList.lookup_insert]

theorem lookup_port (hd : (pairs.map Prod.snd).Nodup) {pair : UInt16 × UInt16} (hp : pair ∈ pairs) :
    (containerLabels namespace_ name image opts ip pairs).lookup (portLabel pair.2) =
      some (portText pair.1) := by
  have hne (key : String) (h : key ∈ nameLabels) : portLabel pair.2 ≠ key :=
    (portLabel_ne (stripPortLabel_name key h) pair.2).symm
  unfold containerLabels
  rw [AList.lookup_insert_ne (hne _ (by simp [nameLabels])),
    AList.lookup_insert_ne (hne _ (by simp [nameLabels])),
    AList.lookup_insert_ne (hne _ (by simp [nameLabels])), lookup_withPorts hd hp]

end Lookup

/-- When the port labels of a record are those of `pairs`, the bindings read back are `pairs`. -/
theorem mem_parsePortBindingLabels {labels : Labels} {pairs : List (UInt16 × UInt16)}
    (honly : ∀ key ∈ labels, (stripPortLabel key).isSome → ∃ pair ∈ pairs, key = portLabel pair.2)
    (hall : ∀ pair ∈ pairs, labels.lookup (portLabel pair.2) = some (portText pair.1))
    (pair : UInt16 × UInt16) : pair ∈ parsePortBindingLabels labels ↔ pair ∈ pairs := by
  constructor
  · intro h
    obtain ⟨⟨key, value⟩, hmem, hb⟩ := List.mem_filterMap.mp h
    have hlook : labels.lookup key = some value := AList.mem_lookup_iff.mpr hmem
    have hkey : key ∈ labels := AList.lookup_isSome.mp (by rw [hlook]; rfl)
    have hstrip : (stripPortLabel key).isSome := by
      cases hs : stripPortLabel key with
      | none => simp [portBinding, hs] at hb
      | some cs => rfl
    obtain ⟨q, hq, rfl⟩ := honly key hkey hstrip
    rw [hall q hq] at hlook
    cases hlook
    have hqp : some q = some pair := (portBinding_label q.1 q.2).symm.trans hb
    cases hqp
    exact hq
  · intro hp
    exact List.mem_filterMap.mpr ⟨⟨portLabel pair.2, portText pair.1⟩,
      AList.mem_lookup_iff.mp (hall pair hp), portBinding_label pair.1 pair.2⟩

end ContainerdManager.Container
