import ContainerdManager.Container.Grammar
import ContainerdManager.Container.Hooks
import ContainerdManager.Lib.Template

/-!
# What a caller can put into a hook script

The scripts of `src/bridge.rs` as templates over the namespace and the
container id, so that it is known which characters of a script come from
these. The id passes `validate_identifier`; the namespace only has to be a
gRPC metadata value, and goes into the scripts between double quotes.
`scriptsSafe_iff` says for which namespaces this is safe.
-/

namespace ContainerdManager.Container

open Lib

/-! ## The scripts as templates -/

/-- What the hook scripts interpolate; the interface name is made from the id. -/
inductive HookHole where
  | namespace_
  | containerId
  | veth
  deriving DecidableEq, Repr

def hookValues (namespace_ id : String) : HookHole → String
  | .namespace_ => namespace_
  | .containerId => id
  | .veth => vethName id

def nerdctlDirTemplate : Template HookHole :=
  .text "/var/lib/nerdctl/1935db59/containers/" ++ .hole .namespace_ ++ .text "/" ++
    .hole .containerId

def nerdctlTemplate (pairs : List (UInt16 × UInt16)) : Template HookHole :=
  if pairs.isEmpty then []
  else
    .text "\n# nerdctl compat: write port-mapping config so `nerdctl ps` shows PORTS.\n" ++
    .text "NERDCTL_DIR=\"" ++ nerdctlDirTemplate ++ .text "\"\n" ++
    .text "mkdir -p \"$NERDCTL_DIR\" 2>/dev/null && chmod 700 \"$NERDCTL_DIR\" 2>/dev/null || true\n" ++
    .text "cat > \"$NERDCTL_DIR/network-config.json\" 2>/dev/null <<'NERDCTL_EOF' || true\n" ++
    .text "\x7b\"portMappings\":[" ++ .text (String.intercalate "," (pairs.map portMapping)) ++
    .text "]\x7d\n" ++
    .text "NERDCTL_EOF\n" ++
    .text "chmod 600 \"$NERDCTL_DIR/network-config.json\" 2>/dev/null || true\n"

def prestartTemplate (ip : String) (pairs : List (UInt16 × UInt16)) : Template HookHole :=
  .text "\nSTATE=$(cat)\n" ++
  .text "CONTAINER_PID=$(echo \"$STATE\" | python3 -c \"import sys,json; d=json.load(sys.stdin); print(d.get('pid',0))\")\n" ++
  .text "HOST_VETH=\"" ++ .hole .veth ++ .text "\"\n" ++
  .text "BRIDGE=\"" ++ .text bridgeName ++ .text "\"\n" ++
  .text "GATEWAY=\"" ++ .text bridgeGateway ++ .text "\"\n" ++
  .text "CONTAINER_IP=\"" ++ .text ip ++ .text "\"\n\n" ++
  .text "ip link show \"$BRIDGE\" >/dev/null 2>&1 || ip link add \"$BRIDGE\" type bridge\n" ++
  .text "ip addr add \"$GATEWAY/16\" dev \"$BRIDGE\" 2>/dev/null || true\n" ++
  .text "ip link set \"$BRIDGE\" up\n\n" ++
  .text "# `netns` option places the peer in the container's netns directly, so 'eth0'\n" ++
  .text "# never appears in the host namespace (which would conflict with the VM NIC).\n" ++
  .text "ip link add \"$HOST_VETH\" type veth peer name eth0 netns /proc/$CONTAINER_PID/ns/net\n" ++
  .text "ip link set \"$HOST_VETH\" master \"$BRIDGE\"\n" ++
  .text "ip link set \"$HOST_VETH\" up\n\n" ++
  .text "nsenter --net=/proc/$CONTAINER_PID/ns/net ip addr add \"$CONTAINER_IP/16\" dev eth0\n" ++
  .text "nsenter --net=/proc/$CONTAINER_PID/ns/net ip link set eth0 up\n" ++
  .text "nsenter --net=/proc/$CONTAINER_PID/ns/net ip link set lo up\n" ++
  .text "nsenter --net=/proc/$CONTAINER_PID/ns/net ip route add default via \"$GATEWAY\" 2>/dev/null || true\n\n" ++
  .text "sysctl -w net.ipv4.ip_forward=1 >/dev/null\n" ++
  .text "iptables -t nat -C POSTROUTING -s 10.88.0.0/16 ! -d 10.88.0.0/16 -j MASQUERADE 2>/dev/null || \\\n" ++
  .text "  iptables -t nat -A POSTROUTING -s 10.88.0.0/16 ! -d 10.88.0.0/16 -j MASQUERADE\n" ++
  nerdctlTemplate pairs

def pidFileTemplate (containerPort : UInt16) : Template HookHole :=
  .text "/tmp/socat-" ++ .hole .containerId ++ .text "-" ++ .text (portText containerPort) ++
    .text ".pid"

def logFileTemplate (containerPort : UInt16) : Template HookHole :=
  .text "/tmp/socat-" ++ .hole .containerId ++ .text "-" ++ .text (portText containerPort) ++
    .text ".log"

/-- The lines after the one that starts the forwarder. -/
def socatTemplates (port : UInt16 × UInt16) : List (Template HookHole) :=
  let pidFile := pidFileTemplate port.1
  let logFile := logFileTemplate port.1
  [Template.text "  >" ++ logFile ++ Template.text " 2>&1 &",
    Template.text "SOCAT_PID=$!",
    Template.text "echo $SOCAT_PID > " ++ pidFile,
    Template.text "# Give socat a moment to fail-fast on exec / bind errors.",
    Template.text "sleep 0.1",
    Template.text "if ! kill -0 $SOCAT_PID 2>/dev/null; then",
    Template.text "echo \"poststart: socat $SOCAT_PID exited (port " ++ Template.text (portText port.2) ++
      Template.text ")\" >&2",
    Template.text "cat " ++ logFile ++ Template.text " >&2 2>/dev/null || true",
    Template.text "rm -f " ++ pidFile,
    Template.text "exit 1",
    Template.text "fi"]

def poststartTemplate (ip : String) (ports : List (UInt16 × UInt16)) : Template HookHole :=
  Template.text "\n" ++ (ports.flatMap fun port =>
    Template.text (socatLine ip port) :: socatTemplates port).flatMap
    (· ++ Template.text "\n")

def poststopPortTemplate (containerPort : UInt16) : Template HookHole :=
  let pidFile := pidFileTemplate containerPort
  .text "SOCAT_PID=$(cat " ++ pidFile ++ .text " 2>/dev/null || echo)\n" ++
  .text "if [ -n \"$SOCAT_PID\" ]; then\n" ++
  .text "kill $SOCAT_PID 2>/dev/null || true\n" ++
  .text "for i in 1 2 3 4 5; do\n" ++
  .text "kill -0 $SOCAT_PID 2>/dev/null || break\n" ++
  .text "sleep 0.1\n" ++
  .text "done\n" ++
  .text "kill -9 $SOCAT_PID 2>/dev/null || true\n" ++
  .text "fi\n" ++
  .text "rm -f " ++ pidFile ++ .text " " ++ logFileTemplate containerPort ++ .text "\n"

def poststopTemplate (ports : List (UInt16 × UInt16)) : Template HookHole :=
  .text "\n" ++ ports.flatMap (fun port => poststopPortTemplate port.1) ++
    .text "ip link delete \"" ++ .hole .veth ++ .text "\" 2>/dev/null || true\n" ++
    .text "rm -rf \"" ++ nerdctlDirTemplate ++ .text "\" 2>/dev/null || true\n"

/-! ## They are the templates of the scripts -/

section fill

variable (namespace_ id ip : String)

theorem nerdctlDir_eq_fill :
    nerdctlDir namespace_ id = nerdctlDirTemplate.fill (hookValues namespace_ id) := by
  unfold nerdctlDir nerdctlDirTemplate
  simp only [Template.fill_append, Template.fill_text, Template.fill_hole, hookValues]

theorem nerdctlNetworkConfigScript_eq_fill (pairs : List (UInt16 × UInt16)) :
    nerdctlNetworkConfigScript namespace_ id pairs =
      (nerdctlTemplate pairs).fill (hookValues namespace_ id) := by
  unfold nerdctlNetworkConfigScript nerdctlTemplate
  rw [nerdctlDir_eq_fill]
  by_cases h : pairs.isEmpty
  · rw [if_pos h, if_pos h, Template.fill_nil]
  · simp only [if_neg h, Template.fill_append, Template.fill_text]

theorem prestart_eq_fill (pairs : List (UInt16 × UInt16)) :
    prestartHookScript ip id namespace_ pairs =
      (prestartTemplate ip pairs).fill (hookValues namespace_ id) := by
  unfold prestartHookScript prestartTemplate
  rw [nerdctlNetworkConfigScript_eq_fill]
  simp only [Template.fill_append, Template.fill_text, Template.fill_hole, hookValues]

theorem socatPidFile_eq_fill (containerPort : UInt16) :
    socatPidFile id containerPort =
      (pidFileTemplate containerPort).fill (hookValues namespace_ id) := by
  simp only [socatPidFile, pidFileTemplate, Template.fill_append, Template.fill_text,
    Template.fill_hole, hookValues]

theorem socatLogFile_eq_fill (containerPort : UInt16) :
    socatLogFile id containerPort =
      (logFileTemplate containerPort).fill (hookValues namespace_ id) := by
  simp only [socatLogFile, logFileTemplate, Template.fill_append, Template.fill_text,
    Template.fill_hole, hookValues]

theorem socatRest_eq_fill (port : UInt16 × UInt16) :
    socatRest id port = (socatTemplates port).map (Template.fill (hookValues namespace_ id)) := by
  simp only [socatRest, socatTemplates, List.map_cons, List.map_nil, Template.fill_append,
    Template.fill_text, socatPidFile_eq_fill namespace_, socatLogFile_eq_fill namespace_]

theorem unlines_fill (ts : List (Template HookHole)) :
    unlines (ts.map (Template.fill (hookValues namespace_ id))) =
      Template.fill (hookValues namespace_ id) (ts.flatMap (· ++ Template.text "\n")) := by
  induction ts with
  | nil => rfl
  | cons t ts ih =>
    rw [List.map_cons, List.flatMap_cons, Template.fill_append, Template.fill_append,
      Template.fill_text, ← ih]
    rfl

theorem poststart_eq_fill (ports : List (UInt16 × UInt16)) :
    poststartHookScript id ip ports =
      (poststartTemplate ip ports).fill (hookValues namespace_ id) := by
  rw [poststartHookScript, poststartTemplate, Template.fill_append, Template.fill_text,
    ← unlines_fill, List.map_flatMap]
  simp only [List.map_cons, Template.fill_text, socatRest_eq_fill namespace_]

theorem poststopPort_eq_fill (containerPort : UInt16) :
    poststopPort id containerPort =
      (poststopPortTemplate containerPort).fill (hookValues namespace_ id) := by
  unfold poststopPort poststopPortTemplate
  rw [socatPidFile_eq_fill namespace_, socatLogFile_eq_fill namespace_]
  simp only [Template.fill_append, Template.fill_text]

theorem poststop_eq_fill (ports : List (UInt16 × UInt16)) :
    poststopHookScript id namespace_ ports =
      (poststopTemplate ports).fill (hookValues namespace_ id) := by
  have hports : String.join (ports.map fun port => poststopPort id port.1) =
      Template.fill (hookValues namespace_ id)
        (ports.flatMap fun port => poststopPortTemplate port.1) := by
    induction ports with
    | nil => rfl
    | cons port ports ih =>
      rw [List.map_cons, String.join_cons, List.flatMap_cons, Template.fill_append, ih,
        poststopPort_eq_fill namespace_]
  simp only [poststopHookScript, poststopTemplate, Template.fill_append, Template.fill_text,
    Template.fill_hole, hookValues, hports, nerdctlDir_eq_fill]

end fill

/-! ## The checks on the namespace and the id -/

/-- `Client::try_with_namespace`: the namespace of the client it returns. `parses` is the metadata
parser of the gRPC library. -/
def tryWithNamespace (parses : String → Bool) (namespace_ : String) : Except Error String :=
  if !parses namespace_ then
    .error (.invalidArgument ("namespace " ++ debugText namespace_ ++
      " is not valid as a gRPC metadata header value (ASCII visible chars only)"))
  else .ok namespace_

theorem tryWithNamespace_ok {parses : String → Bool} {requested namespace_ : String}
    (h : tryWithNamespace parses requested = .ok namespace_) : namespace_ = requested := by
  unfold tryWithNamespace at h
  split at h
  · cases h
  · cases h
    rfl

/-- What the shell reads inside double quotes; 96 is the backquote. -/
def shellSpecial : List Char := ['"', '$', Char.ofNat 96, '\\']

/-- A text the shell takes as it is inside double quotes. -/
def Plain (cs : List Char) : Prop := ∀ c ∈ cs, c ∉ shellSpecial

instance (cs : List Char) : Decidable (Plain cs) := List.decidableBAll _ cs

theorem plain_id {id : String} (h : validateIdentifier id = .ok ()) : Plain id.toList := by
  intro c hc hspecial
  simp only [shellSpecial, List.mem_cons, List.not_mem_nil, or_false] at hspecial
  rcases hspecial with rfl | rfl | rfl | rfl
  · exact notMem_of_byte h 34 (by decide) (by decide) hc
  · exact notMem_of_byte h 36 (by decide) (by decide) hc
  · exact notMem_of_byte h 96 (by decide) (by decide) hc
  · exact notMem_of_byte h 92 (by decide) (by decide) hc

theorem digitChar_notMem (d : Nat) : Nat.digitChar d ∉ shellSpecial := by
  by_cases hd : d < 16
  · revert d
    decide
  · rw [Nat.digitChar_eq_star.mpr (Nat.le_of_not_lt hd)]
    decide

theorem plain_toDigits {base : Nat} (hb : 1 < base) (n : Nat) : Plain (Nat.toDigits base n) := by
  induction n using Nat.strongRecOn with
  | ind n ih =>
    rw [Nat.toDigits_eq_if hb]
    split
    · intro c hc
      rw [List.mem_singleton.mp hc]
      exact digitChar_notMem n
    · rename_i hn
      intro c hc
      rcases List.mem_append.mp hc with hc | hc
      · exact ih (n / base) (Nat.div_lt_self (by omega) hb) c hc
      · rw [List.mem_singleton.mp hc]
        exact digitChar_notMem _

/-- An interface name is hexadecimal. -/
theorem plain_vethName (id : String) : Plain (vethName id).toList := by
  have hcm : Plain "cm".toList := by decide
  intro c hc
  simp only [vethName, String.toList_append, String.toList_ofList, pad13, List.mem_append] at hc
  rcases hc with hc | hc | hc
  · exact hcm c hc
  · rw [(List.mem_replicate.mp hc).2]
    decide
  · exact plain_toDigits (by decide) _ c hc

theorem plain_hookValues {namespace_ id : String} (hns : Plain namespace_.toList)
    (hid : validateIdentifier id = .ok ()) (hole : HookHole) :
    Plain (hookValues namespace_ id hole).toList := by
  cases hole with
  | namespace_ => exact hns
  | containerId => exact plain_id hid
  | veth => exact plain_vethName id

/-! ## Which namespaces are safe -/

/-- The components of `/var/lib/nerdctl/1935db59/containers`. -/
def nerdctlContainers : List Path.Component :=
  Path.components "/var/lib/nerdctl/1935db59/containers".toList

/-- `script` is `template` with the namespace and the id filled in, and they bring in nothing
special. -/
structure Inert (namespace_ id script : String) (template : Template HookHole) : Prop where
  filled : script = template.fill (hookValues namespace_ id)
  plain : Plain (template.fromHoles (hookValues namespace_ id))

structure ScriptsSafe (namespace_ id ip : String) (pairs ports : List (UInt16 × UInt16)) :
    Prop where
  prestart : Inert namespace_ id (prestartHookScript ip id namespace_ pairs)
    (prestartTemplate ip pairs)
  poststart : Inert namespace_ id (poststartHookScript id ip ports) (poststartTemplate ip ports)
  poststop : Inert namespace_ id (poststopHookScript id namespace_ ports) (poststopTemplate ports)
  /-- What poststop removes is two levels below the containers directory. -/
  removed : ∃ dir entry, Path.resolve [] (nerdctlDir namespace_ id).toList =
    nerdctlContainers ++ [dir, entry]

theorem inert_of_plain {namespace_ id script : String} {template : Template HookHole}
    (hns : Plain namespace_.toList) (hid : validateIdentifier id = .ok ())
    (hfill : script = template.fill (hookValues namespace_ id)) :
    Inert namespace_ id script template := by
  refine ⟨hfill, fun c hc => ?_⟩
  obtain ⟨hole, -, hc⟩ := (Template.mem_fromHoles _).mp hc
  exact plain_hookValues hns hid hole c hc

theorem namespace_mem_poststop (ports : List (UInt16 × UInt16)) :
    .hole .namespace_ ∈ poststopTemplate ports := by
  simp [poststopTemplate, nerdctlDirTemplate, Template.hole, Template.text]

/-- The id is one more component; the namespace may be any path. -/
theorem resolve_nerdctlDir (namespace_ : String) {id : String}
    (hid : validateIdentifier id = .ok ()) :
    Path.resolve [] (nerdctlDir namespace_ id).toList =
      Path.resolve nerdctlContainers namespace_.toList ++ [id.toList] := by
  have htext : (nerdctlDir namespace_ id).toList =
      "/var/lib/nerdctl/1935db59/containers".toList ++
        '/' :: (namespace_.toList ++ '/' :: id.toList) := by
    have hsep : "/var/lib/nerdctl/1935db59/containers/" =
        "/var/lib/nerdctl/1935db59/containers" ++ "/" := by decide +kernel
    unfold nerdctlDir
    simp only [hsep, String.toList_append, List.append_assoc]
    rfl
  have hroot : Path.resolve [] "/var/lib/nerdctl/1935db59/containers".toList =
      nerdctlContainers := by decide +kernel
  rw [htext, Path.resolve_slash, Path.resolve_slash, hroot,
    Path.resolve_normal (normal_of_validate hid)]

/-- **The scripts are safe exactly for a namespace without special characters that names a
direct child of the containers directory.** -/
theorem scriptsSafe_iff (parses : String → Bool) (requested namespace_ id ip : String)
    (pairs ports : List (UInt16 × UInt16))
    (hns : tryWithNamespace parses requested = .ok namespace_)
    (hid : validateIdentifier id = .ok ()) :
    ScriptsSafe namespace_ id ip pairs ports ↔
      Plain requested.toList ∧
        ∃ dir, Path.resolve nerdctlContainers requested.toList = nerdctlContainers ++ [dir] := by
  obtain rfl := tryWithNamespace_ok hns
  constructor
  · intro h
    refine ⟨fun c hc => h.poststop.plain c ?_, ?_⟩
    · exact (Template.mem_fromHoles _).mpr ⟨_, namespace_mem_poststop ports, hc⟩
    · obtain ⟨dir, entry, hdir⟩ := h.removed
      have hpair : nerdctlContainers ++ [dir, entry] = (nerdctlContainers ++ [dir]) ++ [entry] :=
        List.append_cons ..
      rw [resolve_nerdctlDir _ hid, hpair] at hdir
      exact ⟨dir, (List.append_inj' hdir rfl).1⟩
  · rintro ⟨hplain, dir, hdir⟩
    refine ⟨inert_of_plain hplain hid (prestart_eq_fill ..),
      inert_of_plain hplain hid (poststart_eq_fill ..),
      inert_of_plain hplain hid (poststop_eq_fill ..), dir, id.toList, ?_⟩
    rw [resolve_nerdctlDir _ hid, hdir, List.append_assoc]
    rfl

/-- A parser that takes every visible ASCII character, and the space. -/
def visibleAscii (value : String) : Bool :=
  value.toList.all fun c => 32 ≤ c.toNat && c.toNat ≤ 126

theorem scriptsSafe_default :
    ScriptsSafe "default" "web-1" "10.88.1.7" [(8080, 80)] [(80, 8080)] :=
  (scriptsSafe_iff visibleAscii "default" "default" "web-1" "10.88.1.7" [(8080, 80)] [(80, 8080)]
    (by decide +kernel) (by decide +kernel)).mpr
    ⟨by decide +kernel, "default".toList, by decide +kernel⟩

/-- A command substitution goes into a script run as root, and a namespace that goes up takes
`rm -rf` to `/etc`. -/
theorem scriptsSafe_fails :
    tryWithNamespace visibleAscii "$(reboot)" = .ok "$(reboot)" ∧
      validateIdentifier "etc" = .ok () ∧
      ¬ ScriptsSafe "$(reboot)" "etc" "10.88.1.7" [] [] ∧
      tryWithNamespace visibleAscii "../../../../.." = .ok "../../../../.." ∧
      ¬ ScriptsSafe "../../../../.." "etc" "10.88.1.7" [] [] ∧
      Path.resolve [] (nerdctlDir "../../../../.." "etc").toList = ["etc".toList] := by
  refine ⟨by decide +kernel, by decide +kernel, fun h => ?_, by decide +kernel, fun h => ?_,
    by decide +kernel⟩
  · have hmem : '$' ∈ (poststopTemplate []).fromHoles (hookValues "$(reboot)" "etc") :=
      (Template.mem_fromHoles _).mpr ⟨_, namespace_mem_poststop [], by decide⟩
    exact h.poststop.plain '$' hmem (by decide)
  · obtain ⟨dir, entry, hdir⟩ := h.removed
    have hetc : Path.resolve [] (nerdctlDir "../../../../.." "etc").toList = ["etc".toList] := by
      decide +kernel
    rw [hetc] at hdir
    have hlen := congrArg List.length hdir
    rw [List.length_append, List.length_singleton] at hlen
    simp at hlen

end ContainerdManager.Container
