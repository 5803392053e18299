import ContainerdManager.Container.Labels
import ContainerdManager.Lib.Lines

/-!
# The scripts of the bridge hooks

`src/bridge.rs`: the shell scripts that connect a container to the bridge,
start one `socat` for each port and clean up. `socatForwards` reads the
forwarders off the text of a poststart script: the lines that start a
`socat`, with the port it listens on and the container port it connects to.
-/

namespace ContainerdManager.Container

open Containerd Lib

/-! ## Names -/

/-- `name` left-padded with zeros to thirteen digits. -/
def pad13 (digits : List Char) : List Char := List.replicate (13 - digits.length) '0' ++ digits

/-- A fifteen-character interface name from the FNV-1a hash of the id. -/
def vethName (id : String) : String :=
  let hash := id.toUTF8.data.toList.foldl
    (fun (hash : UInt64) byte => (hash ^^^ byte.toUInt64) * 0x100000001b3) 0xcbf29ce484222325
  "cm" ++ String.ofList (pad13 (Nat.toDigits 16 (hash &&& 0xfffffffffffff).toNat))

def socatPidFile (id : String) (containerPort : UInt16) : String :=
  "/tmp/socat-" ++ id ++ "-" ++ portText containerPort ++ ".pid"

def socatLogFile (id : String) (containerPort : UInt16) : String :=
  "/tmp/socat-" ++ id ++ "-" ++ portText containerPort ++ ".log"

/-! ## Prestart -/

/-- The `portMappings` entry of a `(host_port, container_port)` pair. -/
def portMapping (pair : UInt16 × UInt16) : String :=
  "\x7b\"HostPort\":" ++ portText pair.1 ++ ",\"ContainerPort\":" ++ portText pair.2 ++
    ",\"Protocol\":\"tcp\",\"HostIP\":\"0.0.0.0\"\x7d"

def nerdctlDir (namespace_ id : String) : String :=
  "/var/lib/nerdctl/1935db59/containers/" ++ namespace_ ++ "/" ++ id

def nerdctlNetworkConfigScript (namespace_ id : String) (pairs : List (UInt16 × UInt16)) : String :=
  if pairs.isEmpty then ""
  else
    "\n# nerdctl compat: write port-mapping config so `nerdctl ps` shows PORTS.\n" ++
    "NERDCTL_DIR=\"" ++ nerdctlDir namespace_ id ++ "\"\n" ++
    "mkdir -p \"$NERDCTL_DIR\" 2>/dev/null && chmod 700 \"$NERDCTL_DIR\" 2>/dev/null || true\n" ++
    "cat > \"$NERDCTL_DIR/network-config.json\" 2>/dev/null <<'NERDCTL_EOF' || true\n" ++
    "\x7b\"portMappings\":[" ++ String.intercalate "," (pairs.map portMapping) ++ "]\x7d\n" ++
    "NERDCTL_EOF\n" ++
    "chmod 600 \"$NERDCTL_DIR/network-config.json\" 2>/dev/null || true\n"

/-- veth pair, bridge, address and routes; `pairs` are `(host_port, container_port)`. -/
def prestartHookScript (ip id namespace_ : String) (pairs : List (UInt16 × UInt16)) : String :=
  "\nSTATE=$(cat)\n" ++
  "CONTAINER_PID=$(echo \"$STATE\" | python3 -c \"import sys,json; d=json.load(sys.stdin); print(d.get('pid',0))\")\n" ++
  "HOST_VETH=\"" ++ vethName id ++ "\"\n" ++
  "BRIDGE=\"" ++ bridgeName ++ "\"\n" ++
  "GATEWAY=\"" ++ bridgeGateway ++ "\"\n" ++
  "CONTAINER_IP=\"" ++ ip ++ "\"\n\n" ++
  "ip link show \"$BRIDGE\" >/dev/null 2>&1 || ip link add \"$BRIDGE\" type bridge\n" ++
  "ip addr add \"$GATEWAY/16\" dev \"$BRIDGE\" 2>/dev/null || true\n" ++
  "ip link set \"$BRIDGE\" up\n\n" ++
  "# `netns` option places the peer in the container's netns directly, so 'eth0'\n" ++
  "# never appears in the host namespace (which would conflict with the VM NIC).\n" ++
  "ip link add \"$HOST_VETH\" type veth peer name eth0 netns /proc/$CONTAINER_PID/ns/net\n" ++
  "ip link set \"$HOST_VETH\" master \"$BRIDGE\"\n" ++
  "ip link set \"$HOST_VETH\" up\n\n" ++
  "nsenter --net=/proc/$CONTAINER_PID/ns/net ip addr add \"$CONTAINER_IP/16\" dev eth0\n" ++
  "nsenter --net=/proc/$CONTAINER_PID/ns/net ip link set eth0 up\n" ++
  "nsenter --net=/proc/$CONTAINER_PID/ns/net ip link set lo up\n" ++
  "nsenter --net=/proc/$CONTAINER_PID/ns/net ip route add default via \"$GATEWAY\" 2>/dev/null || true\n\n" ++
  "sysctl -w net.ipv4.ip_forward=1 >/dev/null\n" ++
  "iptables -t nat -C POSTROUTING -s 10.88.0.0/16 ! -d 10.88.0.0/16 -j MASQUERADE 2>/dev/null || \\\n" ++
  "  iptables -t nat -A POSTROUTING -s 10.88.0.0/16 ! -d 10.88.0.0/16 -j MASQUERADE\n" ++
  nerdctlNetworkConfigScript namespace_ id pairs

/-! ## Poststart -/

/-- The start of a line that runs a forwarder. -/
def socatStart : String := "nohup /usr/bin/socat TCP-LISTEN:"

/-- The line that runs a forwarder. -/
def socatLine (ip : String) (port : UInt16 × UInt16) : String :=
  socatStart ++ portText port.2 ++ ",fork,reuseaddr TCP:" ++ ip ++ ":" ++ portText port.1 ++ " \\"

/-- The other lines for a port: log, pid file, and a check that `socat` is still there. -/
def socatRest (id : String) (port : UInt16 × UInt16) : List String :=
  let pidFile := socatPidFile id port.1
  let logFile := socatLogFile id port.1
  ["  >" ++ logFile ++ " 2>&1 &",
    "SOCAT_PID=$!",
    "echo $SOCAT_PID > " ++ pidFile,
    "# Give socat a moment to fail-fast on exec / bind errors.",
    "sleep 0.1",
    "if ! kill -0 $SOCAT_PID 2>/dev/null; then",
    "echo \"poststart: socat $SOCAT_PID exited (port " ++ portText port.2 ++ ")\" >&2",
    "cat " ++ logFile ++ " >&2 2>/dev/null || true",
    "rm -f " ++ pidFile,
    "exit 1",
    "fi"]

/-- Lines of text, each with its newline. -/
def unlines (ls : List String) : String := ls.foldr (fun l text => l ++ "\n" ++ text) ""

/-- One `socat` for each `(container_port, host_port)`. -/
def poststartHookScript (id ip : String) (ports : List (UInt16 × UInt16)) : String :=
  "\n" ++ unlines (ports.flatMap fun port => socatLine ip port :: socatRest id port)

/-! ## Poststop -/

def poststopPort (id : String) (containerPort : UInt16) : String :=
  let pidFile := socatPidFile id containerPort
  "SOCAT_PID=$(cat " ++ pidFile ++ " 2>/dev/null || echo)\n" ++
  "if [ -n \"$SOCAT_PID\" ]; then\n" ++
  "kill $SOCAT_PID 2>/dev/null || true\n" ++
  "for i in 1 2 3 4 5; do\n" ++
  "kill -0 $SOCAT_PID 2>/dev/null || break\n" ++
  "sleep 0.1\n" ++
  "done\n" ++
  "kill -9 $SOCAT_PID 2>/dev/null || true\n" ++
  "fi\n" ++
  "rm -f " ++ pidFile ++ " " ++ socatLogFile id containerPort ++ "\n"

/-- Kill every `socat` by its pid file, then drop the veth and the nerdctl directory. -/
def poststopHookScript (id namespace_ : String) (ports : List (UInt16 × UInt16)) : String :=
  "\n" ++ String.join (ports.map fun port => poststopPort id port.1) ++
    "ip link delete \"" ++ vethName id ++ "\" 2>/dev/null || true\n" ++
    "rm -rf \"" ++ nerdctlDir namespace_ id ++ "\" 2>/dev/null || true\n"

/-! ## Reading forwarders off a script -/

/-- The digits at the front, as a port, and the rest. -/
def takePort (cs : List Char) : Option (UInt16 × List Char) :=
  (parseU16 (cs.takeWhile Char.isDigit)).map fun port => (port, cs.dropWhile Char.isDigit)

/-- The `(host_port, container_port)` of a line that runs a forwarder. -/
def socatForward (line : List Char) : Option (UInt16 × UInt16) := do
  if socatStart.toList.isPrefixOf line then
    let (hostPort, rest) ← takePort (line.drop socatStart.toList.length)
    -- the target is `TCP:<ip>:<port>`
    let target := (rest.dropWhile (· ≠ ':')).tail
    let (containerPort, _) ← takePort (target.dropWhile (· ≠ ':')).tail
    return (hostPort, containerPort)
  else none

/-- The forwarders a script starts. -/
def socatForwards (script : String) : List (UInt16 × UInt16) :=
  ((lines '\n' script.toList).1.map List.dropLast).filterMap socatForward

theorem takePort_portText (port : UInt16) {rest : List Char}
    (h : ∀ c ∈ rest.head?, c.isDigit = false) :
    takePort ((portText port).toList ++ rest) = some (port, rest) := by
  have hdig : ∀ c ∈ (portText port).toList, c.isDigit = true := by
    rw [portText_toList]
    exact fun c hc => isDigit_decimal hc
  have hrest : rest.takeWhile Char.isDigit = [] ∧ rest.dropWhile Char.isDigit = rest := by
    cases rest with
    | nil => exact ⟨rfl, rfl⟩
    | cons c cs =>
      have hc : c.isDigit = false := h c rfl
      simp [hc]
  rw [takePort, List.takeWhile_append_of_pos hdig, List.dropWhile_append_of_pos hdig, hrest.1,
    hrest.2,
    List.append_nil, parseU16_portText]
  rfl

/-- **The line of a forwarder is read back.** -/
theorem socatForward_socatLine {ip : String} (hip : ':' ∉ ip.toList) (port : UInt16 × UInt16) :
    socatForward (socatLine ip port).toList = some (port.2, port.1) := by
  have htext : (socatLine ip port).toList = socatStart.toList ++ ((portText port.2).toList ++
      (",fork,reuseaddr TCP".toList ++ ':' :: (ip.toList ++ ':' ::
        ((portText port.1).toList ++ " \\".toList)))) := by
    simp [socatLine]
  have hstart : socatStart.toList.isPrefixOf (socatLine ip port).toList = true := by
    rw [List.isPrefixOf_iff_prefix, htext]
    exact List.prefix_append _ _
  have hskip : ∀ c ∈ ",fork,reuseaddr TCP".toList, (decide (c ≠ ':')) = true :=
    List.all_eq_true.mp (by decide)
  have hip' : ∀ c ∈ ip.toList, (decide (c ≠ ':')) = true := fun c hc => by
    simp only [decide_eq_true_eq]
    rintro rfl
    exact hip hc
  rw [socatForward, if_pos hstart, htext, List.drop_left,
    takePort_portText port.2 (by simp)]
  simp only [Option.bind_eq_bind, Option.bind_some, List.dropWhile_append_of_pos hskip,
    List.dropWhile_cons, ne_eq, not_true_eq_false, decide_false, Bool.false_eq_true, if_false,
    List.tail_cons, List.dropWhile_append_of_pos hip']
  rw [takePort_portText port.1 (by simp)]
  rfl

theorem socatForward_other {line : String} (h : line.toList.head? ≠ some 'n') :
    socatForward line.toList = none := by
  have hstart : ¬ socatStart.toList.isPrefixOf line.toList = true := by
    rw [List.isPrefixOf_iff_prefix]
    rintro ⟨t, ht⟩
    apply h
    rw [← ht]
    rfl
  rw [socatForward, if_neg hstart]

theorem socatForward_rest (id : String) (port : UInt16 × UInt16) :
    ∀ line ∈ socatRest id port, socatForward line.toList = none := by
  intro line hl
  apply socatForward_other
  simp only [socatRest, List.mem_cons, List.not_mem_nil, or_false] at hl
  rcases hl with rfl | rfl | rfl | rfl | rfl | rfl | rfl | rfl | rfl | rfl | rfl
  all_goals simp

theorem lines_unlines {ls : List String} (h : ∀ l ∈ ls, '\n' ∉ l.toList) :
    (lines '\n' (unlines ls).toList).1.map List.dropLast = ls.map String.toList := by
  induction ls with
  | nil => rfl
  | cons l ls ih =>
    have htext : (unlines (l :: ls)).toList = l.toList ++ '\n' :: (unlines ls).toList := by
      simp [unlines]
    rw [htext, lines_line (h l List.mem_cons_self), List.map_cons, List.map_cons,
      ih fun l' hl => h l' (List.mem_cons_of_mem _ hl), List.dropLast_concat]

theorem portText_no_newline (port : UInt16) : '\n' ∉ (portText port).toList := by
  rw [portText_toList]
  exact fun h => absurd (isDigit_decimal h) (by decide)

theorem socatLines_no_newline {id ip : String} (hid : '\n' ∉ id.toList) (hip : '\n' ∉ ip.toList)
    (port : UInt16 × UInt16) : ∀ l ∈ socatLine ip port :: socatRest id port, '\n' ∉ l.toList := by
  have h1 := portText_no_newline port.1
  have h2 := portText_no_newline port.2
  intro l hl
  simp only [socatRest, List.mem_cons, List.not_mem_nil, or_false] at hl
  rcases hl with rfl | rfl | rfl | rfl | rfl | rfl | rfl | rfl | rfl | rfl | rfl | rfl
  all_goals simp [socatLine, socatStart, socatLogFile, socatPidFile, h1, h2, hid, hip]

/-- **A poststart script starts one forwarder for each port**, from the host port to the container
port. -/
theorem socatForwards_poststart {id ip : String} (hid : '\n' ∉ id.toList) (hip : '\n' ∉ ip.toList)
    (hcolon : ':' ∉ ip.toList) (ports : List (UInt16 × UInt16)) :
    socatForwards (poststartHookScript id ip ports) = ports.map Prod.swap := by
  have htext : (poststartHookScript id ip ports).toList =
      '\n' :: (unlines (ports.flatMap fun port =>
        socatLine ip port :: socatRest id port)).toList := by
    simp [poststartHookScript]
  have hlines : ∀ l ∈ ports.flatMap (fun port => socatLine ip port :: socatRest id port),
      '\n' ∉ l.toList := by
    intro l hl
    obtain ⟨port, -, hl⟩ := List.mem_flatMap.mp hl
    exact socatLines_no_newline hid hip port l hl
  have hempty : socatForward [] = none := by rfl
  rw [socatForwards, htext, lines_cons_self, List.map_cons, lines_unlines hlines]
  show List.filterMap socatForward ([] :: _) = _
  rw [List.filterMap_cons_none hempty]
  clear hlines htext
  induction ports with
  | nil => rfl
  | cons port ports ih =>
    have hrest : ((socatRest id port).map String.toList).filterMap socatForward = [] := by
      rw [List.filterMap_eq_nil_iff]
      intro l hl
      obtain ⟨line, hline, rfl⟩ := List.mem_map.mp hl
      exact socatForward_rest id port line hline
    rw [List.flatMap_cons, List.map_append, List.filterMap_append, ih, List.map_cons,
      List.filterMap_cons_some (socatForward_socatLine hcolon port), hrest]
    rfl

end ContainerdManager.Container
