import ContainerdManager.Containerd.Snapshots

/-!
# Images and OCI specs

The constants of `src/consts.rs`, the options of `create_container`, what is
read of an image, and the builders of `src/container.rs` that make an OCI
spec from the two. A Rust `HashMap` is an association list here; where the
source iterates over one, the order is that of the list.
-/

namespace ContainerdManager.Container

open Containerd

/-! ## Constants -/

def defaultSnapshotter : String := "overlayfs"

def portBindingLabel : String := "containerd-manager.port."

def bridgeIpLabel : String := "containerd-manager.bridge.ip"

def networkModeLabel : String := "containerd-manager.network.mode"

def nameLabel : String := "containerd-manager.name"

def bridgeName : String := "cni0"

def bridgeGateway : String := "10.88.0.1"

def containerSubnet : String := "10.88.1"

def ociSpecVersion : String := "1.0.2"

def ociRootfsPath : String := "rootfs"

def hookPath : String := "PATH=/usr/local/sbin:/usr/local/bin:/usr/sbin:/usr/bin:/sbin:/bin"

/-- Snapshot key of a container. -/
def snapshotKeyFor (id : String) : String := id ++ "-snapshot"

/-! ## Options -/

inductive NetworkMode where
  | isolated
  | host
  | bridge
  deriving DecidableEq, Repr

/-- The value of `NETWORK_MODE_LABEL`. -/
def NetworkMode.labelValue : NetworkMode → String
  | .bridge => "bridge"
  | .host => "host"
  | .isolated => "isolated"

structure Mount where
  source : String
  destination : String
  options : List String
  deriving DecidableEq, Repr

structure CreateContainerOpts where
  env : Labels := ∅
  labels : Labels := ∅
  mounts : List Mount := []
  network : NetworkMode := .bridge
  /-- Replaces the entrypoint and command of the image. -/
  cmd : Option (List String) := none
  /-- `(host_port, container_port)` pairs. -/
  portBindings : List (UInt16 × UInt16) := []
  fromExistingSnapshot : Option String := none

/-! ## Images -/

/-- `serde_json::Value`. -/
inductive Json where
  | null
  | bool (b : Bool)
  | number (text : String)
  | string (s : String)
  | array (items : List Json)
  | object (fields : List (String × Json))

namespace Json

/-- `Value::get` with a key: `None` on anything but an object. -/
def get (key : String) : Json → Option Json
  | object fields => (fields.find? fun field => field.1 = key).map Prod.snd
  | _ => none

def asStr : Json → Option String
  | string s => some s
  | _ => none

def asArray : Json → Option (List Json)
  | array items => some items
  | _ => none

end Json

/-- The `config` part of an image configuration. -/
structure ImageConfig where
  labels : Option Labels := none
  entrypoint : Option (List String) := none
  cmd : Option (List String) := none
  workingDir : Option String := none
  env : Option (List String) := none
  deriving DecidableEq

/-- `oci_spec::image::ImageConfiguration`, the fields that are read. -/
structure ImageConfiguration where
  config : Option ImageConfig := none
  diffIds : List String
  deriving DecidableEq

structure ImageMetadata where
  chainId : String
  config : ImageConfiguration
  rawConfig : List UInt8
  deriving DecidableEq

/-- `compute_chain_id`: `chain_N = sha256(chain_{N-1} + " " + diff_N)`. -/
def computeChainId (sha256 : String → String) : List String → String
  | [] => ""
  | diffId :: diffIds =>
    diffIds.foldl (fun chainId diffId => "sha256:" ++ sha256 (chainId ++ " " ++ diffId)) diffId

/-! ## OCI specs -/

inductive Namespace where
  | pid
  | network
  | ipc
  | uts
  | mount
  | cgroup
  deriving DecidableEq, Repr

/-- `get_default_namespaces`. -/
def defaultNamespaces : List Namespace := [.pid, .network, .ipc, .uts, .mount, .cgroup]

/-- The capabilities a container gets. -/
inductive Capability where
  | chown
  | dacOverride
  | fsetid
  | fowner
  | mknod
  | netRaw
  | setgid
  | setuid
  | setfcap
  | setpcap
  | netBindService
  | sysChroot
  | kill
  | auditWrite
  deriving DecidableEq, Repr

structure Hook where
  path : String
  args : List String
  env : List String
  deriving DecidableEq, Repr

structure Hooks where
  prestart : List Hook
  poststart : List Hook
  poststop : List Hook
  deriving DecidableEq, Repr

structure OciMount where
  source : Option String
  destination : String
  typ : Option String
  options : Option (List String)
  deriving DecidableEq, Repr

structure OciProcess where
  terminal : Bool
  args : List String
  env : List String
  cwd : String
  capabilities : List Capability
  deriving DecidableEq, Repr

structure OciSpec where
  version : String
  process : OciProcess
  rootPath : String
  rootReadonly : Bool
  namespaces : List Namespace
  mounts : Option (List OciMount)
  hooks : Option Hooks
  deriving DecidableEq, Repr

/-! ## Builders -/

/-- `str::split_once('=')`. -/
def splitOnce (entry : String) : Option (String × String) :=
  match entry.toList.span (· ≠ '=') with
  | (_, []) => none
  | (key, _ :: value) => some (String.ofList key, String.ofList value)

/-- The variables of `KEY=value` strings; a later one wins. -/
def parseEnvVars (env : List String) : Labels :=
  (env.filterMap splitOnce).foldl (fun vars kv => vars.insert kv.1 kv.2) ∅

/-- Image labels first, then the user's. -/
def buildLabels (image : ImageConfiguration) (opts : CreateContainerOpts) : Labels :=
  opts.labels ∪ ((image.config.bind ImageConfig.labels).getD ∅)

def buildMounts (opts : CreateContainerOpts) : List OciMount :=
  opts.mounts.map fun m =>
    { source := some m.source
      destination := m.destination
      typ := some "bind"
      options := some m.options }

/-- `cmd` replaces entrypoint and command; without any of them a shell is run. -/
def buildArgs (image : ImageConfiguration) (opts : CreateContainerOpts) : List String :=
  match opts.cmd with
  | some cmd => cmd
  | none =>
    let args := (image.config.map fun c => c.entrypoint.getD [] ++ c.cmd.getD []).getD []
    if args.isEmpty then ["/bin/sh"] else args

def buildCwd (image : ImageConfiguration) : String :=
  match image.config.bind ImageConfig.workingDir with
  | some dir => if dir.isEmpty then "/" else dir
  | none => "/"

/-- Image variables first, then the user's. -/
def buildMergedEnv (image : ImageConfiguration) (opts : CreateContainerOpts) : List String :=
  let imageEnv := parseEnvVars ((image.config.bind ImageConfig.env).getD [])
  (opts.env ∪ imageEnv).entries.map fun e => e.1 ++ "=" ++ e.2

/-- Host mode shares the host's network namespace. -/
def buildNamespaces (mode : NetworkMode) : List Namespace :=
  if mode = .host then defaultNamespaces.filter (· ≠ .network) else defaultNamespaces

/-- The set of `build_default_capabilities`. -/
def defaultCapabilities : List Capability :=
  [.chown, .dacOverride, .fsetid, .fowner, .mknod, .netRaw, .setgid, .setuid, .setfcap, .setpcap,
    .netBindService, .sysChroot, .kill, .auditWrite]

/-- The spec `build_oci_spec` builds when no builder fails. -/
def ociSpec (image : ImageConfiguration) (opts : CreateContainerOpts) (hooks : Option Hooks) :
    OciSpec where
  version := ociSpecVersion
  process :=
    { terminal := false
      args := buildArgs image opts
      env := buildMergedEnv image opts
      cwd := buildCwd image
      capabilities := defaultCapabilities }
  rootPath := ociRootfsPath
  rootReadonly := false
  namespaces := buildNamespaces opts.network
  mounts := if opts.mounts.isEmpty then none else some (buildMounts opts)
  hooks := hooks

/-- `sh_hook`: `/bin/sh -c <script>`. -/
def shHook (script : String) : Hook where
  path := "/bin/sh"
  args := ["/bin/sh", "-c", script]
  env := [hookPath]

end ContainerdManager.Container
