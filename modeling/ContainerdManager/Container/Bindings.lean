import ContainerdManager.Container.HookRuns
import ContainerdManager.Container.Ports
import ContainerdManager.Lib.Lines

/-!
# What the bindings of a bridge container share

Every binding of a bridge-mode container has a host port, a pid file and a
log file for its `socat`, and a label. They are told apart by the container
port and by what the host hands out, and nothing checks either:
`bindings_apart_iff` says when they are pairwise distinct, when poststop
ends every `socat` and when every binding is reported by inspect.
-/

namespace ContainerdManager.Container

open Lib Containerd ContainerdManager.Task

variable {κ : Type}

/-! ## File names -/

theorem portText_injective {a b : UInt16} (h : (portText a).toList = (portText b).toList) :
    a = b := by
  have hp := congrArg parseU16 h
  rw [parseU16_portText, parseU16_portText] at hp
  exact Option.some.inj hp

/-- A file of a forwarder. -/
def socatFile (id : String) (containerPort : UInt16) (ext : String) : String :=
  "/tmp/socat-" ++ id ++ "-" ++ portText containerPort ++ ext

/-- **The id and the port are read off a file name**: the port has no dash, so the last dash of the
name stands before it, however many the id has. -/
theorem socatFile_eq {id id' : String} {port port' : UInt16} {ext ext' : String}
    (he : '-' ∉ ext.toList)
    (he' : '-' ∉ ext'.toList) (h : socatFile id port ext = socatFile id' port' ext') :
    id = id' ∧ (portText port).toList ++ ext.toList = (portText port').toList ++ ext'.toList := by
  have hlist : ∀ (id ext : String) (port : UInt16), (socatFile id port ext).toList =
      "/tmp/socat-".toList ++ (id.toList ++ '-' :: ((portText port).toList ++ ext.toList)) := by
    intro id ext port
    simp [socatFile]
  have hdash : ∀ (port : UInt16) (ext : String), '-' ∉ ext.toList →
      '-' ∉ (portText port).toList ++ ext.toList := by
    intro port ext he hm
    rcases List.mem_append.mp hm with hm | hm
    · rw [portText_toList] at hm
      exact absurd (isDigit_decimal hm) (by decide)
    · exact he hm
  have hl := congrArg String.toList h
  rw [hlist, hlist] at hl
  obtain ⟨hid, hrest⟩ := split_last (hdash port ext he) (hdash port' ext' he')
    (List.append_cancel_left hl)
  exact ⟨String.toList_inj.mp hid, hrest⟩

theorem dash_not_mem_pid : '-' ∉ ".pid".toList := by decide

theorem dash_not_mem_log : '-' ∉ ".log".toList := by decide

theorem socatPidFile_eq {id id' : String} {port port' : UInt16}
    (h : socatPidFile id port = socatPidFile id' port') : id = id' ∧ port = port' := by
  obtain ⟨hid, hport⟩ := socatFile_eq dash_not_mem_pid dash_not_mem_pid h
  exact ⟨hid, portText_injective (List.append_cancel_right hport)⟩

theorem socatLogFile_eq {id id' : String} {port port' : UInt16}
    (h : socatLogFile id port = socatLogFile id' port') : id = id' ∧ port = port' := by
  obtain ⟨hid, hport⟩ := socatFile_eq dash_not_mem_log dash_not_mem_log h
  exact ⟨hid, portText_injective (List.append_cancel_right hport)⟩

theorem socatPidFile_ne_log (id id' : String) (port port' : UInt16) :
    socatPidFile id port ≠ socatLogFile id' port' := by
  intro h
  obtain ⟨-, hrest⟩ := socatFile_eq dash_not_mem_pid dash_not_mem_log h
  have hlast := congrArg List.getLast? hrest
  simp at hlast

/-! ## Bindings -/

/-- The resources of the bindings are pairwise distinct and no other container's, poststop ends
every `socat` of poststart, and inspect reports a forward for each binding. -/
structure BindingsApart (id ip : String) (ports : List (UInt16 × UInt16))
    (record : ContainerRecord) :
    Prop where
  hostPorts : (ports.map Prod.snd).Nodup
  pidFiles : (ports.map fun port => socatPidFile id port.1).Nodup
  logFiles : (ports.map fun port => socatLogFile id port.1).Nodup
  labelKeys : (ports.map fun port => portLabel port.1).Nodup
  others : ∀ id', id' ≠ id → ∀ port port', socatPidFile id port ≠ socatPidFile id' port' ∧
    socatLogFile id port ≠ socatLogFile id' port' ∧ socatPidFile id port ≠ socatLogFile id' port' ∧
    socatLogFile id port ≠ socatPidFile id' port'
  terminates : HooksTerminate id ip ports
  inspected : ∀ task, (ports.map Prod.swap).Subperm (containerToInfo id record task).portForwards

theorem nodup_map_iff {α β γ : Type} {f : α → β} {g : β → γ} (hg : ∀ a b, g a = g b → a = b)
    (xs : List α) : (xs.map fun x => g (f x)).Nodup ↔ (xs.map f).Nodup := by
  rw [show (xs.map fun x => g (f x)) = (xs.map f).map g by rw [List.map_map]; rfl]
  exact List.nodup_map_iff hg

theorem pidFiles_nodup_iff (id : String) (ports : List (UInt16 × UInt16)) :
    (ports.map fun port => socatPidFile id port.1).Nodup ↔ (ports.map Prod.fst).Nodup :=
  nodup_map_iff (fun _ _ h => (socatPidFile_eq h).2) ports

/-- **Bindings are apart exactly when their container ports and their host ports are.** -/
theorem bindingsApart_iff {client : Client} {id name image key : String}
    {opts : CreateContainerOpts}
    {metadata : ImageMetadata} (ip : String) (ports : List (UInt16 × UInt16)) :
    BindingsApart id ip ports (recordOf client id name image opts metadata key (some (ip, ports))) ↔
      (ports.map Prod.fst).Nodup ∧ (ports.map Prod.snd).Nodup := by
  constructor
  · exact fun h => ⟨(pidFiles_nodup_iff id ports).mp h.pidFiles, h.hostPorts⟩
  · rintro ⟨hc, hh⟩
    refine ⟨hh, (pidFiles_nodup_iff id ports).mpr hc,
      (nodup_map_iff (fun _ _ h => (socatLogFile_eq h).2) ports).mpr hc,
      (nodup_map_iff (fun _ _ h => portLabel_injective h) ports).mpr hc,
        fun id' hne port port' => ?_,
      (hooksTerminate_iff id ip ports).mpr ((pidFiles_nodup_iff id ports).mpr hc), fun task => ?_⟩
    · exact ⟨fun h => hne (socatPidFile_eq h).1.symm, fun h => hne (socatLogFile_eq h).1.symm,
        socatPidFile_ne_log _ _ _ _, fun h => socatPidFile_ne_log _ _ _ _ h.symm⟩
    · have hsnd : (ports.map Prod.swap).map Prod.snd = ports.map Prod.fst := by
        rw [List.map_map]; rfl
      refine List.subperm_of_subset
        (List.Nodup.of_map Prod.snd (by rw [hsnd]; exact hc)) fun pair hp => ?_
      have hlook := lookup_port client.namespace_ name metadata.config opts (some ip)
        (ports.map Prod.swap) (by rw [hsnd]; exact hc) hp
      exact List.mem_filterMap.mpr ⟨⟨portLabel pair.2, portText pair.1⟩,
        AList.mem_lookup_iff.mp hlook, portBinding_label pair.1 pair.2⟩

/-- The host ports handed out are distinct exactly when those of the bindings are. -/
theorem hostPorts_nodup_iff {client : Client} {first : Nat} {ports : List (UInt16 × UInt16)}
    (hpick : ∀ i < ports.length, ∃ q ∈ ports[i]?, client.freePort (first + i) = .port q.2) :
    (ports.map Prod.snd).Nodup ↔ ∀ i j, i < j → j < ports.length →
      client.freePort (first + i) ≠ client.freePort (first + j) := by
  rw [List.nodup_iff_getElem?_ne_getElem?]
  have hport : ∀ i < ports.length, ∃ p, (ports.map Prod.snd)[i]? = some p ∧
      client.freePort (first + i) = .port p := by
    intro i hi
    obtain ⟨q, hq, hf⟩ := hpick i hi
    exact ⟨q.2, by rw [List.getElem?_map, hq, Option.map_some], hf⟩
  rw [List.length_map]
  refine forall₂_congr fun i j => forall₂_congr fun hij hj => ?_
  obtain ⟨p, hp, hfp⟩ := hport i (by omega)
  obtain ⟨q, hq, hfq⟩ := hport j hj
  rw [hp, hq, hfp, hfq]
  simp

/-- The hooks and the record of a bridge-mode container are built from one list of ports. -/
theorem createContainer_bindings {client : Client} {id name image r : String}
    {opts : CreateContainerOpts} {w w' : World κ} {record : ContainerRecord}
    (hmode : opts.network = .bridge)
    (hrun : (createContainer client id name image opts).run w = .ok r w')
    (hrecord : w'.containers.lookup id = some record) :
    ∃ ip ports hooks, record.spec.bind OciSpec.hooks = some hooks ∧
      hooks.poststart = [shHook ("\n" ++ hookText (poststartCmds id ip ports))] ∧
      hooks.poststop = [shHook
        ("\n" ++ hookText (poststopCmds id ports) ++ poststopCleanup id client.namespace_)] ∧
      ports.map Prod.fst = bridgePorts opts ∧
      (∀ i < ports.length, ∃ q ∈ ports[i]?, client.freePort (w.portPicks + i) = .port q.2) ∧
      (BindingsApart id ip ports record ↔ (ports.map Prod.fst).Nodup ∧
        (ports.map Prod.snd).Nodup) := by
  obtain ⟨metadata, bridge, -, hdrawn, rfl⟩ := createContainer_record hrun hrecord
  obtain ⟨octet, ports, rfl, -, hfst, hpick⟩ := hdrawn.drawn hmode
  have hlen : ports.length = (bridgePorts opts).length := by rw [← hfst, List.length_map]
  rw [← hlen] at hpick
  exact ⟨bridgeIp octet, ports, _, rfl, by rw [← poststart_text], by rw [← poststop_text],
    hfst, hpick,
    bindingsApart_iff _ ports⟩

/-- **When the bindings of a bridge container are apart**: exactly when the declared container ports
are pairwise distinct and the host hands out pairwise distinct ports. -/
theorem bindings_apart_iff (client : Client) (id name image r : String) (opts : CreateContainerOpts)
    (w w' : World κ) (record : ContainerRecord) (hmode : opts.network = .bridge)
    (hrun : (createContainer client id name image opts).run w = .ok r w')
    (hrecord : w'.containers.lookup id = some record) :
    ∃ ip ports hooks, record.spec.bind OciSpec.hooks = some hooks ∧
      hooks.poststart = [shHook ("\n" ++ hookText (poststartCmds id ip ports))] ∧
      hooks.poststop = [shHook
        ("\n" ++ hookText (poststopCmds id ports) ++ poststopCleanup id client.namespace_)] ∧
      ports.map Prod.fst = bridgePorts opts ∧
      (BindingsApart id ip ports record ↔
        (bridgePorts opts).Nodup ∧ ∀ i j, i < j → j < (bridgePorts opts).length →
          client.freePort (w.portPicks + i) ≠ client.freePort (w.portPicks + j)) := by
  obtain ⟨ip, ports, hooks, hhooks, hstart, hstop, hfst, hpick, hiff⟩ :=
    createContainer_bindings hmode hrun hrecord
  refine ⟨ip, ports, hooks, hhooks, hstart, hstop, hfst, ?_⟩
  rw [hiff, hostPorts_nodup_iff hpick, hfst, ← hfst, List.length_map]

/-- Two declared bindings. -/
def twoBindings (first second : UInt16) : CreateContainerOpts where
  portBindings := [(18080, first), (18081, second)]

/-- The host hands out one port after the other. -/
def handsOutNext : Client where
  freePort n := .port (49152 + UInt16.ofNat n)

theorem twoBindings_created (client : Client) (first second : UInt16)
    (h : (client = handsOutNext ∧ first = 80 ∧ second = 8080) ∨
      (client = handsOutNext ∧ first = 80 ∧ second = 80) ∨
      (client = handsOut 49152 ∧ first = 80 ∧ second = 8080)) : ∃ w' record,
    (createContainer client "c1" "web" "mongo" (twoBindings first second)).run oneImage =
      .ok "c1" w' ∧
      w'.containers.lookup "c1" = some record := by
  have hok : (result (createContainer client "c1" "web" "mongo" (twoBindings first second)).run
      oneImage).toOption = some "c1" := by
    rcases h with ⟨rfl, rfl, rfl⟩ | ⟨rfl, rfl, rfl⟩ | ⟨rfl, rfl, rfl⟩ <;> decide +kernel
  obtain ⟨w', hr⟩ := ok_of_result hok
  obtain ⟨-, metadata, bridge, hcreated⟩ := createContainer_created hr
  exact ⟨w', _, hr, hcreated.record⟩

theorem twoBindings_apart : ∃ w' record,
    (createContainer handsOutNext "c1" "web" "mongo" (twoBindings 80 8080)).run oneImage =
      .ok "c1" w' ∧
      w'.containers.lookup "c1" = some record ∧
      ∃ ip ports, ports.map Prod.fst = [80, 8080] ∧ BindingsApart "c1" ip ports record := by
  obtain ⟨w', record, hr, hrecord⟩ :=
    twoBindings_created handsOutNext 80 8080 (.inl ⟨rfl, rfl, rfl⟩)
  obtain ⟨ip, ports, hooks, -, -, -, hfst, hiff⟩ :=
    bindings_apart_iff handsOutNext "c1" "web" "mongo" "c1"
    (twoBindings 80 8080) oneImage w' record rfl hr hrecord
  refine ⟨w', record, hr, hrecord, ip, ports, hfst, hiff.mpr ⟨by decide, fun i j hij hj => ?_⟩⟩
  obtain ⟨rfl, rfl⟩ : i = 0 ∧ j = 1 := by
    have : j < 2 := hj
    omega
  decide

/-- **Nothing keeps bindings apart**: a container port declared twice, or a host port handed out
twice, is accepted; with a repeated container port poststop leaves a `socat` running. -/
theorem bindings_collide :
    (∃ w' record,
      (createContainer handsOutNext "c1" "web" "mongo" (twoBindings 80 80)).run oneImage =
        .ok "c1" w' ∧
        w'.containers.lookup "c1" = some record ∧
        ∃ ip ports hooks, record.spec.bind OciSpec.hooks = some hooks ∧
          hooks.poststart = [shHook ("\n" ++ hookText (poststartCmds "c1" ip ports))] ∧
          ¬ BindingsApart "c1" ip ports record ∧ ¬ HooksTerminate "c1" ip ports) ∧
    (∃ w' record,
      (createContainer (handsOut 49152) "c1" "web" "mongo" (twoBindings 80 8080)).run oneImage =
          .ok "c1" w' ∧
        w'.containers.lookup "c1" = some record ∧
        ∃ ip ports hooks, record.spec.bind OciSpec.hooks = some hooks ∧
          hooks.poststart = [shHook ("\n" ++ hookText (poststartCmds "c1" ip ports))] ∧
          ¬ BindingsApart "c1" ip ports record) := by
  constructor
  · obtain ⟨w', record, hr, hrecord⟩ :=
      twoBindings_created handsOutNext 80 80 (.inr (.inl ⟨rfl, rfl, rfl⟩))
    obtain ⟨ip, ports, hooks, hhooks, hstart, -, hfst, -, -⟩ :=
      createContainer_bindings rfl hr hrecord
    have hdup : ¬ (ports.map fun port => socatPidFile "c1" port.1).Nodup := by
      rw [pidFiles_nodup_iff, hfst]
      decide
    exact ⟨w', record, hr, hrecord, ip, ports, hooks, hhooks, hstart, fun h => hdup h.pidFiles,
      fun h => hdup ((hooksTerminate_iff _ _ _).mp h)⟩
  · obtain ⟨w', record, hr, hrecord⟩ := twoBindings_created (handsOut 49152) 80 8080
      (.inr (.inr ⟨rfl, rfl, rfl⟩))
    obtain ⟨ip, ports, hooks, hhooks, hstart, -, hfst, hpick, -⟩ :=
      createContainer_bindings rfl hr hrecord
    have hlen : ports.length = 2 := by
      have := congrArg List.length hfst
      rwa [List.length_map] at this
    refine ⟨w', record, hr, hrecord, ip, ports, hooks, hhooks, hstart, fun h => ?_⟩
    exact (hostPorts_nodup_iff hpick).mp h.hostPorts 0 1 (by omega) (by omega) rfl

end ContainerdManager.Container
