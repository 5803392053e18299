import Mathlib.Data.Finset.Card
import Mathlib.Order.Interval.Finset.Nat
import ContainerdManager.Container.Hooks

/-!
# Running the port hooks

What the poststart and poststop scripts of `src/bridge.rs` do to the `socat`
processes and their pid files. `HookCmd` names the commands of the scripts,
`HookCmd.lines` is their text, and `runHook` what they do on a host. A pid
file is the only trace of a forwarder that poststop follows, so it ends all
of them exactly when no two share a pid file.
-/

namespace ContainerdManager.Container

/-! ## Commands and their text -/

inductive HookCmd where
  /-- Start a `socat` in the background and keep its pid in `SOCAT_PID`. -/
  | launch (ip : String) (port : UInt16 × UInt16) (logFile : String)
  /-- Write `SOCAT_PID` to a file. -/
  | writePid (pidFile : String)
  /-- Leave the script when the `socat` is gone. -/
  | verify (hostPort : UInt16) (pidFile logFile : String)
  /-- Read `SOCAT_PID` from a file, empty when there is none. -/
  | readPid (pidFile : String)
  /-- End the process `SOCAT_PID`, by force after half a second. -/
  | kill
  | removeFiles (pidFile logFile : String)
  deriving DecidableEq, Repr

/-- The text of a command. -/
def HookCmd.text : HookCmd → String
  | .launch ip port logFile =>
    unlines [socatLine ip port, "  >" ++ logFile ++ " 2>&1 &", "SOCAT_PID=$!"]
  | .writePid pidFile => unlines ["echo $SOCAT_PID > " ++ pidFile]
  | .verify hostPort pidFile logFile =>
    unlines ["# Give socat a moment to fail-fast on exec / bind errors.",
      "sleep 0.1",
      "if ! kill -0 $SOCAT_PID 2>/dev/null; then",
      "echo \"poststart: socat $SOCAT_PID exited (port " ++ portText hostPort ++ ")\" >&2",
      "cat " ++ logFile ++ " >&2 2>/dev/null || true",
      "rm -f " ++ pidFile,
      "exit 1",
      "fi"]
  | .readPid pidFile => "SOCAT_PID=$(cat " ++ pidFile ++ " 2>/dev/null || echo)\n"
  | .kill =>
    "if [ -n \"$SOCAT_PID\" ]; then\n" ++
    "kill $SOCAT_PID 2>/dev/null || true\n" ++
    "for i in 1 2 3 4 5; do\n" ++
    "kill -0 $SOCAT_PID 2>/dev/null || break\n" ++
    "sleep 0.1\n" ++
    "done\n" ++
    "kill -9 $SOCAT_PID 2>/dev/null || true\n" ++
    "fi\n"
  | .removeFiles pidFile logFile => "rm -f " ++ pidFile ++ " " ++ logFile ++ "\n"

/-- The commands for one port when the container starts. -/
def startPort (id ip : String) (port : UInt16 × UInt16) : List HookCmd :=
  [.launch ip port (socatLogFile id port.1), .writePid (socatPidFile id port.1),
    .verify port.2 (socatPidFile id port.1) (socatLogFile id port.1)]

/-- The commands for one port when it stops. -/
def stopPort (id : String) (containerPort : UInt16) : List HookCmd :=
  [.readPid (socatPidFile id containerPort), .kill,
    .removeFiles (socatPidFile id containerPort) (socatLogFile id containerPort)]

def poststartCmds (id ip : String) (ports : List (UInt16 × UInt16)) : List HookCmd :=
  ports.flatMap (startPort id ip)

def poststopCmds (id : String) (ports : List (UInt16 × UInt16)) : List HookCmd :=
  ports.flatMap fun port => stopPort id port.1

/-- The text of a sequence of commands. -/
def hookText (cmds : List HookCmd) : String := cmds.foldr (fun cmd text => cmd.text ++ text) ""

theorem unlines_append (ls ms : List String) : unlines (ls ++ ms) = unlines ls ++ unlines ms := by
  induction ls with
  | nil => exact String.empty_append.symm
  | cons l ls ih =>
    show l ++ "\n" ++ unlines (ls ++ ms) = l ++ "\n" ++ unlines ls ++ unlines ms
    rw [ih, ← String.append_assoc]

theorem hookText_append (xs ys : List HookCmd) :
    hookText (xs ++ ys) = hookText xs ++ hookText ys := by
  induction xs with
  | nil => exact String.empty_append.symm
  | cons cmd xs ih =>
    show cmd.text ++ hookText (xs ++ ys) = cmd.text ++ hookText xs ++ hookText ys
    rw [ih, String.append_assoc]

theorem startPort_text (id ip : String) (port : UInt16 × UInt16) :
    hookText (startPort id ip port) = unlines (socatLine ip port :: socatRest id port) := by
  show unlines _ ++ (unlines _ ++ (unlines _ ++ "")) = _
  rw [String.append_empty, ← unlines_append, ← unlines_append]
  rfl

/-- The poststart script is its commands. -/
theorem poststart_text (id ip : String) (ports : List (UInt16 × UInt16)) :
    poststartHookScript id ip ports = "\n" ++ hookText (poststartCmds id ip ports) := by
  unfold poststartHookScript poststartCmds
  congr 1
  induction ports with
  | nil => rfl
  | cons port ports ih =>
    rw [List.flatMap_cons, List.flatMap_cons, unlines_append, hookText_append, startPort_text, ih]

theorem stopPort_text (id : String) (containerPort : UInt16) :
    hookText (stopPort id containerPort) = poststopPort id containerPort := by
  unfold stopPort hookText poststopPort
  simp only [List.foldr_cons, List.foldr_nil]
  unfold HookCmd.text
  dsimp only
  rw [String.append_empty]
  simp only [String.append_assoc]

/-- The end of a poststop script: the interface and the nerdctl directory are removed. -/
def poststopCleanup (id namespace_ : String) : String :=
  "ip link delete \"" ++ vethName id ++ "\" 2>/dev/null || true\n" ++
    "rm -rf \"" ++ nerdctlDir namespace_ id ++ "\" 2>/dev/null || true\n"

/-- The poststop script is its commands and the cleanup. -/
theorem poststop_text (id namespace_ : String) (ports : List (UInt16 × UInt16)) :
    poststopHookScript id namespace_ ports =
      "\n" ++ hookText (poststopCmds id ports) ++ poststopCleanup id namespace_ := by
  have hports : String.join (ports.map fun port => poststopPort id port.1) =
      hookText (poststopCmds id ports) := by
    induction ports with
    | nil => rfl
    | cons port ports ih =>
      rw [List.map_cons, String.join_cons, ih, ← stopPort_text, poststopCmds, poststopCmds,
        List.flatMap_cons, hookText_append]
  unfold poststopHookScript poststopCleanup
  rw [hports]
  generalize hookText (poststopCmds id ports) = text, vethName id = veth,
    nerdctlDir namespace_ id = dir
  simp only [String.append_assoc]

/-! ## What the commands do -/

/-- The pid files and the `socat` processes of a host, and the variable of a running script. -/
structure HookHost where
  pidFile : String → Option Nat := fun _ => none
  running : Nat → Bool := fun _ => false
  nextPid : Nat := 1
  socatPid : Option Nat := none

/-- One command, and whether the script goes on behind it. `stays` tells whether a process that is
started is still there when it is looked for. -/
def HookCmd.run (stays : Nat → Bool) (h : HookHost) : HookCmd → HookHost × Bool
  | .launch _ _ _ =>
    ({ h with
        running := Function.update h.running h.nextPid (stays h.nextPid)
        nextPid := h.nextPid + 1
        socatPid := some h.nextPid }, true)
  | .writePid pidFile => ({ h with pidFile := Function.update h.pidFile pidFile h.socatPid }, true)
  | .verify _ pidFile _ =>
    if h.socatPid.any h.running then (h, true)
    else ({ h with pidFile := Function.update h.pidFile pidFile none }, false)
  | .readPid pidFile => ({ h with socatPid := h.pidFile pidFile }, true)
  | .kill =>
    ({ h with running := h.socatPid.elim h.running fun pid =>
      Function.update h.running pid false }, true)
  | .removeFiles pidFile _ => ({ h with pidFile := Function.update h.pidFile pidFile none }, true)

/-- A script: the commands in turn, up to one that leaves it. -/
def runHook (stays : Nat → Bool) (h : HookHost) : List HookCmd → HookHost
  | [] => h
  | cmd :: cmds =>
    if (cmd.run stays h).2 then runHook stays (cmd.run stays h).1 cmds else (cmd.run stays h).1

/-- The host when a `socat` has been started and has written its pid. -/
def HookHost.started (stays : Nat → Bool) (h : HookHost) (pidFile : String) : HookHost where
  pidFile := Function.update h.pidFile pidFile (some h.nextPid)
  running := Function.update h.running h.nextPid (stays h.nextPid)
  nextPid := h.nextPid + 1
  socatPid := some h.nextPid

/-- Starting one port: the script goes on when the `socat` stays. -/
theorem run_startPort (stays : Nat → Bool) (h : HookHost) (id ip : String) (port : UInt16 × UInt16)
    (cmds : List HookCmd) :
    runHook stays h (startPort id ip port ++ cmds) =
      if stays h.nextPid then runHook stays (h.started stays (socatPidFile id port.1)) cmds
      else { h.started stays (socatPidFile id port.1) with
        pidFile := Function.update h.pidFile (socatPidFile id port.1) none } := by
  simp only [startPort, List.cons_append, List.nil_append, runHook, HookCmd.run, if_true,
    Option.any_some, Function.update_self]
  split
  · rfl
  · simp [HookHost.started]

/-- The host when one port has been stopped. -/
def HookHost.stopped (h : HookHost) (pidFile : String) : HookHost where
  pidFile := Function.update h.pidFile pidFile none
  running := (h.pidFile pidFile).elim h.running fun pid => Function.update h.running pid false
  nextPid := h.nextPid
  socatPid := h.pidFile pidFile

theorem run_stopPort (stays : Nat → Bool) (h : HookHost) (id : String) (containerPort : UInt16)
    (cmds : List HookCmd) :
    runHook stays h (stopPort id containerPort ++ cmds) =
      runHook stays (h.stopped (socatPidFile id containerPort)) cmds := rfl

theorem stopped_running (h : HookHost) (pidFile : String) (pid : Nat) :
    (h.stopped pidFile).running pid = true ↔ h.running pid = true ∧
      h.pidFile pidFile ≠ some pid := by
  simp only [HookHost.stopped]
  cases hf : h.pidFile pidFile with
  | none => simp
  | some q =>
    by_cases hq : pid = q
    · subst hq; simp
    · simp [hq, Ne.symm hq]

/-- **What poststop ends**: the processes whose pid is in the pid file of a port. -/
theorem poststop_running (stays : Nat → Bool) (h : HookHost) (id : String)
    (ports : List (UInt16 × UInt16)) (pid : Nat) :
    (runHook stays h (poststopCmds id ports)).running pid = true ↔
      h.running pid = true ∧ ∀ port ∈ ports, h.pidFile (socatPidFile id port.1) ≠ some pid := by
  induction ports generalizing h with
  | nil => simp [poststopCmds, runHook]
  | cons port ports ih =>
    rw [poststopCmds, List.flatMap_cons, run_stopPort]
    change (runHook stays _ (poststopCmds id ports)).running pid = true ↔ _
    rw [ih, stopped_running, List.forall_mem_cons, and_assoc]
    refine and_congr_right fun _ => and_congr_right fun hfirst => ?_
    -- a pid file that is already gone held the pid of the first port
    refine forall₂_congr fun other _ => ?_
    simp only [HookHost.stopped]
    by_cases he : socatPidFile id other.1 = socatPidFile id port.1
    · rw [he, Function.update_self]; simp [hfirst]
    · rw [Function.update_of_ne he]

/-! ## Every forwarder that was started -/

/-- What poststart leaves alone: pid files of other ports and processes that were there. -/
theorem poststart_frame (stays : Nat → Bool) (h : HookHost) (id ip : String)
    (ports : List (UInt16 × UInt16)) :
    (∀ f, f ∉ ports.map (fun port => socatPidFile id port.1) →
      (runHook stays h (poststartCmds id ip ports)).pidFile f = h.pidFile f) ∧
    (∀ pid < h.nextPid, (runHook stays h (poststartCmds id ip ports)).running pid = h.running pid) ∧
    h.nextPid ≤ (runHook stays h (poststartCmds id ip ports)).nextPid := by
  induction ports generalizing h with
  | nil => exact ⟨fun _ _ => rfl, fun _ _ => rfl, Nat.le_refl _⟩
  | cons port ports ih =>
    rw [poststartCmds, List.flatMap_cons, run_startPort]
    have hother : ∀ f v, f ∉ (port :: ports).map (fun port => socatPidFile id port.1) →
        Function.update h.pidFile (socatPidFile id port.1) v f = h.pidFile f := by
      intro f v hf
      rw [List.map_cons, List.mem_cons, not_or] at hf
      exact Function.update_of_ne hf.1 _ _
    have hrun : ∀ pid < h.nextPid, (h.started stays (socatPidFile id port.1)).running pid =
        h.running pid := fun pid hp => Function.update_of_ne (by omega) _ _
    split
    · obtain ⟨hfile, hrunning, hnext⟩ := ih (h.started stays (socatPidFile id port.1))
      refine ⟨fun f hf => ?_, fun pid hp => ?_, Nat.le_of_succ_le hnext⟩
      · refine (hfile f fun hm => hf ?_).trans (hother f _ hf)
        rw [List.map_cons]
        exact List.mem_cons_of_mem _ hm
      · exact (hrunning pid (Nat.lt_succ_of_lt hp)).trans (hrun pid hp)
    · exact ⟨fun f hf => hother f none hf, hrun, Nat.le_succ _⟩

/-- With a pid file for each port, every `socat` that stays is in the file of its port. -/
theorem poststart_tracked (stays : Nat → Bool) (h : HookHost) (id ip : String)
    (ports : List (UInt16 × UInt16)) (hd : (ports.map fun port => socatPidFile id port.1).Nodup)
    {pid : Nat} (hfrom : h.nextPid ≤ pid)
    (hto : pid < (runHook stays h (poststartCmds id ip ports)).nextPid)
    (hrun : (runHook stays h (poststartCmds id ip ports)).running pid = true) :
    ∃ port ∈ ports,
      (runHook stays h (poststartCmds id ip ports)).pidFile (socatPidFile id port.1) =
        some pid := by
  induction ports generalizing h with
  | nil => exact absurd (Nat.lt_of_le_of_lt hfrom hto) (Nat.lt_irrefl _)
  | cons port ports ih =>
    rw [List.map_cons, List.nodup_cons] at hd
    rw [poststartCmds, List.flatMap_cons, run_startPort] at hto hrun ⊢
    split at hto
    · rename_i hstays
      rw [if_pos hstays] at hrun ⊢
      rcases Nat.eq_or_lt_of_le hfrom with rfl | hlt
      · -- no later port has the same pid file
        refine ⟨port, List.mem_cons_self, ?_⟩
        exact ((poststart_frame stays _ id ip ports).1 _ hd.1).trans (Function.update_self ..)
      · obtain ⟨other, ho, hf⟩ := ih (h.started stays (socatPidFile id port.1)) hd.2 hlt hto hrun
        exact ⟨other, List.mem_cons_of_mem _ ho, hf⟩
    · rename_i hstays
      rw [if_neg hstays] at hrun
      obtain rfl : pid = h.nextPid := by
        have : pid < h.nextPid + 1 := hto
        omega
      have hr : Function.update h.running h.nextPid (stays h.nextPid) h.nextPid = true := hrun
      rw [Function.update_self] at hr
      exact absurd hr hstays

/-- When every `socat` stays, one is running for each port. -/
theorem poststart_all (h : HookHost) (id ip : String) (ports : List (UInt16 × UInt16)) :
    (runHook (fun _ => true) h (poststartCmds id ip ports)).nextPid = h.nextPid + ports.length ∧
    ∀ pid, h.nextPid ≤ pid → pid < h.nextPid + ports.length →
      (runHook (fun _ => true) h (poststartCmds id ip ports)).running pid = true := by
  induction ports generalizing h with
  | nil => exact ⟨rfl, fun pid hfrom hto => absurd (Nat.lt_of_le_of_lt hfrom hto) (Nat.lt_irrefl _)⟩
  | cons port ports ih =>
    rw [poststartCmds, List.flatMap_cons, run_startPort, if_pos rfl]
    obtain ⟨hnext, hrun⟩ := ih (h.started (fun _ => true) (socatPidFile id port.1))
    have hs : (h.started (fun _ => true) (socatPidFile id port.1)).nextPid = h.nextPid + 1 := rfl
    rw [hs] at hnext hrun
    refine ⟨hnext.trans (by rw [List.length_cons]; omega), fun pid hfrom hto => ?_⟩
    rcases Nat.eq_or_lt_of_le hfrom with rfl | hlt
    · exact ((poststart_frame _ _ id ip ports).2.1 _ (by rw [hs]; omega)).trans
        (Function.update_self ..)
    · exact hrun pid hlt (by rw [List.length_cons] at hto; omega)

/-- Poststop ends every `socat` that poststart started, on any host and whichever of them stay. -/
def HooksTerminate (id ip : String) (ports : List (UInt16 × UInt16)) : Prop :=
  ∀ (stays : Nat → Bool) (h : HookHost) (pid : Nat), h.nextPid ≤ pid →
    pid < (runHook stays h (poststartCmds id ip ports)).nextPid →
    (runHook stays (runHook stays h (poststartCmds id ip ports))
      (poststopCmds id ports)).running pid =
      false

open Classical in
/-- Names under which as many numbers are found as there are names are pairwise distinct. -/
theorem nodup_of_covers {α : Type} {xs : List α} {f : α → Option Nat} {n : Nat}
    (h : ∀ k, n ≤ k → k < n + xs.length → ∃ x ∈ xs, f x = some k) : xs.Nodup := by
  have hsub : (Finset.Ico n (n + xs.length)).image some ⊆ xs.toFinset.image f := by
    intro y hy
    obtain ⟨k, hk, rfl⟩ := Finset.mem_image.mp hy
    obtain ⟨hfrom, hto⟩ := Finset.mem_Ico.mp hk
    obtain ⟨x, hx, hf⟩ := h k hfrom hto
    exact Finset.mem_image.mpr ⟨x, List.mem_toFinset.mpr hx, hf⟩
  have hcard := Finset.card_le_card hsub
  rw [Finset.card_image_of_injective _ (Option.some_injective _), Nat.card_Ico] at hcard
  have hle := Finset.card_image_le (f := f) (s := xs.toFinset)
  have hge : xs.length ≤ xs.toFinset.card := by omega
  have hall : (xs : Multiset α).toFinset.card = Multiset.card (xs : Multiset α) :=
    Nat.le_antisymm (Multiset.toFinset_card_le _) hge
  exact Multiset.coe_nodup.mp (Multiset.toFinset_card_eq_card_iff_nodup.mp hall)

/-- **Poststop ends every forwarder exactly when no two share a pid file.** -/
theorem hooksTerminate_iff (id ip : String) (ports : List (UInt16 × UInt16)) :
    HooksTerminate id ip ports ↔ (ports.map fun port => socatPidFile id port.1).Nodup := by
  constructor
  · intro hterm
    -- when all of them stay, each is ended because its pid is found in a pid file
    have hcovers : ∀ h : HookHost, ∀ pid, h.nextPid ≤ pid → pid < h.nextPid + ports.length →
        ∃ port ∈ ports, (runHook (fun _ => true) h (poststartCmds id ip ports)).pidFile
          (socatPidFile id port.1) = some pid := by
      intro h pid hfrom hto
      obtain ⟨hnext, hrun⟩ := poststart_all h id ip ports
      by_contra hno
      have hstill := (poststop_running (fun _ => true)
        (runHook (fun _ => true) h (poststartCmds id ip ports))
        id ports pid).mpr ⟨hrun pid hfrom hto, fun port hp hf => hno ⟨port, hp, hf⟩⟩
      rw [hterm (fun _ => true) h pid hfrom (by rw [hnext]; exact hto)] at hstill
      cases hstill
    have hfiles := hcovers {}
    generalize runHook (fun _ => true) {} (poststartCmds id ip ports) = h at hfiles
    refine nodup_of_covers (f := h.pidFile) (n := 1) fun pid hfrom hto => ?_
    obtain ⟨port, hp, hf⟩ := hfiles pid hfrom (by rwa [List.length_map] at hto)
    exact ⟨socatPidFile id port.1, List.mem_map.mpr ⟨port, hp, rfl⟩, hf⟩
  · intro hd stays h pid hfrom hto
    cases hrun : (runHook stays h (poststartCmds id ip ports)).running pid with
    | false =>
      by_contra hne
      have := ((poststop_running _ _ _ _ _).mp (Bool.eq_true_of_not_eq_false hne)).1
      rw [hrun] at this
      cases this
    | true =>
      obtain ⟨port, hp, hf⟩ := poststart_tracked stays h id ip ports hd hfrom hto hrun
      by_contra hne
      exact ((poststop_running _ _ _ _ _).mp (Bool.eq_true_of_not_eq_false hne)).2 port hp hf

end ContainerdManager.Container
