import ContainerdManager.Task.Exec

/-!
# Waiting for readiness

`src/readiness.rs`: the health check of an image configuration, the timing
it gives the polling loop, and the loop of `wait_ready` with what it sleeps
and what time it gives each check. Docker takes an interval or a timeout of
zero for the default; `parse_healthcheck` keeps the zero.
-/

namespace ContainerdManager.Task

open Lib Containerd Container Logs

variable {κ : Type}

/-! ## Health checks -/

/-- One second, in nanoseconds. -/
def second : Nat := 1000000000

def defaultHcInterval : Nat := 30 * second

def defaultHcTimeout : Nat := 30 * second

/-- Docker's `HEALTHCHECK`; durations are in nanoseconds. -/
structure HealthCheck where
  test : List String
  interval : Nat
  timeout : Nat
  startPeriod : Nat
  deriving DecidableEq, Repr

/-- The value of a number written without sign, fraction and exponent. -/
def integerText (text : String) : Option Nat :=
  if text ≠ "" ∧ text.toList.all Char.isDigit then some (Nat.ofDigitChars 10 text.toList 0)
  else none

/-- The value of a JSON number that is an integer literal. -/
def asInteger : Json → Option Nat
  | .number text => integerText text
  | _ => none

/-- `Value::as_u64`: an integer that does not fit is read as a float. -/
def asU64 (v : Json) : Option Nat := (asInteger v).filter fun n => decide (n < u64Bound)

/-- The command of a `Test` list, without Docker's prefix. -/
def execArgs : List String → Option (List String)
  | [] => none
  | first :: rest =>
    if first = "NONE" then none
    else if first = "CMD" then (if rest.isEmpty then none else some rest)
    else if first = "CMD-SHELL" then rest.head?.map fun command => ["/bin/sh", "-c", command]
    else some (first :: rest)

/-- The `config.Healthcheck` value of an image configuration. -/
def healthcheckJson (client : Client) (rawConfig : Bytes) : Option Json := do
  let v ← (client.parseJson rawConfig).toOption
  let config ← v.get "config"
  config.get "Healthcheck"

/-- A duration field, `None` unless it is a `u64`. -/
def nanosToDur (hc : Json) (key : String) : Option Nat := (hc.get key).bind asU64

def parseHealthcheck (client : Client) (rawConfig : Bytes) : Option HealthCheck := do
  let hc ← healthcheckJson client rawConfig
  let test ← (hc.get "Test").bind Json.asArray
  let args ← execArgs (test.filterMap Json.asStr)
  return {
    test := args
    interval := (nanosToDur hc "Interval").getD defaultHcInterval
    timeout := (nanosToDur hc "Timeout").getD defaultHcTimeout
    startPeriod := (nanosToDur hc "StartPeriod").getD 0 }

/-! ## The polling loop -/

inductive ReadinessStrategy where
  | processRunning
  | tcpPort (port : UInt16)
  | exec (command : List String)
  | imageHealthcheck
  deriving DecidableEq, Repr

/-- A strategy once the image has been read. -/
inductive ResolvedCheck where
  | processRunning
  | tcpPort (port : UInt16)
  | exec (command : List String)
  deriving DecidableEq, Repr

def initialInterval : Nat := 100 * ms

def maxInterval : Nat := 2 * second

def multiplier : Nat := 2

structure PollTiming where
  initialInterval : Nat := Task.initialInterval
  startPeriod : Nat := 0
  checkTimeout : Option Nat := none
  useBackoff : Bool := true
  deriving DecidableEq, Repr

def getRawImageConfig (client : Client) (image : String) : Proc κ Bytes := do
  match ← call (query client (.getImage image) fun w =>
    (w.images.lookup image).elim (.error .notFound) .ok) with
  | .error code => throw (mapImageStatus "get_image" image code)
  | .ok none => throw (.imageNotFound (image ++ ": no target descriptor"))
  | .ok (some digest) =>
    let metadata ← getImageMetadata client digest
    return metadata.rawConfig

/-- The image configuration of a container. -/
def readRawConfig (client : Client) (id : String) : Proc κ Bytes := do
  let info ← call (inspectContainer client id)
  getRawImageConfig client info.image

/-- The check and the timing of an image's health check, if it has one. -/
def healthcheckPolling : Option HealthCheck → ResolvedCheck × PollTiming
  | some hc =>
    (.exec hc.test,
      { initialInterval := hc.interval
        startPeriod := hc.startPeriod
        checkTimeout := some hc.timeout
        useBackoff := false })
  | none => (.processRunning, {})

def resolveStrategy (client : Client) (id : String) :
    ReadinessStrategy → Proc κ (ResolvedCheck × PollTiming)
  | .processRunning => return (.processRunning, {})
  | .tcpPort port => return (.tcpPort port, {})
  | .exec command => return (.exec command, {})
  | .imageHealthcheck => do
    let rawConfig ← readRawConfig client id
    return healthcheckPolling (parseHealthcheck client rawConfig)

/-- What the loop does with time. -/
inductive PollEvent where
  | sleep (duration : Nat)
  /-- A check and the time it is given, if that is limited. -/
  | check (timeout : Option Nat)
  deriving DecidableEq, Repr

/-- What a wait meets besides containerd. -/
structure ReadyEnv where
  exec : ExecEnv := {}
  /-- A connection made in the `n`-th step succeeds in time. -/
  connect : Nat → Bool := fun _ => true

def runCheck (client : Client) (env : ReadyEnv) (id : String) (check : ResolvedCheck)
    (checkTimeout : Option Nat) (w : World κ) : Bool × World κ :=
  match check with
  | .processRunning => (true, w)
  | .tcpPort _ => (env.connect w.steps, w)
  | .exec command => runExecCheck client env.exec id command checkTimeout w

/-- A round of the loop up to its deadline: the result, if there is one, and the events. -/
def pollRound (client : Client) (env : ReadyEnv) (id : String) (check : ResolvedCheck)
    (timing : PollTiming) (w : World κ) :
    Option (Except Error Unit) × List PollEvent × World κ :=
  match inspectContainer client id w with
  | .error e w => (some (.error e), [], w)
  | .ok info w =>
    match info.task.map TaskInfo.status with
    | none => (some (.error (.taskNotFound id)), [], w)
    | some .stopped => (some (.error (.taskExited id)), [], w)
    | some .running =>
      let (ready, w) := runCheck client env id check timing.checkTimeout w
      (if ready then some (.ok ()) else none, [.check timing.checkTimeout], w)
    | some _ => (none, [], w)

/-- The rounds of `wait_ready`: the result, `none` while the loop goes on, and the events. -/
def pollReady (client : Client) (env : ReadyEnv) (id : String) (timeout : Nat)
    (check : ResolvedCheck) (timing : PollTiming) :
    Nat → Nat → World κ → Option (Except Error Unit) × List PollEvent
  | 0, _, _ => (none, [])
  | rounds + 1, interval, w =>
    match pollRound client env id check timing w with
    | (some result, events, _) => (some result, events)
    | (none, events, w) =>
      if client.late w.steps then
        (some (.error (.timeout ("container " ++ id ++ " did not become ready within " ++
          debugDuration timeout))), events)
      else
        let interval' :=
          if timing.useBackoff then min (interval * multiplier) maxInterval else interval
        let (result, more) :=
          pollReady client env id timeout check timing rounds interval' (w.advance client)
        (result, events ++ .sleep interval :: more)

def waitReady (client : Client) (env : ReadyEnv) (id : String) (timeout : Nat)
    (strategy : ReadinessStrategy) (rounds : Nat) (w : World κ) :
    Option (Except Error Unit) × List PollEvent :=
  match (resolveStrategy client id strategy).run w with
  | .error e _ => (some (.error e), [])
  | .ok (check, timing) w =>
    let (result, events) :=
      pollReady client env id timeout check timing rounds timing.initialInterval w
    (result, (if timing.startPeriod = 0 then [] else [.sleep timing.startPeriod]) ++ events)

/-! ## What the loop does with time -/

theorem pollRound_events (client : Client) (env : ReadyEnv) (id : String) (check : ResolvedCheck)
    (timing : PollTiming) (w : World κ) :
    ∀ event ∈ (pollRound client env id check timing w).2.1, event = .check timing.checkTimeout := by
  unfold pollRound
  split
  · exact List.forall_mem_nil _
  · split
    · exact List.forall_mem_nil _
    · exact List.forall_mem_nil _
    · exact fun event he => List.mem_singleton.mp he
    · exact List.forall_mem_nil _

/-- **Without backoff** the loop sleeps for its interval and gives each check the same time. -/
theorem pollReady_events {client : Client} {env : ReadyEnv} {id : String} {timeout : Nat}
    {check : ResolvedCheck} {timing : PollTiming} (hb : timing.useBackoff = false)
    (rounds interval : Nat) (w : World κ) :
    ∀ event ∈ (pollReady client env id timeout check timing rounds interval w).2,
      event = .sleep interval ∨ event = .check timing.checkTimeout := by
  induction rounds generalizing w with
  | zero => exact List.forall_mem_nil _
  | succ rounds ih =>
    have hround := pollRound_events client env id check timing w
    unfold pollReady
    split
    · rename_i hr
      rw [hr] at hround
      exact fun event he => .inr (hround event he)
    · rename_i w' hr
      rw [hr] at hround
      split
      · exact fun event he => .inr (hround event he)
      · simp only [hb, Bool.false_eq_true, if_false]
        intro event he
        rcases List.mem_append.mp he with he | he
        · exact .inr (hround event he)
        · rcases List.mem_cons.mp he with rfl | he
          · exact .inl rfl
          · exact ih _ event he

/-- A sleep is not empty, and no check is given no time. -/
def PollEvent.Positive : PollEvent → Prop
  | .sleep duration => 0 < duration
  | .check timeout => timeout ≠ some 0

theorem resolveStrategy_image {client : Client} {id : String} {rawConfig : Bytes} {w w' : World κ}
    (h : (readRawConfig client id).run w = .ok rawConfig w') :
    (resolveStrategy client id .imageHealthcheck).run w =
      .ok (healthcheckPolling (parseHealthcheck client rawConfig)) w' := by
  rw [resolveStrategy, Prog.run_bind, bind_ok h]
  rfl

/-- **A wait for a health check with positive durations** spends positive times only. -/
theorem waitReady_positive {client : Client} {env : ReadyEnv} {id : String} {timeout : Nat}
    {rawConfig : Bytes} {hc : HealthCheck} (hp : parseHealthcheck client rawConfig = some hc)
    (hi : 0 < hc.interval) (ht : 0 < hc.timeout) (rounds : Nat) {w w' : World κ}
    (hr : (readRawConfig client id).run w = .ok rawConfig w') :
    ∀ event ∈ (waitReady client env id timeout .imageHealthcheck rounds w).2, event.Positive := by
  have hres := resolveStrategy_image hr
  rw [hp] at hres
  unfold waitReady
  simp only [hres, healthcheckPolling]
  intro event he
  rcases List.mem_append.mp he with he | he
  · split at he
    · cases he
    · rename_i hs
      rw [List.mem_singleton.mp he]
      exact Nat.pos_of_ne_zero hs
  · rcases pollReady_events rfl _ _ _ event he with rfl | rfl
    · exact hi
    · exact fun h => Nat.ne_of_gt ht (Option.some.inj h)

/-! ## Docker's values -/

/-- The duration Docker takes for a field: the default for a missing one and for zero, else the
number of nanoseconds; `none` where the field is not an integer. -/
def dockerDuration (default_ : Nat) : Option Json → Option Nat
  | none => some default_
  | some v => (asInteger v).map fun n => if n = 0 then default_ else n

/-- The timing of a health check is Docker's, and positive, and so is all a wait does with it. -/
structure DockerTiming (κ : Type) (client : Client) (rawConfig : Bytes) (field : Json)
    (hc : HealthCheck) : Prop where
  interval : ∀ n ∈ dockerDuration defaultHcInterval (field.get "Interval"), hc.interval = n
  timeout : ∀ n ∈ dockerDuration defaultHcTimeout (field.get "Timeout"), hc.timeout = n
  interval_pos : 0 < hc.interval
  timeout_pos : 0 < hc.timeout
  events : ∀ (env : ReadyEnv) (id : String) (timeout rounds : Nat) (w w' : World κ),
    (readRawConfig client id).run w = .ok rawConfig w' →
      ∀ event ∈ (waitReady client env id timeout .imageHealthcheck rounds w).2, event.Positive

/-- Where the field `key` is an integer, it is a positive one that fits in a `u64`. -/
def PositiveField (field : Json) (key : String) : Prop :=
  ∀ n ∈ (field.get key).bind asInteger, 0 < n ∧ n < u64Bound

/-- The duration of a field is Docker's and positive exactly when an integer in it is positive and
fits. -/
theorem nanosToDur_docker_iff (field : Json) (key : String) (default_ : Nat) (hd : 0 < default_)
    (hb : default_ < u64Bound) :
    (∀ n ∈ dockerDuration default_ (field.get key),
      (nanosToDur field key).getD default_ = n) ∧ 0 < (nanosToDur field key).getD default_ ↔
      PositiveField field key := by
  unfold nanosToDur PositiveField dockerDuration asU64
  cases field.get key with
  | none => simp [hd]
  | some v =>
    simp only [Option.bind_some]
    cases asInteger v with
    | none => simp [hd]
    | some n =>
      rw [Option.filter_some]
      by_cases hn : n < u64Bound
      · rw [if_pos (decide_eq_true hn)]
        rcases Nat.eq_zero_or_pos n with rfl | hpos
        · simp
        · simp [hn, hpos, Nat.ne_of_gt hpos]
      · have hpos : n ≠ 0 := fun h => hn (by rw [h]; decide)
        rw [if_neg (by simpa using hn)]
        simp [hpos]
        omega

/-- The parts of a health check. -/
theorem parseHealthcheck_some {client : Client} {rawConfig : Bytes} {hc : HealthCheck}
    (h : parseHealthcheck client rawConfig = some hc) :
    ∃ field, healthcheckJson client rawConfig = some field ∧
      hc.interval = (nanosToDur field "Interval").getD defaultHcInterval ∧
      hc.timeout = (nanosToDur field "Timeout").getD defaultHcTimeout := by
  unfold parseHealthcheck at h
  simp only [Option.bind_eq_bind, Option.bind_eq_some_iff, Option.pure_def, Option.some.injEq] at h
  obtain ⟨field, hf, test, -, args, -, rfl⟩ := h
  exact ⟨field, hf, rfl, rfl⟩

/-- **A health check has Docker's timing exactly when its integer fields are positive and fit in a
`u64`.** -/
theorem parseHealthcheck_docker_iff (κ : Type) (client : Client) (rawConfig : Bytes)
    (hc : HealthCheck) (h : parseHealthcheck client rawConfig = some hc) :
    ∃ field, healthcheckJson client rawConfig = some field ∧
      (DockerTiming κ client rawConfig field hc ↔
        PositiveField field "Interval" ∧ PositiveField field "Timeout") := by
  obtain ⟨field, hf, hi, ht⟩ := parseHealthcheck_some h
  have hinterval := nanosToDur_docker_iff field "Interval" defaultHcInterval (by decide) (by decide)
  have htimeout := nanosToDur_docker_iff field "Timeout" defaultHcTimeout (by decide) (by decide)
  rw [← hi] at hinterval
  rw [← ht] at htimeout
  refine ⟨field, hf, fun hd => ?_, fun hp => ?_⟩
  · exact ⟨hinterval.mp ⟨hd.interval, hd.interval_pos⟩, htimeout.mp ⟨hd.timeout, hd.timeout_pos⟩⟩
  · obtain ⟨h1, h2⟩ := hinterval.mpr hp.1
    obtain ⟨h3, h4⟩ := htimeout.mpr hp.2
    exact ⟨h1, h3, h2, h4,
      fun env id timeout rounds w w' hr => waitReady_positive h h2 h4 rounds hr⟩

/-- An image configuration with a health check of the given durations. -/
def healthcheckConfig (interval timeout : String) : Json :=
  .object [("config", .object [("Healthcheck", .object [
    ("Test", .array [.string "CMD", .string "true"]),
    ("Interval", .number interval),
    ("Timeout", .number timeout)])])]

/-- A client that reads it. -/
def readsHealthcheck (interval timeout : String) : Client where
  parseJson _ := .ok (healthcheckConfig interval timeout)

/-- An interval and a timeout of ten seconds are Docker's. -/
theorem parseHealthcheck_ten : ∃ hc field,
    parseHealthcheck (readsHealthcheck "10000000000" "10000000000") [] = some hc ∧
      healthcheckJson (readsHealthcheck "10000000000" "10000000000") [] = some field ∧
      DockerTiming Unit (readsHealthcheck "10000000000" "10000000000") [] field hc := by
  have h : parseHealthcheck (readsHealthcheck "10000000000" "10000000000") [] =
      some ⟨["true"], 10000000000, 10000000000, 0⟩ := by decide +kernel
  obtain ⟨field, hf, hiff⟩ := parseHealthcheck_docker_iff Unit _ [] _ h
  have hread : (healthcheckJson (readsHealthcheck "10000000000" "10000000000") []).all
      fun field => (field.get "Interval").bind asInteger = some 10000000000 ∧
        (field.get "Timeout").bind asInteger = some 10000000000 := by decide +kernel
  rw [hf, Option.all_some, decide_eq_true_eq] at hread
  refine ⟨_, field, h, hf, hiff.mpr ⟨fun n hn => ?_, fun n hn => ?_⟩⟩
  · cases hread.1.symm.trans hn
    decide
  · cases hread.2.symm.trans hn
    decide

/-- Docker takes zero for thirty seconds; here it stays zero. -/
theorem parseHealthcheck_zero :
    ¬ ∀ (client : Client) (rawConfig : Bytes) (hc : HealthCheck) (field : Json),
      parseHealthcheck client rawConfig = some hc →
      healthcheckJson client rawConfig = some field →
        DockerTiming Unit client rawConfig field hc := by
  intro h
  have hp : parseHealthcheck (readsHealthcheck "0" "0") [] = some ⟨["true"], 0, 0, 0⟩ := by
    decide +kernel
  obtain ⟨field, hf, -⟩ := parseHealthcheck_some hp
  exact Nat.lt_irrefl 0 (h _ [] _ field hp hf).interval_pos

end ContainerdManager.Task
