import ContainerdManager.Lib.Runs
import ContainerdManager.Tailer.Runs

/-!
# Starting a container whose tailer is still managed

`Client::start_container` of `src/client.rs` on a container that was stopped
without being deleted: the raw files are truncated, the task is started, a
new tailer is spawned and inserted, and only then is the tailer of the
previous run stopped. Until it sees the signal the old tailer keeps making
passes over the files of the new run. `restart_records` says which passes do
no harm: those that find nothing to record.
-/

namespace ContainerdManager.Client

open Lib Logs Tailer

/-- Where `Client::start_container` is, by the step that comes next. -/
inductive StartPc where
  | truncateOut
  | truncateErr
  | startTask
  | spawn
  | insert
  | stopOld
  /-- The old tailer has been signalled. -/
  | done
  deriving DecidableEq, Repr

def StartPc.next : StartPc → StartPc
  | .truncateOut => .truncateErr
  | .truncateErr => .startTask
  | .startTask => .spawn
  | .spawn => .insert
  | .insert => .stopOld
  | .stopOld => .done
  | .done => .done

/-- The raw file of the stream is that of the new run. -/
def StartPc.truncated : StartPc → LogStream → Bool
  | .truncateOut, _ => false
  | .truncateErr, stream => decide (stream = .stdout)
  | _, _ => true

/-- The task of the new run may write. -/
def StartPc.running : StartPc → Bool
  | .truncateOut | .truncateErr | .startTask => false
  | .spawn | .insert | .stopOld | .done => true

/-- The new tailer has been spawned. -/
def StartPc.spawned : StartPc → Bool
  | .truncateOut | .truncateErr | .startTask | .spawn => false
  | .insert | .stopOld | .done => true

inductive Which where
  | old
  | new
  deriving DecidableEq, Repr

/-- A batch handed to `append_batch`: by which tailer, and whether from a file of the new run. -/
structure Emission where
  who : Which
  overNew : Bool
  batch : Bytes
  deriving DecidableEq, Repr

structure RestartSys where
  pc : StartPc := .truncateOut
  raw : LogStream → Option Bytes
  tailer : Which → TailerLoop
  dir : EventsDir
  appended : List Emission := []

/-- The batches from files of the new run, and by whom. -/
def emittedOf (appended : List Emission) : List (Which × Bytes) :=
  (appended.filter Emission.overNew).map fun e => (e.who, e.batch)

def RestartSys.emitted (s : RestartSys) : List (Which × Bytes) := emittedOf s.appended

/-- The call finds the raw files, the managed tailer and the events files of the previous run. -/
def RestartSys.init (raw : LogStream → Option Bytes) (old : TailerLoop) (dir : EventsDir) :
    RestartSys where
  raw := raw
  tailer
    | .old => old
    | .new => {}
  dir := dir

inductive RestartAct where
  /-- The next step of `start_container`. -/
  | advance
  /-- The new task appends to a raw file. -/
  | write (stream : LogStream) (data : Bytes)
  /-- A step of a tailer; the task appends `grown` to the file while it is read, and `stop` tells
  which branch a wait takes if the signal is there. -/
  | tick (which : Which) (ino : Nat) (now : Int) (grown : Bytes) (stop : Bool)

/-- What a step of `start_container` does to the raw files. -/
def StartPc.files (pc : StartPc) (raw : LogStream → Option Bytes) : LogStream → Option Bytes :=
  match pc with
  | .truncateOut => Function.update raw .stdout (some [])
  | .truncateErr => Function.update raw .stderr (some [])
  | _ => raw

/-- Whether a step of a tailer is a pass over a file of the new run. -/
def RestartSys.overNew (s : RestartSys) (which : Which) : Bool :=
  (s.tailer which).pc.stream.any s.pc.truncated

def RestartSys.step (s : RestartSys) : RestartAct → Option RestartSys
  | .advance =>
    if s.pc = .done then none
    else some { s with pc := s.pc.next, raw := s.pc.files s.raw }
  | .write stream data =>
    if s.pc.running then
      some { s with raw := Function.update s.raw stream (some ((s.raw stream).getD [] ++ data)) }
    else none
  | .tick which ino now grown stop =>
    let env : PassEnv := { ino := ino, now := now, grown := grown }
    -- the new tailer runs once spawned, and only a running task appends
    if which = .new ∧ s.pc.spawned = false ∨ grown ≠ [] ∧ s.pc.running = false then none
    else
      let stop := stop && decide (which = .old) && decide (s.pc = .done)
      let batch := (s.tailer which).batch env s.raw
      match (s.tailer which).tick env stop s.raw s.dir with
      | (tailer, dir) =>
        some { s with
          raw := growRaw s.raw (s.tailer which).pc grown
          tailer := Function.update s.tailer which tailer
          dir := dir
          appended :=
            if batch.isEmpty then s.appended
            else s.appended ++ [⟨which, s.overNew which, batch⟩] }

/-- The data of the records of the new run, by stream. -/
def RestartSys.recorded (s : RestartSys) (stream : LogStream) : List Bytes :=
  ((s.emitted.flatMap fun e => parseEventsFile e.2).filter fun e => e.stream = stream).map
    LogEntry.data

/-- The old tailer's passes over files of the new run find nothing to record. -/
def OldSilent (s : RestartSys) : RestartAct → Prop
  | .tick .old _ _ _ _ => ∀ stream, (s.tailer .old).pc.stream = some stream →
      s.pc.truncated stream = true →
      NothingToRecord ((s.raw stream).getD []) ((s.tailer .old).tail stream)
  | .tick .new _ _ _ _ | .advance | .write _ _ => True

instance (s : RestartSys) : DecidablePred (OldSilent s)
  | .tick .old _ _ _ _ => inferInstanceAs (Decidable (∀ _, _))
  | .tick .new _ _ _ _ | .advance | .write _ _ => .isTrue trivial

/-! ## A step of a tailer -/

theorem emittedOf_append (appended : List Emission) (e : Emission) :
    emittedOf (if e.batch.isEmpty then appended else appended ++ [e]) =
      if e.overNew && !e.batch.isEmpty then emittedOf appended ++ [(e.who, e.batch)]
      else emittedOf appended := by
  cases he : e.batch.isEmpty <;> cases ho : e.overNew <;> simp [emittedOf, ho]

/-- What a step of a tailer does. -/
structure RestartSys.Ticked (s s' : RestartSys) (which : Which) (env : PassEnv) (stop : Bool) :
    Prop where
  io : env.io = noFaults
  spawned : which = .new → s.pc.spawned = true
  pc : s'.pc = s.pc
  raw : s'.raw = growRaw s.raw (s.tailer which).pc env.grown
  tailer : s'.tailer =
    Function.update s.tailer which ((s.tailer which).tick env stop s.raw s.dir).1
  dir : s'.dir = ((s.tailer which).tick env stop s.raw s.dir).2
  appended : s'.appended =
    if ((s.tailer which).batch env s.raw).isEmpty then s.appended
    else s.appended ++ [⟨which, s.overNew which, (s.tailer which).batch env s.raw⟩]

theorem RestartSys.ticked {s s' : RestartSys} {which : Which} {ino : Nat} {now : Int}
    {grown : Bytes} {stop : Bool} (hs : s.step (.tick which ino now grown stop) = some s') :
    ∃ stop', s.Ticked s' which { ino := ino, now := now, grown := grown } stop' := by
  simp only [RestartSys.step] at hs
  split at hs
  case isTrue => cases hs
  case isFalse hguard =>
    cases hs
    refine ⟨_, rfl, fun hw => ?_, rfl, rfl, rfl, rfl, rfl⟩
    cases hp : s.pc.spawned with
    | true => rfl
    | false => exact absurd (.inl ⟨hw, hp⟩) hguard

theorem RestartSys.Ticked.emitted {s s' : RestartSys} {which : Which} {env : PassEnv} {stop : Bool}
    (h : s.Ticked s' which env stop) :
    s'.emitted =
      if s.overNew which && !((s.tailer which).batch env s.raw).isEmpty then
        s.emitted ++ [(which, (s.tailer which).batch env s.raw)]
      else s.emitted := by
  rw [RestartSys.emitted, h.appended]
  exact emittedOf_append s.appended ⟨which, s.overNew which, _⟩

/-! ## The invariant -/

/-- Only the new tailer has recorded anything of the new run, and it conserves both streams. A file
that is not truncated yet is none of its business. -/
structure RestartSys.Inv (s : RestartSys) : Prop where
  only : ∀ e ∈ s.emitted, e.1 = .new
  idle : s.pc.spawned = false → s.emitted = [] ∧ s.tailer .new = {}
  streams : s.pc.spawned = true →
    ∃ recs : List Record, s.emitted.flatMap (fun e => parseEventsFile e.2) = recs.map Record.entry ∧
      ∀ stream, StreamInv (dataOn stream recs) (s.raw stream) ((s.tailer .new).tail stream)

theorem RestartSys.Inv.init (raw : LogStream → Option Bytes) (old : TailerLoop) (dir : EventsDir) :
    (RestartSys.init raw old dir).Inv where
  only := by simp [RestartSys.init, RestartSys.emitted, emittedOf]
  idle _ := ⟨rfl, rfl⟩
  streams h := by cases h

theorem RestartSys.Inv.advance {s s' : RestartSys} (h : s.Inv) (hs : s.step .advance = some s') :
    s'.Inv := by
  simp only [RestartSys.step] at hs
  split at hs
  case isTrue => cases hs
  case isFalse hpc =>
    cases hs
    by_cases hsp : s.pc.spawned = true
    · have hfiles : s.pc.files s.raw = s.raw := by
        cases hp : s.pc <;> simp_all [StartPc.files, StartPc.spawned]
      have hnext : s.pc.next.spawned = true := by
        cases hp : s.pc <;> simp_all [StartPc.next, StartPc.spawned]
      refine ⟨h.only, fun hn => ?_, fun _ => ?_⟩
      · exact absurd (hnext.symm.trans hn) (by decide)
      · simp only [hfiles]
        exact h.streams hsp
    · obtain ⟨hem, hnew⟩ := h.idle (by simpa using hsp)
      refine ⟨h.only, fun _ => ⟨hem, hnew⟩, fun _ => ⟨[], ?_, fun stream => ?_⟩⟩
      · show s.emitted.flatMap _ = _
        rw [hem]
        rfl
      · simp only [hnew]
        exact .init _

theorem spawned_truncated {pc : StartPc} (h : pc.spawned = true) (stream : LogStream) :
    pc.truncated stream = true := by
  cases pc <;> simp_all [StartPc.spawned, StartPc.truncated]

theorem RestartSys.Inv.write {s s' : RestartSys} (h : s.Inv) {stream : LogStream} {data : Bytes}
    (hs : s.step (.write stream data) = some s') : s'.Inv := by
  simp only [RestartSys.step] at hs
  split at hs
  case isFalse => cases hs
  case isTrue =>
    cases hs
    refine ⟨h.only, h.idle, fun hsp => ?_⟩
    obtain ⟨recs, hrecs, hinv⟩ := h.streams hsp
    exact ⟨recs, hrecs, StreamInv.writeRaw hinv stream data⟩

/-- A step of the old tailer records nothing of the new run. -/
theorem RestartSys.Inv.tickOld {s s' : RestartSys} (h : s.Inv) {ino : Nat} {now : Int}
    {grown : Bytes} {stop : Bool} (hok : OldSilent s (.tick .old ino now grown stop))
    (hs : s.step (.tick .old ino now grown stop) = some s') : s'.Inv := by
  obtain ⟨stop', ht⟩ := RestartSys.ticked hs
  have hem : s'.emitted = s.emitted := by
    rw [ht.emitted, if_neg]
    cases hst : (s.tailer .old).pc.stream with
    | none => simp [RestartSys.overNew, hst]
    | some stream =>
      cases htr : s.pc.truncated stream with
      | false => simp [RestartSys.overNew, hst, htr]
      | true =>
        have := drainRaw_silent { ino := ino, now := now, grown := grown } rfl
          (hok stream hst htr) stream
        simp [TailerLoop.batch, hst, this]
  have hnew : s'.tailer .new = s.tailer .new := by
    rw [ht.tailer, Function.update_of_ne (show Which.new ≠ .old by decide)]
  refine ⟨hem ▸ h.only, fun hsp => ?_, fun hsp => ?_⟩
  · rw [hem, hnew]
    exact h.idle (ht.pc ▸ hsp)
  · obtain ⟨recs, hrecs, hinv⟩ := h.streams (ht.pc ▸ hsp)
    refine ⟨recs, hem ▸ hrecs, fun stream => ?_⟩
    rw [hnew, ht.raw]
    exact StreamInv.growRaw (hinv stream) _ _

theorem RestartSys.Inv.tickNew {s s' : RestartSys} (h : s.Inv) {ino : Nat} {now : Int}
    {grown : Bytes} {stop : Bool} (hs : s.step (.tick .new ino now grown stop) = some s') :
    s'.Inv := by
  obtain ⟨stop', ht⟩ := RestartSys.ticked hs
  have hsp : s.pc.spawned = true := ht.spawned rfl
  obtain ⟨recs, hrecs, hinv⟩ := h.streams hsp
  obtain ⟨more, hbatch, -, hstreams⟩ := tick_spec hinv
    { ino := ino, now := now, grown := grown } ht.io stop' s.dir
  have hem := ht.emitted
  refine ⟨fun e he => ?_, fun hn => absurd ((ht.pc ▸ hsp).symm.trans hn) (by decide),
    fun _ => ⟨recs ++ more, ?_, fun stream => ?_⟩⟩
  · rw [hem] at he
    split at he
    · rcases List.mem_append.mp he with he | he
      · exact h.only e he
      · rw [List.mem_singleton.mp he]
    · exact h.only e he
  · rw [hem, hbatch, encodeAll_isEmpty]
    split
    · rw [List.flatMap_append, hrecs, List.map_append]
      simp [parseEventsFile_encodeAll]
    · rename_i hc
      have hnil : more = [] := by
        cases hst : (s.tailer .new).pc.stream with
        | none =>
          have he : (encodeAll more).isEmpty = true := by
            rw [← hbatch, TailerLoop.batch, hst]
            rfl
          rw [encodeAll_isEmpty] at he
          exact List.isEmpty_iff.mp he
        | some stream =>
          simpa [RestartSys.overNew, hst, spawned_truncated hsp] using hc
      rw [hnil, hrecs, List.append_nil]
  · rw [dataOn_append, ht.tailer, Function.update_self, ht.raw]
    exact StreamInv.growRaw (hstreams stream) _ _

theorem RestartSys.Inv.step {s s' : RestartSys} {a : RestartAct} (h : s.Inv) (hok : OldSilent s a)
    (hs : s.step a = some s') : s'.Inv := by
  cases a with
  | advance => exact h.advance hs
  | write stream data => exact h.write hs
  | tick which ino now grown stop =>
    cases which with
    | old => exact h.tickOld hok hs
    | new => exact h.tickNew hs

/-! ## The events files -/

/-- What the call finds of the previous runs: the partial lines of the managed tailer are short
ones, and the events files are those of `append_batch` calls, the history `before`. -/
structure Found (old : TailerLoop) (dir : EventsDir) (before : AppendHistory) : Prop where
  short : ∀ stream, (old.tail stream).leftover.length < maxLeftoverBytes
  dir : dir = before.dir
  calls : ∃ calls : List AppendCall, before = calls.foldl AppendHistory.call .init

/-- Every batch so far went to the events files, through the calls `calls`. -/
structure RestartSys.Wrote (s : RestartSys) (before : AppendHistory)
    (calls : List (List Record × Nat)) : Prop where
  short : ∀ which stream, ((s.tailer which).tail stream).leftover.length < maxLeftoverBytes
  handed : s.appended.map Emission.batch = calls.map fun c => encodeAll c.1
  dir : s.dir = (before.appends calls).dir

theorem RestartSys.Wrote.init {raw : LogStream → Option Bytes} {old : TailerLoop}
    {dir : EventsDir} {before : AppendHistory} (h : Found old dir before) :
    (RestartSys.init raw old dir).Wrote before [] where
  short
    | .old => h.short
    | .new => fun _ => Nat.two_pow_pos 20
  handed := rfl
  dir := h.dir

theorem RestartSys.Wrote.tick {s s' : RestartSys} {before : AppendHistory}
    {calls : List (List Record × Nat)} (h : s.Wrote before calls) {which : Which} {env : PassEnv}
    {stop : Bool} (ht : s.Ticked s' which env stop) : ∃ calls', s'.Wrote before calls' := by
  obtain ⟨recs, hbatch, hdir, hshort⟩ := tick_records (h.short which) env ht.io stop s.raw s.dir
  have hall : ∀ other stream,
      ((s'.tailer other).tail stream).leftover.length < maxLeftoverBytes := by
    intro other stream
    rw [ht.tailer]
    by_cases he : other = which
    · subst he
      rw [Function.update_self]
      exact hshort stream
    · rw [Function.update_of_ne he]
      exact h.short other stream
  have happ := ht.appended
  rw [hbatch, encodeAll_isEmpty] at happ
  rw [← ht.dir] at hdir
  cases hrecs : recs.isEmpty with
  | true =>
    rw [hrecs, if_pos rfl] at happ hdir
    exact ⟨calls, hall, happ ▸ h.handed, hdir.trans h.dir⟩
  | false =>
    rw [hrecs, if_neg Bool.false_ne_true] at happ hdir
    refine ⟨calls ++ [(recs, env.ino)], hall, ?_, ?_⟩
    · rw [happ, List.map_append, List.map_append, h.handed]
      rfl
    · rw [hdir, h.dir, AppendHistory.appends_snoc]
      rfl

theorem RestartSys.Wrote.step {s s' : RestartSys} {before : AppendHistory} {a : RestartAct}
    (h : ∃ calls, s.Wrote before calls) (hs : s.step a = some s') :
    ∃ calls, s'.Wrote before calls := by
  obtain ⟨calls, h⟩ := h
  cases a with
  | advance | write =>
    simp only [RestartSys.step] at hs
    split at hs <;> cases hs
    exact ⟨calls, h.short, h.handed, h.dir⟩
  | tick which ino now grown stop =>
    obtain ⟨stop', ht⟩ := RestartSys.ticked hs
    exact h.tick ht

end ContainerdManager.Client
