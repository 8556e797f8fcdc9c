/-
# Runs, restarts and crashes

The life of a device: provisioned, opened, called, stopped, opened again, with crashes between any
two durable steps of a call or of a constructor.  The invariant holds throughout
(`Reachable.device_good`), so every construction along the way succeeds.
-/
import AegisShield.Engine.Invariant

namespace AegisShield

open Lib Relation

variable {W : World} {md : Metadata}

/-! ## 1. Runs of calls -/

/-- The system after a list of calls, completed or refused. -/
def runCalls (s : Sys W) (calls : List EngineCall) : Sys W :=
  calls.foldl (fun s c => (c.run s).2) s

theorem runCalls_concat (s : Sys W) (calls : List EngineCall) (c : EngineCall) :
    runCalls s (calls ++ [c]) = (c.run (runCalls s calls)).2 := by
  rw [runCalls, List.foldl_append]
  rfl

theorem runCalls_good {ws : List (Write md)} {es : List (AuditEntry W.R)} {p : Saved W.R}
    {s : Sys W} (h : Good ws es p s) (calls : List EngineCall) :
    ∃ (ws' : List (Write md)) (es' : _) (p' : _), Good ws' es' p' (runCalls s calls) :=
  run_invariant (I := fun s => ∃ (ws' : List (Write md)) (es' : _) (p' : _), Good ws' es' p' s)
    ⟨ws, es, p, h⟩ calls fun _ c _ ⟨_, _, _, h⟩ => (c.good h).1

/-! ## 2. Crash points -/

/-- The files after the first `n` of some durable steps. -/
def Disk.cut (d : Disk) (es : List Effect) (n : Nat) : Disk := (es.take n).foldl Disk.step d

/-- The durable steps of a call. -/
def EngineCall.effects (s : Sys W) (c : EngineCall) : List Effect :=
  (c.run s).2.trace.drop s.trace.length

/-- What holds at the steps between two systems holds at the crash points between them. -/
theorem Emits.cut {P : Disk → Effect → Prop} {s s' : Sys W} (h : Emits P s s') (n : Nat) :
    (∃ e, (s'.trace.drop s.trace.length)[n]? = some e ∧
        P (s.disk.cut (s'.trace.drop s.trace.length) n) e) ∨
      s.disk.cut (s'.trace.drop s.trace.length) n = s'.disk := by
  obtain ⟨es, htrace, hdisk, halong⟩ := h
  rw [htrace, List.drop_left, Disk.cut]
  cases hn : es[n]? with
  | some e => exact Or.inl ⟨e, rfl, halong.of_getElem? hn⟩
  | none =>
    right
    rw [List.take_of_length_le (List.getElem?_eq_none_iff.mp hn), hdisk]

/-- A save of this state and this version. -/
def SaveOf (W : World) (state : AegisState) (version : Int) (file : Option Bytes) : Prop :=
  ∃ p : Saved W.R, p.state = state ∧ p.stateVersion = version ∧ file = some p.bytes

theorem SaveOf.stateFile {state : AegisState} {version : Int} {file : Option Bytes}
    (h : SaveOf W state version file) : StateFile W file := by
  obtain ⟨p, -, -, hp⟩ := h
  exact Or.inr ⟨p, hp⟩

theorem Good.saveOf {ws : List (Write md)} {es : List (AuditEntry W.R)} {p : Saved W.R} {s : Sys W}
    (h : Good ws es p s) : SaveOf W s.engine.state s.engine.stateVersion s.disk.state :=
  ⟨p, h.state, h.version, h.file⟩

/-- The files of a running engine are files it could leave behind. -/
theorem Good.rested {ws : List (Write md)} {es : List (AuditEntry W.R)} {p : Saved W.R} {s : Sys W}
    (h : Good ws es p s) : Rested W ws es s.disk := h.journal.rested h.reads

/-- **The steps of a call** are taken on ledgers in order and on a save of the state from before
the call. -/
theorem EngineCall.emits {ws : List (Write md)} {es : List (AuditEntry W.R)} {p : Saved W.R}
    {s : Sys W} (h : Good ws es p s) (c : EngineCall) :
    Emits (fun d e => Orderly W md d e ∧
      SaveOf W s.engine.state s.engine.stateVersion d.state) s (c.run s).2 := by
  obtain ⟨hstate, -⟩ := c.emits_state
    (X := SaveOf W s.engine.state s.engine.stateVersion) h.sound
    (fun q h1 h2 => ⟨q, h1, h2, rfl⟩) h.saveOf
  exact (c.good h).2.and hstate

/-- **The files at a crash point of a call.**  The ledgers are in order, and the state file is a
save of the state before the call or of the state after it. -/
theorem EngineCall.cut_rested {ws : List (Write md)} {es : List (AuditEntry W.R)} {p : Saved W.R}
    {s : Sys W} (h : Good ws es p s) (c : EngineCall) (n : Nat) :
    ∃ (ws' : List (Write md)) (es' : _), Rested W ws' es' (s.disk.cut (c.effects s) n) ∧
      (SaveOf W s.engine.state s.engine.stateVersion (s.disk.cut (c.effects s) n).state ∨
        SaveOf W (c.run s).2.engine.state (c.run s).2.engine.stateVersion
          (s.disk.cut (c.effects s) n).state) := by
  rcases (c.emits h).cut n with ⟨e, -, ⟨⟨ws₁, j, hj⟩, es₁, hreads, -⟩, hsave⟩ | hend
  · exact ⟨ws₁, es₁, hj.rested hreads, Or.inl hsave⟩
  · obtain ⟨⟨ws', es', p', hgood⟩, -⟩ := c.good h
    rw [EngineCall.effects, hend]
    exact ⟨ws', es', hgood.rested, Or.inr hgood.saveOf⟩

/-- **The files at a crash point of a constructor.** -/
theorem Reopened.cut_rested {ws : List (Write md)} {es : List (AuditEntry W.R)} {ticks : Nat}
    {d : Disk} {s : Sys W} (h : Reopened ws es ticks d s) (hfile : StateFile W d.state) (n : Nat) :
    ∃ (ws' : List (Write md)) (es' : _), Rested W ws' es' (d.cut s.trace n) ∧
      StateFile W (d.cut s.trace n).state := by
  rcases h.emits.cut n with ⟨e, -, ⟨⟨ws₁, j, hj⟩, es₁, hreads, -⟩, hsame⟩ | hend
  · refine ⟨ws₁, es₁, hj.rested hreads, ?_⟩
    rw [← hsame] at hfile
    exact hfile
  · obtain ⟨es', p', hgood⟩ := h.good
    have hdisk : d.cut s.trace n = s.disk := hend
    rw [hdisk]
    exact ⟨ws, es', hgood.rested, hgood.saveOf.stateFile⟩

/-! ## 3. The life of a device -/

/-- A device with an engine running on it, or without one. -/
inductive Device (W : World)
  | on (s : Sys W)
  | off (d : Disk) (ticks : Nat)

/-- What can become of a device: it is provisioned, opened, called, stopped, and it can crash
between any two durable steps of a call or of a constructor. -/
inductive Reachable (W : World) : Device W → Prop
  | provisioned {blocks blockSize : Nat} {deviceId : String} {dir : Dir} (ticks : Nat) :
      provision W.R blocks blockSize deviceId = .ok dir →
      Reachable W (.off (Disk.fresh dir) ticks)
  | opened {d : Disk} {ticks : Nat} {s : Sys W} : Reachable W (.off d ticks) →
      reopen W ticks d = .ok s → Reachable W (.on s)
  | call {s : Sys W} (c : EngineCall) : Reachable W (.on s) → Reachable W (.on (c.run s).2)
  | stopped {s : Sys W} (ticks : Nat) : Reachable W (.on s) → Reachable W (.off s.disk ticks)
  | crashed {s : Sys W} (c : EngineCall) (n ticks : Nat) : Reachable W (.on s) →
      Reachable W (.off (s.disk.cut (c.effects s) n) ticks)
  | crashedOpening {d : Disk} {ticks : Nat} {s : Sys W} (n ticks' : Nat) :
      Reachable W (.off d ticks) → reopen W ticks d = .ok s →
      Reachable W (.off (d.cut s.trace n) ticks')

/-- The invariant of a device. -/
def Device.Good : Device W → Prop
  | .on s => ∃ (md : Metadata) (ws : List (Write md)) (es : _) (p : _), AegisShield.Good ws es p s
  | .off d _ => ∃ (md : Metadata) (ws : List (Write md)) (es : _),
    Rested W ws es d ∧ StateFile W d.state

theorem Disk.fresh_rested {blocks blockSize : Nat} {deviceId : String} {dir : Dir}
    (h : provision W.R blocks blockSize deviceId = .ok dir) :
    Rested W ([] : List (Write ⟨deviceId, blocks, blockSize⟩)) [] (Disk.fresh dir) :=
  ⟨provision_canonical h, Reads.of_chain rfl⟩

/-- **Every reachable device has the invariant.** -/
theorem Reachable.device_good {device : Device W} (h : Reachable W device) : device.Good := by
  induction h with
  | provisioned ticks hprovision => exact ⟨_, [], [], Disk.fresh_rested hprovision, Or.inl rfl⟩
  | opened _ hopen ih =>
    rename_i d ticks s _
    obtain ⟨md, ws, es, hrested, hfile⟩ := ih
    obtain ⟨s', heq, hreopened⟩ := hrested.reopen hfile ticks
    obtain rfl : s' = s := Except.ok.inj (heq.symm.trans hopen)
    obtain ⟨es', p', hgood⟩ := hreopened.good
    exact ⟨md, ws, es', p', hgood⟩
  | call c _ ih =>
    obtain ⟨md, ws, es, p, hgood⟩ := ih
    obtain ⟨⟨ws', es', p', hgood'⟩, -⟩ := c.good hgood
    exact ⟨md, ws', es', p', hgood'⟩
  | stopped ticks _ ih =>
    obtain ⟨md, ws, es, p, hgood⟩ := ih
    exact ⟨md, ws, es, hgood.rested, hgood.saveOf.stateFile⟩
  | crashed c n ticks _ ih =>
    obtain ⟨md, ws, es, p, hgood⟩ := ih
    obtain ⟨ws', es', hrested, hsave⟩ := c.cut_rested hgood n
    refine ⟨md, ws', es', hrested, ?_⟩
    rcases hsave with hsave | hsave
    · exact hsave.stateFile
    · exact hsave.stateFile
  | crashedOpening n ticks' _ hopen ih =>
    rename_i d ticks s _
    obtain ⟨md, ws, es, hrested, hfile⟩ := ih
    obtain ⟨s', heq, hreopened⟩ := hrested.reopen hfile ticks
    obtain rfl : s' = s := Except.ok.inj (heq.symm.trans hopen)
    obtain ⟨ws', es', hcut⟩ := hreopened.cut_rested hfile n
    exact ⟨md, ws', es', hcut⟩

theorem Reachable.good {s : Sys W} (h : Reachable W (.on s)) :
    ∃ (md : Metadata) (ws : List (Write md)) (es : _) (p : _), AegisShield.Good ws es p s :=
  h.device_good

theorem Reachable.runCalls {s : Sys W} (h : Reachable W (.on s)) (calls : List EngineCall) :
    Reachable W (.on (runCalls s calls)) :=
  run_invariant (I := fun s => Reachable W (.on s)) h calls fun _ c _ h => h.call c

/-! ## 4. A concrete world -/

/-- A detector that never alerts. -/
def Detector.quiet (R : Runtime) : Detector R where
  Analyzer := Unit
  new _ := ()
  observe _ _ _ := ()
  evaluate _ := ⟨false, false, .obj [], Json.wf_empty⟩

/-- The reference runtime, with that detector and a clock that stands still. -/
def World.quiet : World where
  R := Runtime.reference
  detector := Detector.quiet _
  clock := ⟨fun _ => 0, fun _ => 0⟩
  auditStem := "audit"
  auditSuffix := ".jsonl"

/-- The first boot in the concrete world. -/
abbrev quietBoot (dir : Dir) : Sys World.quiet := Sys.firstBoot World.quiet ⟨"dev", 4, 512⟩ 0 dir

/-- A write in the concrete world changes no state, and spends no nonce. -/
theorem write_quiet (s : Sys World.quiet) (lba : Int) (payload : Bytes) :
    (s.write lba payload).2.engine.state = s.engine.state ∧
      (s.write lba payload).2.engine.usedNonces = s.engine.usedNonces := by
  unfold Sys.write
  split
  · exact ⟨rfl, rfl⟩
  split
  · exact ⟨rfl, rfl⟩
  extract_lets blocks
  split
  · exact ⟨rfl, rfl⟩
  split
  · exact ⟨rfl, rfl⟩
  · exact ⟨rfl, rfl⟩

theorem reachable_quietBoot {dir : Dir} (h : provision World.quiet.R 4 512 "dev" = .ok dir) :
    Reachable World.quiet (.on (quietBoot dir)) :=
  .opened (.provisioned 0 h) (reopen_fresh h 0).1

/-- A rejected command contains a writable device. -/
theorem Sys.rejectDestructiveCommand_contains {s : Sys W}
    (h : s.engine.state ∈ AegisState.writable) (opcode : Int) (name : String) :
    (s.rejectDestructiveCommand opcode name).2.engine.state = .contained := by
  unfold rejectDestructiveCommand
  extract_lets event s1 decision s2
  have hstate : s2.engine.state ∈ AegisState.writable := h
  rw [if_pos hstate]
  have hallowed : AegisState.contained ∈ (s2.withEngine fun e =>
      { e with containmentSequence := .int e.journal.lastSequence }).engine.state.allowed :=
    AegisState.contained_allowed h
  exact congrArg (fun s => s.engine.state) (Sys.transition_eq hallowed _)

/-- The device of the concrete world, contained on its first day. -/
abbrev quietContained (dir : Dir) : Sys World.quiet :=
  ((quietBoot dir).rejectDestructiveCommand 128 "format").2

theorem reachable_quietContained {dir : Dir}
    (h : provision World.quiet.R 4 512 "dev" = .ok dir) :
    Reachable World.quiet (.on (quietContained dir)) ∧
      (quietContained dir).engine.state = .contained := by
  have hnormal : AegisState.normal ∈ AegisState.writable := by decide
  exact ⟨(reachable_quietBoot h).call (.rejectDestructiveCommand 128 "format"),
    Sys.rejectDestructiveCommand_contains hnormal 128 "format"⟩

end AegisShield
