/-
# The engine (`core/engine.py`)

`AegisEngine` is the gate in front of the journal.  Its state is persisted in
`engine_state.json`, and the digest of every persisted state is recorded in the audit log; a new
engine trusts the file only if it matches the newest digest it finds in the ACTIVE audit file.

The model runs a method on a `Sys`: the object, the files, the number of clock readings so far,
and the trace of durable steps taken.  A method returns what it returns or raises, together with
the system after it (an exception does not undo anything).  A crash between two durable steps
leaves the files as the first of them left them.

`Detector` is the analyzer and the policy, `core/features.py` and `core/policy.py`, as far as the
engine sees them; nothing here depends on how a decision is made.  `Clock` gives the readings of
`time.time_ns()` and `int(time.time())`, in the order in which they are made.
-/
import AegisShield.Audit.Chain
import AegisShield.Tokens

namespace AegisShield

open Lib

/-! ## 1. States and events -/

/-- `AegisState`. -/
inductive AegisState
  | bootSelftest
  | provisioning
  | normal
  | elevated
  | contained
  | recoveryReadOnly
  | maintenance
  | fault
  deriving DecidableEq, Repr

namespace AegisState

/-- `state.value`. -/
def value : AegisState → String
  | bootSelftest => "boot_selftest"
  | provisioning => "provisioning"
  | normal => "normal"
  | elevated => "elevated"
  | contained => "contained"
  | recoveryReadOnly => "recovery_read_only"
  | maintenance => "maintenance"
  | fault => "fault"

/-- The members of the enumeration. -/
def all : List AegisState :=
  [bootSelftest, provisioning, normal, elevated, contained, recoveryReadOnly, maintenance, fault]

/-- `AegisState(value)`. -/
def ofValue {R : Runtime} (v : R.Value) : Option AegisState :=
  (asStr v).bind fun s => all.find? fun a => a.value = s

/-- The transitions `_transition` allows. -/
def allowed : AegisState → List AegisState
  | bootSelftest => [normal, provisioning, fault]
  | provisioning => [normal, fault]
  | normal => [elevated, contained, maintenance, fault]
  | elevated => [normal, contained, fault]
  | contained => [recoveryReadOnly, maintenance, fault]
  | recoveryReadOnly => [maintenance, fault]
  | maintenance => [normal, fault]
  | fault => [maintenance]

/-- The states in which `write` is allowed. -/
def writable : List AegisState := [normal, elevated]

/-- `_MAINTENANCE_ENTRY_STATES`. -/
def maintenanceEntry : List AegisState := [normal, contained, recoveryReadOnly, fault]

/-- `_COMPACTION_STATES`. -/
def compaction : List AegisState := [normal, maintenance]

end AegisState

/-- `IoKind`. -/
inductive IoKind
  | read
  | write
  | flush
  | deallocate
  | admin
  deriving DecidableEq, Repr

/-- `IoEvent`. -/
structure IoEvent where
  kind : IoKind
  lba : Int := 0
  blocks : Int := 0
  payload : Bytes := []
  timestampNs : Nat := 0
  opcode : Option Int := none
  deriving DecidableEq, Repr

/-- `Decision`, with the value its `to_dict` has in JSON. -/
structure Decision (R : Runtime) where
  alert : Bool
  contain : Bool
  dict : R.Value
  wf : dict.Wf

/-- The analyzer and the policy. -/
structure Detector (R : Runtime) where
  /-- The analyzer's window. -/
  Analyzer : Type
  /-- `WindowAnalyzer(AnalyzerConfig(namespace_blocks=..))`. -/
  new : Nat → Analyzer
  /-- `analyzer.observe(event, before=..)`. -/
  observe : Analyzer → IoEvent → Option Bytes → Analyzer
  /-- `policy.evaluate` of the features `observe` returned. -/
  evaluate : Analyzer → Decision R

/-- The readings of the wall clock, by their number. -/
structure Clock where
  /-- `time.time_ns()`. -/
  timeNs : Nat → Nat
  /-- `int(time.time())`. -/
  time : Nat → Nat

/-- What an engine runs in. -/
structure World where
  R : Runtime
  detector : Detector R
  clock : Clock
  auditStem : String
  auditSuffix : String

/-! ## 2. Files and durable steps -/

/-- The files of a device. -/
structure Disk where
  root : Root
  /-- `engine_state.json`. -/
  state : Option Bytes
  audit : AuditFiles

/-- A durable step. -/
inductive Effect
  /-- An fsynced append to `journal.jsonl`. -/
  | journal (line : Bytes)
  | audit (step : AuditEffect)
  /-- The atomic replacement of `engine_state.json`. -/
  | state (payload : Bytes)
  /-- A new bundle under `snapshots/`. -/
  | snapshots (bundles : List (String × Dir))
  /-- The replacement of `base.img`. -/
  | base (image : Bytes)
  /-- The replacement of `journal.jsonl` by an empty file. -/
  | emptyLog

/-- What a step does to the files. -/
def Effect.apply : Effect → Disk → Disk
  | .journal line, d => { d with root := { d.root with toDir := { d.root.toDir with
      log := d.root.log ++ line } } }
  | .audit step, d => { d with audit := step.apply d.audit }
  | .state payload, d => { d with state := some payload }
  | .snapshots bundles, d => { d with root := { d.root with snapshots := bundles } }
  | .base image, d => { d with root := { d.root with toDir := { d.root.toDir with base := image } } }
  | .emptyLog, d => { d with root := { d.root with toDir := { d.root.toDir with log := [] } } }

/-- The object in memory. -/
structure Engine (W : World) where
  journal : DurableJournal
  audit : AuditLog
  analyzer : W.detector.Analyzer
  state : AegisState
  stateVersion : Int
  /-- A sequence number, or `null`. -/
  containmentSequence : W.R.Value
  recoverySequence : W.R.Value
  usedNonces : Dict Int

/-- A running engine: the object, its files, the clock readings and the durable steps so far. -/
structure Sys (W : World) where
  engine : Engine W
  disk : Disk
  ticks : Nat
  trace : List Effect

/-- A method's result and the system after it. -/
abbrev Outcome (W : World) (α : Type) := Except Raised α × Sys W

namespace Sys

variable {W : World}

/-- Take a durable step. -/
def emit (s : Sys W) (e : Effect) : Sys W :=
  { s with disk := e.apply s.disk, trace := s.trace ++ [e] }

/-- Read a clock. -/
def tick (s : Sys W) : Sys W := { s with ticks := s.ticks + 1 }

/-- Change the object. -/
def withEngine (s : Sys W) (f : Engine W → Engine W) : Sys W := { s with engine := f s.engine }

/-- `self.audit.append(event, details)`. -/
def audit (s : Sys W) (event : String) (details : Dict W.R.Value) : Sys W :=
  let r := s.engine.audit.append W.R s.disk.audit (fun i => W.clock.timeNs (s.ticks + i)) event
    details
  { engine := { s.engine with audit := r.2.1 }
    disk := { s.disk with audit := applyAudit r.1 s.disk.audit }
    ticks := s.ticks + r.2.2
    trace := s.trace ++ r.1.map Effect.audit }

end Sys

/-! ## 3. Persistence -/

/-- `_state_payload_bytes`. -/
def statePayloadBytes (R : Runtime) (v : R.Value) : Bytes := utf8 v.pretty ++ [newline]

/-- `_state_digest`. -/
def stateDigest (R : Runtime) (v : R.Value) : String := R.hexdigest (statePayloadBytes R v)

/-- `_prune_nonces` on the object's own mapping. -/
def pruneDict (current : Int) (nonces : Dict Int) : Dict Int := nonces.filter fun n => n.2 > current

/-- `_MAX_TOKEN_LIFETIME_SECONDS`. -/
def maxTokenLifetimeSeconds : Int := 900

/-- `_prune_nonces` on a value from a state file: the mapping, the legacy list, or anything else.
The list held strings only; other elements are refused. -/
def pruneNonces {R : Runtime} (current : Int) : R.Value → Except Raised (Dict Int)
  | .obj kvs => do
    let nonces ← kvs.mapM fun kv => do return (kv.1, ← pyInt kv.2)
    return pruneDict current nonces
  | .arr xs => do
    let names ← xs.mapM fun x => (asStr x).elim (.error .typeError) .ok
    return names.foldl (fun d n => Dict.set n (current + maxTokenLifetimeSeconds) d) []
  | _ => .ok []

/-- The payload of `_save_state`. -/
def statePayload {W : World} (e : Engine W) : Dict W.R.Value :=
  [("containment_sequence", e.containmentSequence), ("recovery_sequence", e.recoverySequence),
    ("state", .str e.state.value), ("state_version", .int e.stateVersion),
    ("used_nonces", .obj (e.usedNonces.map fun n => (n.1, .int n.2)))]

/-- The loop of `_recorded_state_digest`.  `null` is Python's `None`. -/
def lastDigest (R : Runtime) : R.Value → List Bytes → Except Raised R.Value
  | digest, [] => .ok digest
  | digest, raw :: rest =>
    if blank raw then lastDigest R digest rest
    else match R.loads raw with
      | .error _ => .ok .null
      | .ok (.obj kvs) =>
        if (Dict.get kvs "event").bind asStr = some "state_persisted" then
          match Dict.get kvs "details" with
          | none => lastDigest R .null rest
          | some (.obj details) => lastDigest R ((Dict.get details "digest").getD .null) rest
          | some _ => .error .attributeError
        else lastDigest R digest rest
      | .ok _ => .error .attributeError

/-- `_recorded_state_digest`, on the bytes of the active audit file. -/
def recordedStateDigest (R : Runtime) (file : Bytes) : Except Raised R.Value :=
  match verifyFile R file with
  | .error _ => .ok .null
  | .ok _ => lastDigest R .null (splitLines file)

/-- The `try` block of `_load_state`. -/
def readState (R : Runtime) (raw : Bytes) : Except Raised (Dict R.Value) := do
  let kvs ← asDict .typeError (← R.loads raw)
  let state ← getItem kvs "state"
  let _ ← (AegisState.ofValue state).elim
    (.error (.valueError "not a valid AegisState")) .ok
  let _ ← pyInt (← getItem kvs "state_version")
  return kvs

/-- Whether a value is Python's `None`. -/
def isNull {R : Runtime} : R.Value → Bool
  | .null => true
  | _ => false

/-- `_load_state`: the state, or the reason not to trust it, or neither on a first boot. -/
def loadState (R : Runtime) (state : Option Bytes) (auditFile : Bytes) :
    Except Raised (Option (Dict R.Value) × Option String) :=
  match state with
  | none => do
    let recorded ← recordedStateDigest R auditFile
    if isNull recorded then return (none, none)
    else return (none, some "state file is missing but the audit log records one")
  | some raw =>
    match readState R raw with
    | .error e => .ok (none, some s!"state file is unreadable ({e.name})")
    | .ok kvs => do
      let recorded ← recordedStateDigest R auditFile
      if isNull recorded then
        if auditFile = [] then return (some kvs, none)
        else return (none, some "state file has no matching audit record")
      else if asStr recorded ≠ some (stateDigest R (.obj kvs)) then
        return (none, some "state file digest does not match the audit record")
      else return (some kvs, none)

namespace Sys

variable {W : World}

/-- `_save_state`: prune, record the digest, then replace the file. -/
def saveState (s : Sys W) : Sys W :=
  let s := (s.withEngine fun e =>
    { e with usedNonces := pruneDict (W.clock.time s.ticks) e.usedNonces }).tick
  let payload : W.R.Value := .obj (statePayload s.engine)
  let s := s.audit "state_persisted" [("digest", .str (stateDigest W.R payload))]
  s.emit (.state (statePayloadBytes W.R payload))

/-! ## 4. The state machine -/

/-- `_enter_fault`. -/
def enterFault (s : Sys W) (reason : String) : Sys W :=
  let previous := s.engine.state
  let s := s.withEngine fun e => { e with state := .fault, stateVersion := e.stateVersion + 1 }
  let s := s.audit "fault_entered" [("from", .str previous.value), ("reason", .str reason),
    ("version", .int s.engine.stateVersion)]
  s.saveState

/-- `_transition`. -/
def transition (s : Sys W) (target : AegisState) (reason : String) : Outcome W Unit :=
  if target ∉ s.engine.state.allowed then
    (.error (.runtimeError
      s!"illegal transition {s.engine.state.value} -> {target.value}"), s)
  else
    let previous := s.engine.state
    let s := s.withEngine fun e => { e with state := target, stateVersion := e.stateVersion + 1 }
    let s := s.audit "state_transition" [("from", .str previous.value), ("reason", .str reason),
      ("to", .str target.value), ("version", .int s.engine.stateVersion)]
    (.ok (), s.saveState)

/-! ## 5. I/O operations -/

/-- The `at_sequence` of a read: an `int`, or `None`.  Comparing anything else raises. -/
def sequenceArg {R : Runtime} : R.Value → Except Raised (Option Int)
  | .null => .ok none
  | .int i => .ok (some i)
  | .bool b => .ok (some (if b then 1 else 0))
  | _ => .error .typeError

/-- `read`. -/
def read (s : Sys W) (lba blocks : Int) : Outcome W Bytes :=
  let sequence := if s.engine.state = .recoveryReadOnly then s.engine.recoverySequence else .null
  let event : IoEvent :=
    { kind := .read, lba := lba, blocks := blocks, timestampNs := W.clock.timeNs s.ticks }
  let s := (s.withEngine fun e =>
    { e with analyzer := W.detector.observe e.analyzer event none }).tick
  ((sequenceArg sequence).bind fun atSequence =>
    s.engine.journal.read W.R s.disk.root.toDir lba blocks atSequence, s)

/-- `write` from the persisted record on. -/
def writeRecorded (s : Sys W) (lba : Int) (payload before : Bytes) (line : Bytes)
    (journal : DurableJournal) : Outcome W (Decision W.R) :=
  let blocks := payload.length / s.engine.journal.blockSize
  let sequence := s.engine.journal.nextSequence
  let event : IoEvent :=
    { kind := .write, lba := lba, blocks := blocks, payload := payload,
      timestampNs := W.clock.timeNs s.ticks }
  -- persist first: an acknowledged write is always replayable
  let s := (s.tick.emit (.journal line)).withEngine fun e => { e with journal := journal }
  let s := s.withEngine fun e =>
    { e with analyzer := W.detector.observe e.analyzer event (some before) }
  let decision := W.detector.evaluate s.engine.analyzer
  let s := s.audit "write_persisted" [("blocks", .int blocks), ("decision", decision.dict),
    ("lba", .int lba), ("sequence", .int sequence)]
  if decision.contain then
    let r := (s.withEngine fun e => { e with containmentSequence := .int sequence }).transition
      .contained "policy threshold crossed"
    (r.1.map fun _ => decision, r.2)
  else if decision.alert && s.engine.state = .normal then
    let r := s.transition .elevated "policy alert threshold crossed"
    (r.1.map fun _ => decision, r.2)
  else (.ok decision, s)

/-- `write`. -/
def write (s : Sys W) (lba : Int) (payload : Bytes) : Outcome W (Decision W.R) :=
  if s.engine.state ∉ AegisState.writable then
    (.error (.permissionError s!"writes prohibited in {s.engine.state.value}"), s)
  else if payload.length % s.engine.journal.blockSize ≠ 0 then
    (.error (.valueError "payload must be block aligned"), s)
  else
    let blocks := payload.length / s.engine.journal.blockSize
    match s.engine.journal.read W.R s.disk.root.toDir lba blocks none with
    | .error e => (.error e, s)
    | .ok before =>
      match s.engine.journal.prepare W.R lba payload with
      | .error e => (.error e, s.tick)
      | .ok (line, journal) => s.writeRecorded lba payload before line journal

/-- `flush`. -/
def flush (s : Sys W) : Outcome W Unit :=
  (.ok (), s.audit "flush_complete" [("sequence", .int s.engine.journal.lastSequence)])

/-- `reject_destructive_command`. -/
def rejectDestructiveCommand (s : Sys W) (opcode : Int) (name : String) :
    Outcome W (Decision W.R) :=
  let event : IoEvent :=
    { kind := .admin, opcode := some opcode, timestampNs := W.clock.timeNs s.ticks }
  let s := (s.withEngine fun e =>
    { e with analyzer := W.detector.observe e.analyzer event none }).tick
  let decision := W.detector.evaluate s.engine.analyzer
  let s := s.audit "destructive_command_rejected" [("name", .str name), ("opcode", .int opcode)]
  if s.engine.state ∈ AegisState.writable then
    let r := (s.withEngine fun e =>
      { e with containmentSequence := .int e.journal.lastSequence }).transition .contained
        s!"rejected {name}"
    (r.1.map fun _ => decision, r.2)
  else (.ok decision, s)

/-! ## 6. Recovery and maintenance -/

/-- The time a call works with: its argument, or the wall clock. -/
def currentTime (s : Sys W) (now : Option Int) : Int := now.getD (W.clock.time s.ticks)

/-- `authorize_recovery`. -/
def authorizeRecovery (s : Sys W) (token : String) (verifier : TokenVerifier)
    (physicalPresence : Bool) (now : Option Int) : Outcome W Unit :=
  if s.engine.state ≠ .contained then
    (.error (.runtimeError "recovery authorization is valid only while contained"), s)
  else if !physicalPresence then
    (.error (.permissionError "physical presence input is not asserted"), s)
  else
    match verifier.verify W.R token s.engine.journal.deviceId "enter_recovery_read_only"
        s.engine.stateVersion (s.currentTime now) with
    | .error e => (.error e, s.tick)
    | .ok a =>
      if (s.engine.usedNonces.get a.nonce).isSome then
        (.error (.valueError "token nonce already used"), s.tick)
      else
        match a.targetSequence with
        | none => (.error (.valueError "invalid recovery sequence"), s.tick)
        | some target =>
          if ¬ (0 ≤ target ∧ target ≤ (s.engine.journal.lastSequence : Int)) then
            (.error (.valueError "invalid recovery sequence"), s.tick)
          else
            -- the nonce is persisted before the transition
            let s := (s.tick.withEngine fun e =>
              { e with usedNonces := e.usedNonces.set a.nonce a.expiresUnix
                       recoverySequence := .int target }).saveState
            s.transition .recoveryReadOnly "signed authorization plus physical presence"

/-- `enter_maintenance`. -/
def enterMaintenance (s : Sys W) (token : String) (verifier : TokenVerifier)
    (physicalPresence : Bool) (now : Option Int) : Outcome W Unit :=
  if s.engine.state ∉ AegisState.maintenanceEntry then
    (.error (.runtimeError (s!"cannot enter maintenance from '{s.engine.state.value}'; " ++
      "allowed entry states are: normal, contained, recovery_read_only, fault")), s)
  else if !physicalPresence then
    (.error (.permissionError "physical presence is not asserted"), s)
  else
    match verifier.verify W.R token s.engine.journal.deviceId "enter_maintenance"
        s.engine.stateVersion (s.currentTime now) with
    | .error e => (.error e, s.tick)
    | .ok a =>
      if (s.engine.usedNonces.get a.nonce).isSome then
        (.error (.valueError "token nonce already used"), s.tick)
      else
        let s := (s.tick.withEngine fun e =>
          { e with usedNonces := e.usedNonces.set a.nonce a.expiresUnix }).saveState
        s.transition .maintenance "maintenance authorized via signed token"

/-- `self.journal.compact(snapshot_name)`, step by step. -/
def compactFiles (s : Sys W) (name : String) : Outcome W Unit :=
  match s.engine.journal.snapshot W.R s.disk.root name none with
  | .error e => (.error e, s)
  | .ok r =>
    let s := s.emit (.snapshots r.snapshots)
    match s.engine.journal.materialise W.R s.disk.root.toDir with
    | .error e => (.error e, s)
    | .ok image =>
      (.ok (), ((s.emit (.base image)).emit .emptyLog).withEngine fun e =>
        { e with journal := e.journal.reset })

/-- `compact_journal`. -/
def compactJournal (s : Sys W) (label : String) : Outcome W String :=
  if s.engine.state ∉ AegisState.compaction then
    (.error (.runtimeError (s!"compaction refused in '{s.engine.state.value}'; the journal is the " ++
      "forensic record of an active incident. Allowed states: normal, maintenance")), s)
  else
    let name := s!"{label}-{W.clock.timeNs s.ticks}"
    match s.tick.compactFiles name with
    | (.error e, s) => (.error e, s)
    | (.ok (), s) =>
      -- the old sequence numbers no longer exist
      let s := (s.withEngine fun e =>
        { e with containmentSequence := .null, recoverySequence := .null }).saveState
      (.ok name, s.audit "journal_compacted" [("snapshot_name", .str name)])

/-- The end of `exit_maintenance`. -/
def leaveMaintenance (s : Sys W) (snapshotName : Option String) : Outcome W (Option String) :=
  let r := (s.withEngine fun e =>
    { e with containmentSequence := .null, recoverySequence := .null }).transition .normal
      "maintenance complete"
  (r.1.map fun _ => snapshotName, r.2)

/-- `exit_maintenance`. -/
def exitMaintenance (s : Sys W) (compact : Bool) : Outcome W (Option String) :=
  if s.engine.state ≠ .maintenance then
    (.error (.runtimeError
      s!"exit_maintenance called from '{s.engine.state.value}'; must be in maintenance"), s)
  else if compact then
    match s.compactJournal "pre-maintenance" with
    | (.error e, s) => (.error e, s)
    | (.ok name, s) => s.leaveMaintenance (some name)
  else s.leaveMaintenance none

end Sys

/-! ## 7. Construction -/

section Init

variable (W : World)

/-- The object before anything is loaded. -/
def Engine.initial (journal : DurableJournal) (lastHash : String) : Engine W where
  journal := journal
  audit := ⟨W.auditStem, W.auditSuffix, defaultMaxBytes, lastHash⟩
  analyzer := W.detector.new journal.blocks
  state := .bootSelftest
  stateVersion := 0
  containmentSequence := .null
  recoverySequence := .null
  usedNonces := []

variable {W}

/-- The branch of `__init__` for a state that was loaded. -/
def Sys.restore (s : Sys W) (persisted : Dict W.R.Value) : Except Raised (Sys W) := do
  let state ← (AegisState.ofValue (← getItem persisted "state")).elim
    (.error (.valueError "not a valid AegisState")) .ok
  let stateVersion ← pyInt (← getItem persisted "state_version")
  let nonces ← pruneNonces (W.clock.time s.ticks) ((persisted.get "used_nonces").getD (.obj []))
  let s := (s.withEngine fun e =>
    { e with state := state
             stateVersion := stateVersion
             containmentSequence := (persisted.get "containment_sequence").getD .null
             recoverySequence := (persisted.get "recovery_sequence").getD .null
             usedNonces := nonces }).tick
  return s.audit "engine_restored"
    [("containment_sequence", s.engine.containmentSequence), ("state", .str s.engine.state.value),
      ("state_version", .int s.engine.stateVersion)]

/-- The note on a journal that discarded a partial record when it was opened. -/
def Sys.noteTail (s : Sys W) : Sys W :=
  match s.engine.journal.recoveredTail with
  | none => s
  | some tail => s.audit "journal_tail_recovered" [("bytes_discarded", .int tail.bytesDiscarded),
      ("preserved_as", .str tail.sidecar), ("reason", .str tail.reason)]

/-- `__init__` from `_load_state` on. -/
def Sys.start (s : Sys W) : Except Raised (Sys W) := do
  match ← loadState W.R s.disk.state (s.disk.audit.active.getD []) with
  | (_, some loadError) =>
    return s.enterFault s!"engine state could not be trusted: {loadError}"
  | (some persisted, none) => s.restore persisted
  | (none, none) => return (s.transition .normal "self-test complete").2

variable (W)

/-- `__init__` up to `_load_state`.  The trace starts with the `touch`. -/
def AegisEngine.bringUp (ticks : Nat) (journal : DurableJournal) (d : Disk) :
    Except Raised (Sys W) := do
  let d := (Effect.audit .create).apply d
  let lastHash ← verifyFile W.R (d.audit.active.getD [])
  return Sys.noteTail ⟨Engine.initial W journal lastHash, d, ticks, [.audit .create]⟩

/-- `AegisEngine(journal, policy, audit_path)`. -/
def AegisEngine.init (ticks : Nat) (journal : DurableJournal) (d : Disk) :
    Except Raised (Sys W) := do
  let s ← AegisEngine.bringUp W ticks journal d
  s.start

/-- Opening a namespace: `DurableJournal(root)`, then `AegisEngine`. -/
def reopen (ticks : Nat) (d : Disk) : Except Raised (Sys W) := do
  let (journal, dir) ← DurableJournal.init W.R d.root.toDir
  AegisEngine.init W ticks journal { d with root := { d.root with toDir := dir } }

end Init

/-! ## 8. Calls -/

/-- A call of an engine operation. -/
inductive EngineCall
  | read (lba blocks : Int)
  | write (lba : Int) (payload : Bytes)
  | flush
  | rejectDestructiveCommand (opcode : Int) (name : String)
  | authorizeRecovery (token : String) (verifier : TokenVerifier) (physicalPresence : Bool)
    (now : Option Int)
  | enterMaintenance (token : String) (verifier : TokenVerifier) (physicalPresence : Bool)
    (now : Option Int)
  | exitMaintenance (compact : Bool)
  | compactJournal (label : String)

/-- Whether the call returned, and the system after it. -/
def EngineCall.run {W : World} (s : Sys W) : EngineCall → Outcome W Unit
  | .read lba blocks => let r := s.read lba blocks; (r.1.map fun _ => (), r.2)
  | .write lba payload => let r := s.write lba payload; (r.1.map fun _ => (), r.2)
  | .flush => s.flush
  | .rejectDestructiveCommand opcode name =>
    let r := s.rejectDestructiveCommand opcode name; (r.1.map fun _ => (), r.2)
  | .authorizeRecovery token verifier presence now => s.authorizeRecovery token verifier presence now
  | .enterMaintenance token verifier presence now => s.enterMaintenance token verifier presence now
  | .exitMaintenance compact => let r := s.exitMaintenance compact; (r.1.map fun _ => (), r.2)
  | .compactJournal label => let r := s.compactJournal label; (r.1.map fun _ => (), r.2)

end AegisShield
