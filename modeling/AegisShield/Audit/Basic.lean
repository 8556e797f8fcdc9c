/-
# The audit log (`core/audit.py`)

An append-only file of sealed lines, each naming the hash of the one before it.  Once the active
file has reached its limit, an append first archives it under the next free number and starts a
new file with a `rotation_boundary` entry.

The files change in durable steps (`AuditEffect`): the rename, the creation of the new file, and
one write per line.  `append` returns the steps it takes, so that a crash between any two of them
is a prefix of that list.
-/
import AegisShield.Journal.Basic

namespace AegisShield

open Lib

/-! ## 1. The data model -/

/-- `_DEFAULT_MAX_BYTES`. -/
def defaultMaxBytes : Nat := 10 * 1024 * 1024

/-- The object in memory.  The path is `<stem><suffix>` in some directory. -/
structure AuditLog where
  stem : String
  suffix : String
  maxBytes : Nat
  lastHash : String
  deriving DecidableEq, Repr

/-- The files: the active one, if it exists, and the archives `<stem>.<n><suffix>`. -/
structure AuditFiles where
  active : Option Bytes
  archives : List (Nat × Bytes)
  deriving DecidableEq, Repr

/-- A durable step on the audit files. -/
inductive AuditEffect
  /-- The active file becomes archive `n`. -/
  | rename (n : Nat)
  /-- `path.touch()`. -/
  | create
  /-- An fsynced append of one line, which creates the file if need be. -/
  | write (line : Bytes)
  deriving DecidableEq, Repr

/-- What a step does to the files. -/
def AuditEffect.apply : AuditEffect → AuditFiles → AuditFiles
  | .rename n, f =>
    match f.active with
    | some bs => { active := none, archives := f.archives ++ [(n, bs)] }
    | none => f
  | .create, f => { f with active := some (f.active.getD []) }
  | .write line, f => { f with active := some (f.active.getD [] ++ line) }

/-- The size of the active file. -/
def AuditFiles.size (f : AuditFiles) : Nat := (f.active.getD []).length

/-! ## 2. Entries -/

/-- The `body` of an entry, before its own hash is added. -/
def auditBody {R : Runtime} (previousHash : String) (event : String) (details : Dict R.Value)
    (timestampNs : Nat) : Dict R.Value :=
  [("details", .obj details), ("event", .str event), ("previous_hash", .str previousHash),
    ("timestamp_ns", .int timestampNs)]

/-- The hash of a body. -/
def bodyHash (R : Runtime) (body : Dict R.Value) : String :=
  R.hexdigest (R.canonicalBytes (.obj body))

/-! ## 3. Verification -/

/-- `value.pop("event_hash")`. -/
def popHash {R : Runtime} : R.FileValue → Except Raised (R.FileValue × R.FileDict)
  | .obj kvs =>
    match FileValue.get kvs "event_hash" with
    | some stored => .ok (stored, FileValue.pop kvs "event_hash")
    | none => .error (.keyError "event_hash")
  | .arr _ => .error .typeError
  | _ => .error .attributeError

/-- The loop of `verify`. -/
def verifyLines (R : Runtime) (lim : Limits) : String → Nat → List Bytes → Except Raised String
  | expected, _, [] => .ok expected
  | expected, line, raw :: rest => do
    let (stored, value) ← popHash (← FileValue.loads R lim raw)
    if (FileValue.get value "previous_hash").bind FileValue.asStr ≠ some (PyStr.ofString expected) then
      throw (.valueError s!"audit chain mismatch at line {line}")
    let calculated ← FileValue.hashed R lim value
    if FileValue.asStr stored ≠ some (PyStr.ofString calculated) then
      throw (.valueError s!"audit hash mismatch at line {line}")
    verifyLines R lim calculated (line + 1) rest

/-- `verify`: the hash of the last entry of a file. -/
def verifyUnder (lim : Limits) (R : Runtime) (file : Bytes) : Except Raised String :=
  verifyLines R lim zeroHash 1 (splitLines file)

/-- The same, when nothing in the file is over a limit. -/
def verifyFile (R : Runtime) (file : Bytes) : Except Raised String := verifyUnder .off R file

namespace AuditLog

/-! ## 4. Appending -/

/-- The first number from `i` on that no archive has; `fuel` bounds the search. -/
def firstFree (archives : List (Nat × Bytes)) : Nat → Nat → Nat
  | 0, i => i
  | fuel + 1, i =>
    if archives.any (fun a => a.1 = i) then firstFree archives fuel (i + 1) else i

/-- `_next_archive_path`. -/
def nextArchive (archives : List (Nat × Bytes)) : Nat := firstFree archives archives.length 1

/-- The steps of `_rotate`, and the object after it. -/
def rotate (R : Runtime) (log : AuditLog) (files : AuditFiles) (timestampNs : Nat) :
    List AuditEffect × AuditLog :=
  let n := nextArchive files.archives
  let body : Dict R.Value := auditBody zeroHash "rotation_boundary"
    [("archived_to", .str s!"{log.stem}.{n}{log.suffix}"),
      ("previous_file_last_hash", .str log.lastHash)] timestampNs
  ([.rename n, .create, .write (sealedLine R "event_hash" body)],
    { log with lastHash := bodyHash R body })

/-- The write of `append`, after any rotation. -/
def record (R : Runtime) (log : AuditLog) (event : String) (details : Dict R.Value)
    (timestampNs : Nat) : AuditEffect × AuditLog :=
  let body := auditBody log.lastHash event details timestampNs
  (.write (sealedLine R "event_hash" body), { log with lastHash := bodyHash R body })

/-- Whether `append` rotates first. -/
def full (log : AuditLog) (files : AuditFiles) : Bool :=
  0 < log.maxBytes && log.maxBytes ≤ files.size

/-- `append`: its durable steps, the object after it, and how often it read the clock.  `clock i`
is the `i`-th reading of `time.time_ns()` from here on. -/
def append (R : Runtime) (log : AuditLog) (files : AuditFiles) (clock : Nat → Nat)
    (event : String) (details : Dict R.Value) : List AuditEffect × AuditLog × Nat :=
  if log.full files then
    let (steps, log') := log.rotate R files (clock 0)
    let (step, log'') := log'.record R event details (clock 1)
    (steps ++ [step], log'', 2)
  else
    let (step, log') := log.record R event details (clock 0)
    ([step], log', 1)

end AuditLog

end AegisShield
