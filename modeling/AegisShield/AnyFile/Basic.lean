/-
# What any file holds

`AuditLog.verify` and `DurableJournal._replay` read logs that something else may have written.
Next to the two functions stands here what a log holds according to its lines alone: `events` and
`records`, and the bytes that are hashed on the way.
-/
import AegisShield.Audit.Basic

namespace AegisShield

open Lib

namespace AnyFile

/-! ## 1. The audit log -/

/-- The events of a file. -/
def events (R : Runtime) (lim : Limits) (file : Bytes) : List R.FileValue :=
  (splitLines file).filterMap (PyJson.loads lim)

/-- An event without its own hash. -/
def eventBody {R : Runtime} : R.FileValue → R.FileDict
  | .obj kvs => FileValue.pop kvs "event_hash"
  | _ => []

/-- What `verify` hashes. -/
def eventTexts (R : Runtime) (lim : Limits) (file : Bytes) : List Bytes :=
  (events R lim file).map fun v => FileValue.canonicalBytes (eventBody v)

/-! ## 2. The journal -/

/-- `_replay` of a log. -/
def replay (R : Runtime) (lim : Limits) (md : Metadata) (log : Bytes) :
    Except Raised (Cursor × Option Nat) :=
  replayLines R lim md log.length Cursor.empty 1 (splitLines log)

/-- A record, as its line has it. -/
structure Record (R : Runtime) where
  sequence : Int
  block : Int
  blocks : Int
  data : Bytes
  previousHash : R.FileValue
  recordHash : R.FileValue

/-- The record on a line. -/
def record {R : Runtime} (p : Parsed R) : Record R :=
  ⟨p.sequence, p.block, p.blocks, p.data, p.previousHash, p.storedHash⟩

/-- The lines of a log that hold a record. -/
def recordLines (R : Runtime) (lim : Limits) (lines : List Bytes) : List (Parsed R) :=
  (lines.filter fun raw => !blank raw).filterMap (parseRecord R lim)

/-- The records of a log. -/
def records (R : Runtime) (lim : Limits) (log : Bytes) : List (Record R) :=
  (recordLines R lim (splitLines log)).map record

/-- What `_replay` hashes. -/
def recordTexts (R : Runtime) (lim : Limits) (log : Bytes) : List Bytes :=
  (recordLines R lim (splitLines log)).map fun p => FileValue.canonicalBytes p.value

end AnyFile

end AegisShield
