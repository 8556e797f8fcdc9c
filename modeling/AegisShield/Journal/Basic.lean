/-
# The durable journal (`core/journal.py`)

`DurableJournal` is a file-backed append log over a base image.  Payloads stay on disk: the
object in memory holds, per record, where its line starts (`RecordIndex`), and per block, which
record currently owns it (`overlay`).

The model follows the source function by function.  Files are byte strings (`Dir`), a method
that reads or writes files takes the directory and returns it, and an exception is a value of
`Except Raised`.  Two things are named that the source keeps inside one method:

* `Cursor`: the five variables that `_replay` and `append` both maintain.  The two do so in
  separate code, and so do the definitions here; that they agree is a theorem (`Canonical.lean`).
* `prepare`: the part of `append` before the file is touched, i.e. the bytes of the in-flight
  record and the object as it will be once the write has returned.  A crash or an `OSError`
  happens between the two halves.

What the interpreter refuses for its size (`Lib.Limits`) is a parameter of replay and of
`DurableJournal.initUnder`, the opening of any files: a line over a limit does not decode, as far as
the code can tell.  `DurableJournal.init` is the opening without limits, in which runs of the
program are stated: a record is nested one deep, and its numbers have a few digits.

Not modelled: the read handle and its lock (every read sees the file as it is), and the lengths
of a path that the operating system would refuse.
-/
import AegisShield.Runtime
import AegisShield.Lib.Base64
import Mathlib.Logic.Function.Basic

namespace AegisShield

open Lib

/-! ## 1. The data model -/

/-- What `metadata.json` records. -/
structure Metadata where
  deviceId : String
  blocks : Nat
  blockSize : Nat
  deriving DecidableEq, Repr

/-- `_RecordIndex`: where a record lives on disk, and what it covers. -/
structure RecordIndex where
  sequence : Nat
  block : Nat
  blocks : Nat
  offset : Nat
  recordDigest : Bytes
  deriving DecidableEq, Repr

/-- `_TailRecovery`: what was discarded when opening a journal with a torn tail. -/
structure TailRecovery where
  bytesDiscarded : Nat
  reason : String
  sidecar : String
  deriving DecidableEq, Repr

/-- The variables that replay computes and that every append moves on. -/
structure Cursor where
  /-- Block to position in `index` of the record that owns it. -/
  overlay : Nat → Option Nat
  index : List RecordIndex
  lastHash : String
  nextSequence : Nat
  logSize : Nat

/-- The object in memory. -/
structure DurableJournal extends Metadata, Cursor where
  recoveredTail : Option TailRecovery

/-- The files of a journal directory.  `torn` are the sidecars `journal.jsonl.torn-<offset>`. -/
structure Dir where
  metadata : Bytes
  base : Bytes
  log : Bytes
  torn : List (Nat × Bytes)
  deriving DecidableEq, Repr

/-- A namespace directory: a journal directory and its `snapshots/`. -/
structure Root extends Dir where
  snapshots : List (String × Dir)

/-- `"0" * 64`, the link of the first record. -/
def zeroHash : String := String.ofList (List.replicate 64 '0')

/-- The cursor over an empty log. -/
def Cursor.empty : Cursor := ⟨fun _ => none, [], zeroHash, 1, 0⟩

/-- `for i in range(count): overlay[start + i] = position`. -/
def coverRange (overlay : Nat → Option Nat) (start count position : Nat) : Nat → Option Nat :=
  (List.range count).foldl (fun o i => Function.update o (start + i) (some position)) overlay

/-- `_check_range`. -/
def Metadata.checkRange (md : Metadata) (block count : Int) : Except Raised Unit :=
  if block < 0 ∨ count < 1 ∨ block + count > md.blocks then
    .error (.valueError "block range outside virtual namespace")
  else .ok ()

/-! ## 2. Metadata and provisioning -/

/-- The object `provision` writes to `metadata.json`. -/
def Metadata.toJson {R : Runtime} (md : Metadata) : R.Value :=
  .obj [("block_size", .int md.blockSize), ("blocks", .int md.blocks),
    ("device_id", .str md.deviceId), ("format", .str "aegis-reference-journal-v1")]

/-- A `dict`, or the exception that indexing or `.get` on anything else raises. -/
def asDict {R : Runtime} (raised : Raised) : R.Value → Except Raised (Dict R.Value)
  | .obj kvs => .ok kvs
  | _ => .error raised

/-- `value[key]`. -/
def getItem {R : Runtime} (kvs : Dict R.Value) (key : String) : Except Raised R.Value :=
  match kvs.get key with
  | some v => .ok v
  | none => .error (.keyError key)

/-- A `str`, or nothing. -/
def asStr {R : Runtime} : R.Value → Option String
  | .str s => some s
  | _ => none

/-- A size that `int()` reads and the program uses as one.  A negative size never passes the
check of the base image against a directory that `provision` made. -/
def sizeField {R : Runtime} (v : R.Value) : Except Raised Nat := do
  let i ← pyInt v
  if i < 0 then throw (.journalCorruptionError "base image size does not match metadata")
  return i.toNat

/-- The head of `__init__`: `metadata.json`. -/
def Metadata.read (R : Runtime) (bs : Bytes) : Except Raised Metadata := do
  let cs ← (decodeUtf8 bs).elim (.error .unicodeDecodeError) .ok
  let value ← (Json.loadsText (F := R.Float) cs).elim (.error .jsonDecodeError) .ok
  let kvs ← asDict .attributeError value
  if (kvs.get "format").bind asStr ≠ some "aegis-reference-journal-v1" then
    throw (.valueError "unsupported journal format")
  let deviceId ← (asStr (← getItem kvs "device_id")).elim (.error .typeError) .ok
  let blocks ← sizeField (← getItem kvs "blocks")
  let blockSize ← sizeField (← getItem kvs "block_size")
  return ⟨deviceId, blocks, blockSize⟩

/-- `provision`, up to the opening of the new directory. -/
def provision (R : Runtime) (blocks blockSize : Nat) (deviceId : String) : Except Raised Dir :=
  if blocks < 1 ∨ blockSize < 512 ∨ blockSize &&& (blockSize - 1) ≠ 0 then
    .error (.valueError "blocks must be positive and block_size a power of two >= 512")
  else
    let md : Metadata := ⟨deviceId, blocks, blockSize⟩
    .ok { metadata := R.canonicalBytes md.toJson ++ [newline]
          base := List.replicate (blocks * blockSize) 0
          log := []
          torn := [] }

/-! ## 3. Records -/

/-- The `body` of a record, before its own hash is added. -/
def recordBody {R : Runtime} (cur : Cursor) (start count : Nat) (data : Bytes) : Dict R.Value :=
  [("block", .int start), ("blocks", .int count), ("crc32", .int (crc32 data)),
    ("data_b64", .str (String.ofList (b64encode data))), ("previous_hash", .str cur.lastHash),
    ("sequence", .int cur.nextSequence)]

/-- The digest of a record's body. -/
def recordDigest (R : Runtime) (cur : Cursor) (start count : Nat) (data : Bytes) : Bytes :=
  R.sha256 (R.canonicalBytes (.obj (recordBody cur start count data)))

/-- The line `append` writes. -/
def serialized (R : Runtime) (cur : Cursor) (start count : Nat) (data : Bytes) : Bytes :=
  sealedLine R "record_hash" (recordBody cur start count data)

/-- What the structural part of `_replay` takes out of a line. -/
structure Parsed (R : Runtime) where
  /-- The record without its `record_hash`. -/
  value : R.FileDict
  storedHash : R.FileValue
  data : Bytes
  previousHash : R.FileValue
  sequence : Int
  crc : Int
  blocks : Int
  block : Int

/-- The `try` block of `_replay`: any exception is `none`. -/
def parseRecord (R : Runtime) (lim : Limits) (raw : Bytes) : Option (Parsed R) := do
  let kvs ← (FileValue.asDict .typeError (← PyJson.loads (F := R.Float) lim raw)).toOption
  let storedHash ← FileValue.get kvs "record_hash"
  let value := FileValue.pop kvs "record_hash"
  let text ← FileValue.asStr (← FileValue.get value "data_b64")
  let data ← b64decode true (← text.chars)
  let previousHash ← FileValue.get value "previous_hash"
  let sequence ← (FileValue.pyInt lim (← FileValue.get value "sequence")).toOption
  let crc ← (FileValue.pyInt lim (← FileValue.get value "crc32")).toOption
  let blocks ← (FileValue.pyInt lim ((FileValue.get value "blocks").getD (.int 1))).toOption
  let block ← (FileValue.pyInt lim (← FileValue.get value "block")).toOption
  return ⟨value, storedHash, data, previousHash, sequence, crc, blocks, block⟩

/-- `_fail`. -/
def failLine (reason : String) (line : Nat) : Raised :=
  .journalCorruptionError s!"{reason} on line {line}"

/-- The integrity checks of `_replay` on a line that parsed, and the index entry it adds. -/
def acceptRecord (R : Runtime) (lim : Limits) (md : Metadata) (cur : Cursor) (line length : Nat)
    (p : Parsed R) : Except Raised Cursor := do
  let expected ← FileValue.hashed R lim p.value
  if FileValue.asStr p.storedHash ≠ some (PyStr.ofString expected) then
    throw (failLine "hash mismatch" line)
  if FileValue.asStr p.previousHash ≠ some (PyStr.ofString cur.lastHash) then
    throw (failLine "chain mismatch" line)
  if p.sequence ≠ cur.nextSequence then throw (failLine "sequence mismatch" line)
  if (crc32 p.data : Int) ≠ p.crc then throw (failLine "CRC mismatch" line)
  if p.blocks < 1 ∨ (p.data.length : Int) ≠ p.blocks * md.blockSize then
    throw (failLine "record size mismatch" line)
  md.checkRange p.block p.blocks
  let digest ← (fromHex expected).elim (.error (.valueError "non-hexadecimal number")) .ok
  let position := cur.index.length
  return {
    index := cur.index ++ [⟨cur.nextSequence, p.block.toNat, p.blocks.toNat, cur.logSize, digest⟩]
    overlay := coverRange cur.overlay p.block.toNat p.blocks.toNat position
    lastHash := expected
    nextSequence := cur.nextSequence + 1
    logSize := cur.logSize + length }

/-! ## 4. Opening -/

/-- The loop of `_replay`.  The second result is the offset of a torn tail. -/
def replayLines (R : Runtime) (lim : Limits) (md : Metadata) (fileSize : Nat) :
    Cursor → Nat → List Bytes → Except Raised (Cursor × Option Nat)
  | cur, _, [] => .ok (cur, none)
  | cur, line, raw :: rest =>
    if blank raw then
      replayLines R lim md fileSize { cur with logSize := cur.logSize + raw.length } (line + 1) rest
    else match parseRecord R lim raw with
      | none =>
        if fileSize ≤ cur.logSize + raw.length then .ok (cur, some cur.logSize)
        else .error (.journalCorruptionError s!"invalid journal record on line {line}")
      | some p => do
        let cur' ← acceptRecord R lim md cur line raw.length p
        replayLines R lim md fileSize cur' (line + 1) rest

/-- `_discard_torn_tail`: preserve the tail in a sidecar, then truncate. -/
def discardTornTail (d : Dir) (offset : Nat) (reason : String) : TailRecovery × Dir :=
  let torn := d.log.drop offset
  (⟨torn.length, reason, s!"journal.jsonl.torn-{offset}"⟩,
    { d with log := d.log.take offset
             torn := (offset, torn) :: d.torn.filter (fun s => s.1 ≠ offset) })

/-- `DurableJournal(root)`. -/
def DurableJournal.initUnder (lim : Limits) (R : Runtime) (d : Dir) :
    Except Raised (DurableJournal × Dir) := do
  let md ← Metadata.read R d.metadata
  if d.base.length ≠ md.blocks * md.blockSize then
    throw (.journalCorruptionError "base image size does not match metadata")
  let (cur, torn) ← replayLines R lim md d.log.length Cursor.empty 1 (splitLines d.log)
  match torn with
  | none => return (⟨md, cur, none⟩, d)
  | some offset =>
    let (recovery, d') := discardTornTail d offset "incomplete final record"
    return (⟨md, cur, some recovery⟩, d')

/-- The same, when nothing in the files is over a limit. -/
def DurableJournal.init (R : Runtime) (d : Dir) : Except Raised (DurableJournal × Dir) :=
  initUnder .off R d

namespace DurableJournal

/-- `last_sequence`. -/
def lastSequence (j : DurableJournal) : Nat := j.nextSequence - 1

/-! ## 5. Reading -/

/-- `_payload_at`: the line at the indexed offset, checked on the way out. -/
def payloadAt (R : Runtime) (j : DurableJournal) (d : Dir) (position : Nat) :
    Except Raised Bytes := do
  let entry ← (j.index[position]?).elim (.error .indexError) .ok
  let raw := readline (d.log.drop entry.offset)
  let unreadable :=
    Raised.journalCorruptionError s!"journal record {entry.sequence} could not be read back"
  let kvs ← ((FileValue.loads R .off raw).bind (FileValue.asDict .typeError)).mapError
    fun _ => unreadable
  let text ← ((FileValue.get kvs "data_b64").bind FileValue.asStr).elim (.error unreadable) .ok
  let data ← (text.chars.bind (b64decode true)).elim (.error unreadable) .ok
  if (← FileValue.pyInt .off (← FileValue.getItem kvs "sequence")) ≠ entry.sequence then
    throw (.journalCorruptionError
      s!"journal record {entry.sequence} is not at its indexed offset")
  if (crc32 data : Int) ≠ (← FileValue.pyInt .off (← FileValue.getItem kvs "crc32")) then
    throw (.journalCorruptionError s!"CRC mismatch reading record {entry.sequence}")
  if data.length ≠ entry.blocks * j.blockSize then
    throw (.journalCorruptionError s!"record {entry.sequence} has unexpected length")
  return data

/-- `_block_from`. -/
def blockFrom (R : Runtime) (j : DurableJournal) (d : Dir) (position block : Nat) :
    Except Raised Bytes := do
  let entry ← (j.index[position]?).elim (.error .indexError) .ok
  let data ← j.payloadAt R d position
  let start := (block - entry.block) * j.blockSize
  return (data.drop start).take j.blockSize

/-- The newest record at or before a sequence that covers a block: the reverse scan of `read`. -/
def scanBack (j : DurableJournal) (atSequence : Int) (current : Nat) : Option Nat :=
  (j.index.zipIdx.reverse.find? fun p =>
    ¬ ((p.1.sequence : Int) > atSequence) ∧
      p.1.block ≤ current ∧ current < p.1.block + p.1.blocks).map Prod.snd

/-- The position `read` takes a block from, if any record owns it. -/
def owner (j : DurableJournal) (atSequence : Option Int) (current : Nat) : Option Nat :=
  match atSequence with
  | none => j.overlay current
  | some s => j.scanBack s current

/-- One block of `read`: from the record that owns it, else from the base image. -/
def readBlock (R : Runtime) (j : DurableJournal) (d : Dir) (atSequence : Option Int)
    (current : Nat) : Except Raised Bytes :=
  match j.owner atSequence current with
  | some position => j.blockFrom R d position current
  | none => .ok ((d.base.drop (current * j.blockSize)).take j.blockSize)

/-- `read`. -/
def read (R : Runtime) (j : DurableJournal) (d : Dir) (block count : Int)
    (atSequence : Option Int) : Except Raised Bytes := do
  j.checkRange block count
  if atSequence.any fun s => ¬ (0 ≤ s ∧ s ≤ (j.lastSequence : Int)) then
    throw (.valueError "invalid sequence")
  let parts ← (List.range' block.toNat count.toNat).mapM (j.readBlock R d atSequence)
  return parts.flatten

/-! ## 6. Appending -/

/-- `append` up to the write: the record's bytes, and the object once the write has returned. -/
def prepare (R : Runtime) (j : DurableJournal) (startBlock : Int) (data : Bytes) :
    Except Raised (Bytes × DurableJournal) := do
  if data = [] ∨ data.length % j.blockSize ≠ 0 then
    throw (.valueError "write must be a non-empty multiple of block_size")
  let count := data.length / j.blockSize
  j.checkRange startBlock count
  let start := startBlock.toNat
  let digest := recordDigest R j.toCursor start count data
  let line := serialized R j.toCursor start count data
  let position := j.index.length
  return (line, { j with
    logSize := j.logSize + line.length
    index := j.index ++ [⟨j.nextSequence, start, count, j.logSize, digest⟩]
    overlay := coverRange j.overlay start count position
    lastHash := hex digest
    nextSequence := j.nextSequence + 1 })

/-- `append`, when the write and the fsync return. -/
def append (R : Runtime) (j : DurableJournal) (d : Dir) (startBlock : Int) (data : Bytes) :
    Except Raised (Nat × DurableJournal × Dir) := do
  let (line, j') ← j.prepare R startBlock data
  return (j.nextSequence, j', { d with log := d.log ++ line })

/-! ## 7. Snapshots and compaction -/

/-- The characters a snapshot name may hold. -/
def nameChar (c : Char) : Bool :=
  ('a' ≤ c && c ≤ 'z') || ('A' ≤ c && c ≤ 'Z') || ('0' ≤ c && c ≤ '9') || c = '-' || c = '_'

/-- The lines a truncated snapshot keeps. -/
def keptLines (R : Runtime) (atSequence : Int) : List Bytes → Except Raised (List Bytes)
  | [] => .ok []
  | raw :: rest =>
    if blank raw then keptLines R atSequence rest
    else do
      let kvs ← FileValue.asDict .typeError (← FileValue.loads R .off raw)
      if (← FileValue.pyInt .off (← FileValue.getItem kvs "sequence")) > atSequence then return []
      let line := if raw.getLast? = some newline then raw else raw ++ [newline]
      return line :: (← keptLines R atSequence rest)

/-- `snapshot`: the copy, verified by opening it, under its name. -/
def snapshot (R : Runtime) (j : DurableJournal) (r : Root) (name : String)
    (atSequence : Option Int) : Except Raised Root := do
  if name = "" ∨ name.toList.any (fun c => !nameChar c) then
    throw (.valueError "snapshot name may contain only letters, digits, dash, and underscore")
  if atSequence.any fun s => ¬ (0 ≤ s ∧ s ≤ (j.lastSequence : Int)) then
    throw (.valueError "invalid snapshot sequence")
  if (r.snapshots.any fun s => s.1 = name) then throw .fileExistsError
  let log ← match atSequence with
    | none => pure r.log
    | some s => (keptLines R s (splitLines r.log)).map List.flatten
  let (_, copy) ← DurableJournal.init R ⟨r.metadata, r.base, log, []⟩
  return { r with snapshots := (name, copy) :: r.snapshots }

/-- `COMPACT_CHUNK_BLOCKS`. -/
def compactChunkBlocks : Nat := 256

/-- The ranges `compact` materialises, a chunk at a time. -/
def chunks (blocks : Nat) : List (Nat × Nat) :=
  (List.range ((blocks + compactChunkBlocks - 1) / compactChunkBlocks)).map fun i =>
    (i * compactChunkBlocks, min compactChunkBlocks (blocks - i * compactChunkBlocks))

/-- What `compact` writes to `base.img.new`. -/
def materialise (R : Runtime) (j : DurableJournal) (d : Dir) : Except Raised Bytes := do
  let parts ← (chunks j.blocks).mapM fun c => j.read R d c.1 c.2 none
  return parts.flatten

/-- The object after a compaction: every variable of the cursor is reset. -/
def reset (j : DurableJournal) : DurableJournal := { j with toCursor := Cursor.empty }

/-- `compact`. -/
def compact (R : Runtime) (j : DurableJournal) (r : Root) (snapshotName : String) :
    Except Raised (DurableJournal × Root) := do
  let r ← j.snapshot R r snapshotName none
  let image ← j.materialise R r.toDir
  return (j.reset, { r with base := image, log := [] })

end DurableJournal

end AegisShield
