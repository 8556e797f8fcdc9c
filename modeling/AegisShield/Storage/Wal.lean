/-
# The write-ahead-log store (`WalStore`)

A transaction logs a record for each of its operations; a commit logs a receipt and then replaces
the base.  `recover` replays a log that ends in a receipt and discards any other.

The log is the list of its entries, so `log_len` is its length; it takes `MAX_WAL_RECORDS`.
-/
import AegisShield.Storage.Basic

namespace AegisShield.Storage

open Lib

/-! ## 1. Records -/

/-- `WritePayload`. -/
structure WritePayload where
  len : Nat
  bytes : Fin maxIoBytes → UInt8

/-- `WritePayload::new`. -/
def WritePayload.new (input : Bytes) : Except Error WritePayload := do
  if input.length > maxIoBytes then throw .ioTooLarge
  let len ← tryU8 input.length .ioTooLarge
  return ⟨len, fun i => input.getD i 0⟩

/-- `as_bytes`. -/
def WritePayload.asBytes (payload : WritePayload) : Bytes :=
  (List.ofFn payload.bytes).take payload.len

/-- `WalRecord`. -/
inductive WalRecord
  | empty
  | begin (transaction : TransactionId)
  | create (handle : ObjectHandle)
  | write (handle : ObjectHandle) (offset : Nat) (payload : WritePayload)
  | truncate (handle : ObjectHandle) (newLen : Nat)
  | delete (handle : ObjectHandle)
  | bind (name : Name) (handle : ObjectHandle)
  | commit (generation : Generation) (stateChecksum : UInt64)

/-- `checksum`. -/
def WalRecord.checksum (record : WalRecord) : UInt64 :=
  let c := IntegrityChecksum.new
  let c := match record with
    | .empty => c.pushU64 0
    | .begin transaction =>
      ((c.pushU64 1).pushU64 transaction.nonce).pushU64 transaction.baseGeneration
    | .create handle => ((c.pushU64 2).pushU64 handle.id).pushU64 handle.generation
    | .write handle offset payload =>
      ((((c.pushU64 3).pushU64 handle.id).pushU64 handle.generation).pushU64 offset).pushBytes
        payload.asBytes
    | .truncate handle newLen =>
      (((c.pushU64 4).pushU64 handle.id).pushU64 handle.generation).pushU64 newLen
    | .delete handle => ((c.pushU64 5).pushU64 handle.id).pushU64 handle.generation
    | .bind name handle =>
      (((c.pushU64 6).pushBytes name.asBytes).pushU64 handle.id).pushU64 handle.generation
    | .commit generation stateChecksum =>
      ((c.pushU64 7).pushU64 generation).pushU64 stateChecksum.toNat
  c.finish

/-- `WalEntry`. -/
structure WalEntry where
  present : Bool
  record : WalRecord
  checksum : UInt64

namespace WalEntry

/-- `WalEntry::new`. -/
def new (record : WalRecord) : WalEntry := ⟨true, record, record.checksum⟩

/-- `verify`. -/
def verify (e : WalEntry) : Bool := e.present && e.checksum = e.record.checksum

/-- `checksum ^= 1`. -/
def flip (e : WalEntry) : WalEntry := { e with checksum := e.checksum ^^^ 1 }

end WalEntry

/-- `self.log[last].checksum ^= 1`, or the error of a log without a last entry. -/
def flipLast (log : List WalEntry) (e : Error) : Except Error (List WalEntry) :=
  match log.getLast? with
  | none => .error e
  | some last => .ok (log.dropLast ++ [last.flip])

/-! ## 2. The store -/

/-- `WalStore`. -/
structure WalStore where
  config : Config
  base : StoreState
  active : Option WorkingTransaction
  nextTransaction : Nat
  snapshots : SnapshotSet
  log : List WalEntry
  fault : FaultPoint

namespace WalStore

/-- `WalStore::new`. -/
def new (config : Config) : Except Error WalStore := do
  let _ ← Config.new config.quotaBytes config.recoveryReserveBytes
  return {
    config := config
    base := StoreState.empty
    active := none
    nextTransaction := 1
    snapshots := SnapshotSet.new
    log := []
    fault := .none }

/-- `generation`. -/
def generation (s : WalStore) : Generation := s.base.generation

/-- `check_transaction`. -/
def checkTransaction (s : WalStore) (transaction : TransactionId) (now : Tick) :
    Except Error Unit := do
  (← okOr s.active .noActiveTransaction).check transaction now

/-- `append`. -/
def append (s : WalStore) (record : WalRecord) : Except Error Unit × WalStore :=
  if s.log.length < maxWalRecords then (.ok (), { s with log := s.log ++ [WalEntry.new record] })
  else (.error .walFull, s)

/-- `clear_log`. -/
def clearLog (s : WalStore) : WalStore := { s with log := [] }

/-- `begin`. -/
def begin (s : WalStore) (now : Tick) (deadline : Deadline) : Except Error TransactionId × WalStore :=
  if s.active.isSome then (.error .transactionBusy, s)
  else if s.log.length ≠ 0 then (.error .recoveryRequired, s)
  else if now ≥ deadline then (.error .deadlineExceeded, s)
  else
    attempt (okOr (checkedAdd s.nextTransaction 1) .arithmeticOverflow) s fun next =>
    let id : TransactionId := ⟨s.nextTransaction, s.base.generation⟩
    let r := s.append (.begin id)
    attempt r.1 r.2 fun _ =>
    let s := r.2
    (.ok id, { s with nextTransaction := next, active := some ⟨id, deadline, false, s.base⟩ })

/-- The operation on a copy of the working state, its record, and the copy in place of the working
state. -/
def logged {α : Type} (s : WalStore) (op : StoreState → Except Error α × StoreState)
    (record : α → WalRecord) : Except Error α × WalStore :=
  attempt (okOr s.active .noActiveTransaction) s fun working =>
  let r := op working.state
  attempt r.1 s fun a =>
  let appended := s.append (record a)
  attempt appended.1 appended.2 fun _ =>
  attempt (okOr appended.2.active .noActiveTransaction) appended.2 fun working =>
  (.ok a, { appended.2 with active := some { working with state := r.2 } })

/-- The body of `create`, `truncate`, `delete` and `bind`. -/
def mutate {α : Type} (s : WalStore) (transaction : TransactionId) (now : Tick)
    (op : StoreState → Except Error α × StoreState) (record : α → WalRecord) :
    Except Error α × WalStore :=
  attempt (s.checkTransaction transaction now) s fun _ => s.logged op record

/-- `create`. -/
def create (s : WalStore) (transaction : TransactionId) (now : Tick) :
    Except Error ObjectHandle × WalStore := s.mutate transaction now StoreState.create .create

/-- `write`. -/
def write (s : WalStore) (transaction : TransactionId) (now : Tick) (handle : ObjectHandle)
    (offset : Nat) (input : Bytes) : Except Error Unit × WalStore :=
  attempt (s.checkTransaction transaction now) s fun _ =>
  attempt (WritePayload.new input) s fun payload =>
  s.logged (fun state => state.write handle offset input s.config) fun _ =>
    .write handle offset payload

/-- `truncate`. -/
def truncate (s : WalStore) (transaction : TransactionId) (now : Tick) (handle : ObjectHandle)
    (newLen : Nat) : Except Error Unit × WalStore :=
  s.mutate transaction now (fun state => state.truncate handle newLen s.config) fun _ =>
    .truncate handle newLen

/-- `delete`. -/
def delete (s : WalStore) (transaction : TransactionId) (now : Tick) (handle : ObjectHandle) :
    Except Error Unit × WalStore :=
  s.mutate transaction now (fun state => state.delete handle) fun _ => .delete handle

/-- `bind`. -/
def bind (s : WalStore) (transaction : TransactionId) (now : Tick) (name : Name)
    (handle : ObjectHandle) : Except Error Unit × WalStore :=
  s.mutate transaction now (fun state => state.bind name handle) fun _ => .bind name handle

/-- `read`. -/
def read (s : WalStore) (handle : ObjectHandle) (offset : Nat) (output : Bytes) :
    Except Error (Nat × Bytes) := s.base.read handle offset output

/-- `lookup`. -/
def lookup (s : WalStore) (name : Name) : Except Error ObjectHandle := s.base.lookup name

/-- `commit` from the fault point on. -/
def publish (s : WalStore) (candidate : StoreState) (durability : CommitDurability) :
    Except Error CommitReceipt × WalStore :=
  let fault := s.fault
  let s := { s with fault := .none }
  if fault = .beforeCommitReceipt then (.error (.interrupted fault), { s with active := none })
  else
    let r := s.append (.commit candidate.generation candidate.checksum)
    attempt r.1 r.2 fun _ =>
    let s := { r.2 with active := none }
    attempt (if fault = .corruptCommitReceipt then flipLast s.log .invariantViolation else .ok s.log)
      s fun log =>
    let s := { s with log := log }
    if fault = .afterCommitReceipt ∨ fault = .corruptCommitReceipt then
      (.error (.interrupted fault), s)
    else
      (.ok (CommitReceipt.new .wal candidate.generation candidate.checksum durability),
        { s with base := candidate }.clearLog)

/-- `commit`. -/
def commit (s : WalStore) (transaction : TransactionId) (now : Tick) (durability : Durability) :
    Except Error CommitReceipt × WalStore :=
  attempt (s.checkTransaction transaction now) s fun _ =>
  attempt (okOr s.active .noActiveTransaction) s fun working =>
  attempt (nextGeneration transaction.baseGeneration) s fun generation =>
  let candidate := { working.state with generation := generation }
  attempt (validateDurability durability .wal transaction candidate.generation candidate.checksum) s
    fun commitDurability =>
  s.publish candidate commitDurability

/-- `abort`. -/
def abort (s : WalStore) (transaction : TransactionId) : Except Error Unit × WalStore :=
  attempt (okOr s.active .noActiveTransaction) s fun current =>
  if current.id ≠ transaction then (.error .staleTransaction, s)
  else (.ok (), { s with active := none }.clearLog)

/-- `cancel`. -/
def cancel (s : WalStore) (transaction : TransactionId) : Except Error Unit × WalStore :=
  attempt (okOr s.active .noActiveTransaction) s fun current =>
  if current.id ≠ transaction then (.error .staleTransaction, s)
  else (.ok (), { s with active := some { current with cancelled := true } })

/-- `snapshot`. -/
def snapshot (s : WalStore) : Except Error SnapshotId × WalStore :=
  let r := s.snapshots.capture s.base
  (r.1, { s with snapshots := r.2 })

/-- `read_snapshot`. -/
def readSnapshot (s : WalStore) (snapshot : SnapshotId) (handle : ObjectHandle) (offset : Nat)
    (output : Bytes) : Except Error (Nat × Bytes) := do
  (← s.snapshots.state snapshot).read handle offset output

/-- `gc`. -/
def gc (s : WalStore) (retainFrom : Generation) : GcReport × WalStore :=
  let r := s.snapshots.gc retainFrom
  (⟨r.1, 0⟩, { s with snapshots := r.2 })

/-- `inject_fault`. -/
def injectFault (s : WalStore) (fault : FaultPoint) : WalStore := { s with fault := fault }

/-- `corrupt_pending_metadata`. -/
def corruptPendingMetadata (s : WalStore) : Except Error Unit × WalStore :=
  attempt (flipLast s.log .noPendingRecovery) s fun log => (.ok (), { s with log := log })

/-! ## 3. Recovery -/

/-- `reject_log`. -/
def rejectLog (s : WalStore) (rejected : Nat) (discardedUncommitted : Bool) :
    RecoveryReport × WalStore :=
  let s := s.clearLog
  (⟨s.base.generation, true, rejected, discardedUncommitted⟩, s)

/-- A replayed operation, unless it failed. -/
def keep (r : Except Error Unit × StoreState) : Option StoreState :=
  match r.1 with
  | .error _ => none
  | .ok _ => some r.2

/-- One round of the loop of `recover`: the replayed state and whether a receipt was seen.  `none`
rejects the log. -/
def replayEntry (config : Config) (transaction : TransactionId) (entry : WalEntry)
    (replayed : StoreState) (committed : Bool) : Except Error (Option (StoreState × Bool)) :=
  let go := fun r => (keep r).map fun state => (state, committed)
  match entry.record with
  | .empty => .ok none
  | .begin _ => .ok none
  | .create handle => .ok (go (replayed.replayCreate handle))
  | .write handle offset payload =>
    .ok (go (replayed.write handle offset payload.asBytes config))
  | .truncate handle newLen => .ok (go (replayed.truncate handle newLen config))
  | .delete handle => .ok (go (replayed.delete handle))
  | .bind name handle => .ok (go (replayed.bind name handle))
  | .commit generation stateChecksum => do
    if committed then return none
    if generation ≠ (← nextGeneration transaction.baseGeneration) then return none
    if entry.checksum ≠ entry.record.checksum then return none
    let replayed := { replayed with generation := generation }
    if replayed.checksum ≠ stateChecksum then return none
    return some (replayed, true)

/-- The loop of `recover`.  Nothing may follow a receipt. -/
def replay (config : Config) (transaction : TransactionId) :
    List WalEntry → StoreState → Bool → Except Error (Option (StoreState × Bool))
  | [], replayed, committed => .ok (some (replayed, committed))
  | entry :: rest, replayed, committed => do
    match ← replayEntry config transaction entry replayed committed with
    | none => return none
    | some (replayed, committed) =>
      if committed && !rest.isEmpty then return none
      replay config transaction rest replayed committed

/-- `recover`. -/
def recover (s : WalStore) : Except Error RecoveryReport × WalStore :=
  let s := { s with active := none, fault := .none }
  let reject : Except Error RecoveryReport × WalStore :=
    let r := s.rejectLog 1 true
    (.ok r.1, r.2)
  match s.log with
  | [] => (.ok ⟨s.base.generation, false, 0, false⟩, s)
  | first :: rest =>
    if s.log.any fun entry => !entry.verify then reject
    else match first.record with
      | .begin transaction =>
        if transaction.baseGeneration ≠ s.base.generation then reject
        else
          attempt (replay s.config transaction rest s.base false) s fun
            | none => reject
            | some (_, false) =>
              let s := s.clearLog
              (.ok ⟨s.base.generation, true, 0, true⟩, s)
            | some (replayed, true) =>
              let s := { s with base := replayed }.clearLog
              (.ok ⟨s.base.generation, true, 0, false⟩, s)
      | _ => reject

end WalStore

end AegisShield.Storage
