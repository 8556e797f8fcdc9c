/-
# The copy-on-write store (`CowStore`)

Two banks hold a state each, and a superblock per bank vouches for it.  A transaction works on a
copy of the active bank; a commit writes the other bank, then its superblock, and flips.  `recover`
takes the newest bank whose superblock verifies.
-/
import AegisShield.Storage.Basic

namespace AegisShield.Storage

open Lib

/-! ## 1. Superblocks -/

/-- `Superblock`. -/
structure Superblock where
  present : Bool
  magic : Nat
  generation : Generation
  bank : Nat
  stateChecksum : UInt64
  descriptorChecksum : UInt64
  deriving DecidableEq

namespace Superblock

/-- `SUPERBLOCK_MAGIC`. -/
def superblockMagic : Nat := 0x4e5253544f524531

/-- `Superblock::EMPTY`. -/
def empty : Superblock := ⟨false, 0, 0, 0, 0, 0⟩

/-- `expected_checksum`. -/
def expectedChecksum (b : Superblock) : UInt64 :=
  (((((IntegrityChecksum.new.pushBool b.present).pushU64 b.magic).pushU64 b.generation).pushU64
    b.bank).pushU64 b.stateChecksum.toNat).finish

/-- `Superblock::new`. -/
def new (bank : Nat) (state : StoreState) : Except Error Superblock := do
  let bank ← tryU8 bank .invariantViolation
  let descriptor : Superblock :=
    ⟨true, superblockMagic, state.generation, bank, state.checksum, 0⟩
  return { descriptor with descriptorChecksum := descriptor.expectedChecksum }

/-- `verify`. -/
def verify (b : Superblock) (bank : Nat) (state : StoreState) : Bool :=
  b.present && b.magic = superblockMagic && b.bank = bank && b.generation = state.generation &&
    b.stateChecksum = state.checksum && b.descriptorChecksum = b.expectedChecksum

/-- `descriptor_checksum ^= 1`. -/
def flip (b : Superblock) : Superblock := { b with descriptorChecksum := b.descriptorChecksum ^^^ 1 }

end Superblock

/-! ## 2. The store -/

/-- `CowStore`. -/
structure CowStore where
  config : Config
  banks : Fin 2 → StoreState
  superblocks : Fin 2 → Superblock
  activeBank : Fin 2
  active : Option WorkingTransaction
  nextTransaction : Nat
  snapshots : SnapshotSet
  fault : FaultPoint

namespace CowStore

/-- `CowStore::new`. -/
def new (config : Config) : Except Error CowStore := do
  let _ ← Config.new config.quotaBytes config.recoveryReserveBytes
  let state := StoreState.empty
  let first ← Superblock.new 0 state
  return {
    config := config
    banks := fun _ => state
    superblocks := fun i => if i = 0 then first else Superblock.empty
    activeBank := 0
    active := none
    nextTransaction := 1
    snapshots := SnapshotSet.new
    fault := .none }

/-- `committed`. -/
def committed (s : CowStore) : StoreState := s.banks s.activeBank

/-- `generation`. -/
def generation (s : CowStore) : Generation := s.committed.generation

/-- `check_transaction`. -/
def checkTransaction (s : CowStore) (transaction : TransactionId) (now : Tick) :
    Except Error Unit := do
  (← okOr s.active .noActiveTransaction).check transaction now

/-- `1usize.checked_sub(self.active_bank)`, the other bank. -/
def inactive (s : CowStore) : Except Error (Fin 2) :=
  if h : s.activeBank.val ≤ 1 then .ok ⟨1 - s.activeBank.val, by omega⟩
  else .error .invariantViolation

/-- `begin`. -/
def begin (s : CowStore) (now : Tick) (deadline : Deadline) : Except Error TransactionId × CowStore :=
  if s.active.isSome then (.error .transactionBusy, s)
  else if now ≥ deadline then (.error .deadlineExceeded, s)
  else
    attempt (okOr (checkedAdd s.nextTransaction 1) .arithmeticOverflow) s fun next =>
    let id : TransactionId := ⟨s.nextTransaction, s.generation⟩
    (.ok id, { s with nextTransaction := next, active := some ⟨id, deadline, false, s.committed⟩ })

/-- The body of `create`, `write`, `truncate`, `delete` and `bind`: the operation, in place. -/
def mutate {α : Type} (s : CowStore) (transaction : TransactionId) (now : Tick)
    (op : StoreState → Except Error α × StoreState) : Except Error α × CowStore :=
  attempt (s.checkTransaction transaction now) s fun _ =>
  attempt (okOr s.active .noActiveTransaction) s fun working =>
  let r := op working.state
  (r.1, { s with active := some { working with state := r.2 } })

/-- `create`. -/
def create (s : CowStore) (transaction : TransactionId) (now : Tick) :
    Except Error ObjectHandle × CowStore := s.mutate transaction now StoreState.create

/-- `write`. -/
def write (s : CowStore) (transaction : TransactionId) (now : Tick) (handle : ObjectHandle)
    (offset : Nat) (input : Bytes) : Except Error Unit × CowStore :=
  s.mutate transaction now fun state => state.write handle offset input s.config

/-- `truncate`. -/
def truncate (s : CowStore) (transaction : TransactionId) (now : Tick) (handle : ObjectHandle)
    (newLen : Nat) : Except Error Unit × CowStore :=
  s.mutate transaction now fun state => state.truncate handle newLen s.config

/-- `delete`. -/
def delete (s : CowStore) (transaction : TransactionId) (now : Tick) (handle : ObjectHandle) :
    Except Error Unit × CowStore := s.mutate transaction now fun state => state.delete handle

/-- `bind`. -/
def bind (s : CowStore) (transaction : TransactionId) (now : Tick) (name : Name)
    (handle : ObjectHandle) : Except Error Unit × CowStore :=
  s.mutate transaction now fun state => state.bind name handle

/-- `read`. -/
def read (s : CowStore) (handle : ObjectHandle) (offset : Nat) (output : Bytes) :
    Except Error (Nat × Bytes) := s.committed.read handle offset output

/-- `lookup`. -/
def lookup (s : CowStore) (name : Name) : Except Error ObjectHandle := s.committed.lookup name

/-- `commit` from the write of the inactive bank on. -/
def publish (s : CowStore) (inactive : Fin 2) (candidate : StoreState)
    (durability : CommitDurability) : Except Error CommitReceipt × CowStore :=
  let fault := s.fault
  let s := { s with
    superblocks := Function.update s.superblocks inactive Superblock.empty
    banks := Function.update s.banks inactive candidate
    fault := .none
    active := none }
  if fault = .beforeCommitReceipt then (.error (.interrupted fault), s)
  else
    attempt (Superblock.new inactive candidate) s fun descriptor =>
    let descriptor := if fault = .corruptCommitReceipt then descriptor.flip else descriptor
    let s := { s with superblocks := Function.update s.superblocks inactive descriptor }
    if fault = .afterCommitReceipt ∨ fault = .corruptCommitReceipt then
      (.error (.interrupted fault), s)
    else
      (.ok (CommitReceipt.new .cow candidate.generation candidate.checksum durability),
        { s with activeBank := inactive })

/-- `commit`. -/
def commit (s : CowStore) (transaction : TransactionId) (now : Tick) (durability : Durability) :
    Except Error CommitReceipt × CowStore :=
  attempt (s.checkTransaction transaction now) s fun _ =>
  attempt (okOr s.active .noActiveTransaction) s fun working =>
  attempt (nextGeneration transaction.baseGeneration) s fun generation =>
  let candidate := { working.state with generation := generation }
  attempt (validateDurability durability .cow transaction candidate.generation candidate.checksum) s
    fun commitDurability =>
  attempt s.inactive s fun inactive => s.publish inactive candidate commitDurability

/-- `abort`. -/
def abort (s : CowStore) (transaction : TransactionId) : Except Error Unit × CowStore :=
  attempt (okOr s.active .noActiveTransaction) s fun current =>
  if current.id ≠ transaction then (.error .staleTransaction, s)
  else (.ok (), { s with active := none })

/-- `cancel`. -/
def cancel (s : CowStore) (transaction : TransactionId) : Except Error Unit × CowStore :=
  attempt (okOr s.active .noActiveTransaction) s fun current =>
  if current.id ≠ transaction then (.error .staleTransaction, s)
  else (.ok (), { s with active := some { current with cancelled := true } })

/-- `snapshot`. -/
def snapshot (s : CowStore) : Except Error SnapshotId × CowStore :=
  let r := s.snapshots.capture s.committed
  (r.1, { s with snapshots := r.2 })

/-- `read_snapshot`. -/
def readSnapshot (s : CowStore) (snapshot : SnapshotId) (handle : ObjectHandle) (offset : Nat)
    (output : Bytes) : Except Error (Nat × Bytes) := do
  (← s.snapshots.state snapshot).read handle offset output

/-- A superblock that `gc` empties. -/
def reclaims (s : CowStore) (retainFrom : Generation) (i : Fin 2) : Bool :=
  i ≠ s.activeBank && (s.superblocks i).present && (s.superblocks i).generation < retainFrom

/-- `gc`. -/
def gc (s : CowStore) (retainFrom : Generation) : GcReport × CowStore :=
  let r := s.snapshots.gc retainFrom
  (⟨r.1, (List.finRange 2).countP (s.reclaims retainFrom)⟩,
    { s with
      snapshots := r.2
      superblocks := fun i =>
        if s.reclaims retainFrom i then Superblock.empty else s.superblocks i })

/-- `inject_fault`. -/
def injectFault (s : CowStore) (fault : FaultPoint) : CowStore := { s with fault := fault }

/-- `corrupt_pending_metadata`. -/
def corruptPendingMetadata (s : CowStore) : Except Error Unit × CowStore :=
  attempt (okOr (position (fun b => b.present && b.generation > s.generation) s.superblocks)
    .noPendingRecovery) s fun i =>
  (.ok (), { s with superblocks := Function.update s.superblocks i (s.superblocks i).flip })

/-! ## 3. Recovery -/

/-- What the scan of the superblocks has found so far. -/
structure Scan where
  selected : Option (Fin 2 × Generation × UInt64)
  rejected : Nat
  changed : Bool
  superblocks : Fin 2 → Superblock

/-- The first loop of `recover`. -/
def scan (s : CowStore) : List (Fin 2) → Scan → Except Error Unit × Scan
  | [], found => (.ok (), found)
  | i :: rest, found =>
    let descriptor := s.superblocks i
    let this := some (i, descriptor.generation, descriptor.stateChecksum)
    if !descriptor.present then s.scan rest found
    else if descriptor.verify i (s.banks i) then
      match found.selected with
      | some (_, generation, stateChecksum) =>
        if descriptor.generation = generation ∧ descriptor.stateChecksum ≠ stateChecksum then
          (.error .corruptRecoveryMetadata, found)
        else if descriptor.generation > generation then
          s.scan rest { found with selected := this }
        else s.scan rest found
      | none => s.scan rest { found with selected := this }
    else
      s.scan rest { found with
        superblocks := Function.update found.superblocks i Superblock.empty
        rejected := found.rejected + 1
        changed := true }

/-- `recover`. -/
def recover (s : CowStore) : Except Error RecoveryReport × CowStore :=
  let s := { s with active := none, fault := .none }
  let r := s.scan (List.finRange 2) ⟨none, 0, false, s.superblocks⟩
  let s := { s with superblocks := r.2.superblocks }
  attempt r.1 s fun _ =>
  attempt (okOr r.2.selected .corruptRecoveryMetadata) s fun selected =>
  let bank := selected.1
  let generation := selected.2.1
  -- a bank without a superblock that is ahead of the selected one was never committed
  let uncommitted := fun i => !(s.superblocks i).present && (s.banks i).generation > generation
  let discarded := (List.finRange 2).any uncommitted
  (.ok ⟨generation, r.2.changed || discarded || bank ≠ s.activeBank, r.2.rejected, discarded⟩,
    { s with
      banks := fun i => if uncommitted i then s.banks bank else s.banks i
      activeBank := bank })

end CowStore

end AegisShield.Storage
