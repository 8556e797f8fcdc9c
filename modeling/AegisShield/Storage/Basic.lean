/-
# The storage core: states (`crates/storage-transaction-core/src/lib.rs`)

`StoreState` is what a store commits, works on, logs and snapshots: a table of objects, a table of
names, and the counters that new handles are taken from.  Its operations are here, with the
checksum over it; the two stores that use it are in `Cow` and `Wal`.

An array is a function on its indices, a counter a natural number with checked additions.  `usize`
has 64 bits, as the tests of the crate expect.  An operation leaves a state behind also when it
fails, since the source changes the state in place.
-/
import AegisShield.Lib.Text
import AegisShield.Lib.Fallible
import AegisShield.Lib.Slots
import Mathlib.Data.Fintype.Pi

namespace AegisShield.Storage

open Lib

/-! ## 1. Limits, identifiers and errors -/

/-- `MAX_OBJECTS`. -/
abbrev maxObjects : Nat := 8

/-- `MAX_NAMES`. -/
abbrev maxNames : Nat := 8

/-- `MAX_NAME_BYTES`. -/
abbrev maxNameBytes : Nat := 32

/-- `MAX_OBJECT_BYTES`. -/
abbrev maxObjectBytes : Nat := 128

/-- `MAX_IO_BYTES`. -/
abbrev maxIoBytes : Nat := 64

/-- `MAX_SNAPSHOTS`. -/
abbrev maxSnapshots : Nat := 2

/-- `MAX_WAL_RECORDS`. -/
abbrev maxWalRecords : Nat := 64

/-- `LOGICAL_CAPACITY_BYTES`. -/
abbrev logicalCapacityBytes : Nat := maxObjects * maxObjectBytes

abbrev ObjectId := Nat

abbrev Generation := Nat

abbrev Tick := Nat

abbrev Deadline := Nat

/-- `ObjectHandle`. -/
structure ObjectHandle where
  id : ObjectId
  generation : Generation
  deriving DecidableEq, Repr

/-- `TransactionId`. -/
structure TransactionId where
  nonce : Nat
  baseGeneration : Generation
  deriving DecidableEq, Repr

/-- `SnapshotId`. -/
structure SnapshotId where
  slot : Nat
  generation : Generation
  nonce : Nat
  deriving DecidableEq, Repr

/-- `VariantId`. -/
inductive VariantId
  | cow
  | wal
  deriving DecidableEq, Repr

/-- `FaultPoint`. -/
inductive FaultPoint
  | none
  | beforeCommitReceipt
  | afterCommitReceipt
  | corruptCommitReceipt
  deriving DecidableEq, Repr

/-- `Error`. -/
inductive Error
  | invalidConfig
  | invalidName
  | nameTooLong
  | transactionBusy
  | recoveryRequired
  | noActiveTransaction
  | staleTransaction
  | deadlineExceeded
  | cancelled
  | objectCapacity
  | namespaceCapacity
  | snapshotCapacity
  | objectTooLarge
  | ioTooLarge
  | offsetOutOfRange
  | arithmeticOverflow
  | quotaExceeded
  | recoveryReserveProtected
  | staleHandle
  | nameNotFound
  | staleSnapshot
  | invalidBarrierReceipt
  | walFull
  | noPendingRecovery
  | corruptRecoveryMetadata
  | invariantViolation
  | interrupted (fault : FaultPoint)
  deriving DecidableEq, Repr

/-- `Generation::next`. -/
def nextGeneration (g : Generation) : Except Error Generation :=
  okOr (checkedAdd g 1) .arithmeticOverflow

/-- `usize::try_from` of a `u64`. -/
def tryUsize (n : Nat) (e : Error) : Except Error Nat := if n < 2 ^ 64 then .ok n else .error e

/-- `u16::try_from` of a `usize`. -/
def tryU16 (n : Nat) (e : Error) : Except Error Nat := if n < 2 ^ 16 then .ok n else .error e

/-- `u8::try_from` of a `usize`. -/
def tryU8 (n : Nat) (e : Error) : Except Error Nat := if n < 2 ^ 8 then .ok n else .error e

/-! ## 2. Configurations and names -/

/-- `Config`.  Its fields are private, and `Config::new` is the only way to build one. -/
structure Config where
  quotaBytes : Nat
  recoveryReserveBytes : Nat
  quota_pos : quotaBytes ≠ 0
  quota_le : quotaBytes ≤ logicalCapacityBytes
  reserve_lt : recoveryReserveBytes < quotaBytes

/-- `Config::new`. -/
def Config.new (quotaBytes recoveryReserveBytes : Nat) : Except Error Config :=
  if h : quotaBytes = 0 ∨ quotaBytes > logicalCapacityBytes ∨ recoveryReserveBytes ≥ quotaBytes then
    .error .invalidConfig
  else
    .ok ⟨quotaBytes, recoveryReserveBytes, by omega, by omega, by omega⟩

/-- `Name`. -/
structure Name where
  bytes : Fin maxNameBytes → UInt8
  len : Nat
  deriving DecidableEq

/-- `Name::EMPTY`. -/
def Name.empty : Name := ⟨fun _ => 0, 0⟩

/-- A byte that no name holds: control characters, `/`, `\` and `DEL`. -/
def badNameByte (b : UInt8) : Bool := b = 0 || b = 47 || b = 92 || b < 32 || b = 127

/-- `Name::new`. -/
def Name.new (value : Bytes) : Except Error Name := do
  if value.isEmpty then throw .invalidName
  if value.length > maxNameBytes then throw .nameTooLong
  if value = [46] ∨ value = [46, 46] ∨ value.any badNameByte ∨
      value.getLast? = some 46 ∨ value.getLast? = some 32 then throw .invalidName
  let len ← tryU8 value.length .nameTooLong
  return ⟨fun i => value.getD i 0, len⟩

/-- `as_bytes`. -/
def Name.asBytes (name : Name) : Bytes := (List.ofFn name.bytes).take name.len

/-! ## 3. Checksums -/

/-- `IntegrityChecksum`. -/
structure IntegrityChecksum where
  value : UInt64
  deriving DecidableEq, Repr

namespace IntegrityChecksum

/-- `IntegrityChecksum::new`, with `CHECKSUM_OFFSET`. -/
def new : IntegrityChecksum := ⟨0xcbf29ce484222325⟩

/-- `push_byte`, with `CHECKSUM_PRIME`. -/
def pushByte (c : IntegrityChecksum) (value : UInt8) : IntegrityChecksum :=
  ⟨(c.value ^^^ value.toUInt64) * 0x00000100000001b3⟩

/-- `push_bool`. -/
def pushBool (c : IntegrityChecksum) (value : Bool) : IntegrityChecksum :=
  c.pushByte (if value then 1 else 0)

/-- `value.to_le_bytes()`. -/
def leBytes (value : Nat) : Bytes := (List.range 8).map fun i => UInt8.ofNat (value / 256 ^ i)

/-- `push_u64`. -/
def pushU64 (c : IntegrityChecksum) (value : Nat) : IntegrityChecksum :=
  (leBytes value).foldl pushByte c

/-- `push_bytes`. -/
def pushBytes (c : IntegrityChecksum) (value : Bytes) : IntegrityChecksum :=
  value.foldl pushByte (c.pushU64 value.length)

/-- `finish`. -/
def finish (c : IntegrityChecksum) : UInt64 := c.value

end IntegrityChecksum

/-- A checksum with its last bit flipped is another one. -/
theorem xor_one_ne (x : UInt64) : x ^^^ 1 ≠ x := by
  intro h
  have h1 : x ^^^ (x ^^^ 1) = x ^^^ x := congrArg (x ^^^ ·) h
  rw [← UInt64.xor_assoc, UInt64.xor_self, UInt64.zero_xor] at h1
  exact absurd h1 (by decide)

theorem xor_one_xor_one (x : UInt64) : (x ^^^ 1) ^^^ 1 = x := by
  rw [UInt64.xor_assoc, UInt64.xor_self, UInt64.xor_zero]

/-! ## 4. States -/

/-- `ObjectSlot`. -/
structure ObjectSlot where
  present : Bool
  id : ObjectId
  generation : Generation
  len : Nat
  data : Fin maxObjectBytes → UInt8

/-- `ObjectSlot::EMPTY`. -/
def ObjectSlot.empty : ObjectSlot := ⟨false, 0, 0, 0, fun _ => 0⟩

/-- `handle`. -/
def ObjectSlot.handle (o : ObjectSlot) : ObjectHandle := ⟨o.id, o.generation⟩

/-- `NamespaceSlot`. -/
structure NamespaceSlot where
  present : Bool
  name : Name
  handle : ObjectHandle

/-- `NamespaceSlot::EMPTY`. -/
def NamespaceSlot.empty : NamespaceSlot := ⟨false, Name.empty, ⟨0, 0⟩⟩

/-- `StoreState`. -/
structure StoreState where
  generation : Generation
  nextObjectId : Nat
  nextObjectGeneration : Nat
  objects : Fin maxObjects → ObjectSlot
  namespaces : Fin maxNames → NamespaceSlot

namespace StoreState

/-- `StoreState::empty`. -/
def empty : StoreState where
  generation := 0
  nextObjectId := 1
  nextObjectGeneration := 1
  objects _ := ObjectSlot.empty
  namespaces _ := NamespaceSlot.empty

/-- `used_bytes`. -/
def usedBytes (s : StoreState) : Except Error Nat :=
  (List.finRange maxObjects).foldlM (fun used i =>
    if (s.objects i).present then okOr (checkedAdd used (s.objects i).len) .arithmeticOverflow
    else .ok used) 0

/-- `ensure_quota`. -/
def ensureQuota (s : StoreState) (oldLen newLen : Nat) (config : Config) : Except Error Unit := do
  let withoutOld ← okOr (checkedSub (← s.usedBytes) oldLen) .invariantViolation
  let proposed ← okOr (checkedAdd withoutOld newLen) .arithmeticOverflow
  if proposed > config.quotaBytes then throw .quotaExceeded
  let withReserve ← okOr (checkedAdd proposed config.recoveryReserveBytes) .arithmeticOverflow
  if withReserve > config.quotaBytes then throw .recoveryReserveProtected

/-- `object_index`. -/
def objectIndex (s : StoreState) (handle : ObjectHandle) : Except Error (Fin maxObjects) :=
  okOr (position (fun o => o.present && o.handle = handle) s.objects) .staleHandle

/-- Replace an object slot. -/
def setObject (s : StoreState) (index : Fin maxObjects) (slot : ObjectSlot) : StoreState :=
  { s with objects := Function.update s.objects index slot }

/-- `create`. -/
def create (s : StoreState) : Except Error ObjectHandle × StoreState :=
  attempt (okOr (position (fun o => !o.present) s.objects) .objectCapacity) s fun index =>
  attempt (okOr (checkedAdd s.nextObjectId 1) .arithmeticOverflow) s fun nextId =>
  attempt (okOr (checkedAdd s.nextObjectGeneration 1) .arithmeticOverflow) s fun nextGeneration =>
    let handle : ObjectHandle := ⟨s.nextObjectId, s.nextObjectGeneration⟩
    (.ok handle,
      { s with nextObjectId := nextId, nextObjectGeneration := nextGeneration }.setObject index
        ⟨true, handle.id, handle.generation, 0, fun _ => 0⟩)

/-- `replay_create`.  Here the slot is taken before the counters are advanced. -/
def replayCreate (s : StoreState) (handle : ObjectHandle) : Except Error Unit × StoreState :=
  if handle.id ≠ s.nextObjectId ∨ handle.generation ≠ s.nextObjectGeneration then
    (.error .corruptRecoveryMetadata, s)
  else
    attempt (okOr (position (fun o => !o.present) s.objects) .objectCapacity) s fun index =>
    let s := s.setObject index ⟨true, handle.id, handle.generation, 0, fun _ => 0⟩
    attempt (okOr (checkedAdd handle.id 1) .arithmeticOverflow) s fun nextId =>
    let s := { s with nextObjectId := nextId }
    attempt (okOr (checkedAdd handle.generation 1) .arithmeticOverflow) s fun nextGeneration =>
    (.ok (), { s with nextObjectGeneration := nextGeneration })

/-- `data[offset..].copy_from_slice(input)`. -/
def copyFrom (data : Fin maxObjectBytes → UInt8) (offset : Nat) (input : Bytes) :
    Fin maxObjectBytes → UInt8 :=
  fun i => if offset ≤ i ∧ i < offset + input.length then input.getD (i - offset) 0 else data i

/-- `data[start..stop].fill(0)`. -/
def fillZero (data : Fin maxObjectBytes → UInt8) (start stop : Nat) : Fin maxObjectBytes → UInt8 :=
  fun i => if start ≤ i ∧ i < stop then 0 else data i

/-- `write`. -/
def write (s : StoreState) (handle : ObjectHandle) (offset : Nat) (input : Bytes)
    (config : Config) : Except Error Unit × StoreState :=
  if input.length > maxIoBytes then (.error .ioTooLarge, s)
  else
    attempt (tryUsize offset .offsetOutOfRange) s fun offset =>
    attempt (okOr (checkedAdd offset input.length) .arithmeticOverflow) s fun stop =>
    if stop > maxObjectBytes then (.error .objectTooLarge, s)
    else
      attempt (s.objectIndex handle) s fun index =>
      let slot := s.objects index
      let newLen := max slot.len stop
      attempt (s.ensureQuota slot.len newLen config) s fun _ =>
      let slot := { slot with data := copyFrom slot.data offset input }
      let s := s.setObject index slot
      attempt (tryU16 newLen .objectTooLarge) s fun len =>
      (.ok (), s.setObject index { slot with len := len })

/-- `truncate`. -/
def truncate (s : StoreState) (handle : ObjectHandle) (newLen : Nat) (config : Config) :
    Except Error Unit × StoreState :=
  attempt (tryUsize newLen .objectTooLarge) s fun newLen =>
  if newLen > maxObjectBytes then (.error .objectTooLarge, s)
  else
    attempt (s.objectIndex handle) s fun index =>
    let slot := s.objects index
    let oldLen := slot.len
    attempt (s.ensureQuota oldLen newLen config) s fun _ =>
    let slot :=
      if newLen < oldLen then { slot with data := fillZero slot.data newLen oldLen }
      else if newLen > oldLen then { slot with data := fillZero slot.data oldLen newLen }
      else slot
    let s := s.setObject index slot
    attempt (tryU16 newLen .objectTooLarge) s fun len =>
    (.ok (), s.setObject index { slot with len := len })

/-- `delete`. -/
def delete (s : StoreState) (handle : ObjectHandle) : Except Error Unit × StoreState :=
  attempt (s.objectIndex handle) s fun index =>
  let slot := s.objects index
  let s := s.setObject index { slot with present := false, len := 0, data := fun _ => 0 }
  (.ok (), { s with namespaces := fun i =>
    if (s.namespaces i).present && (s.namespaces i).handle = handle then NamespaceSlot.empty
    else s.namespaces i })

/-- `bind`. -/
def bind (s : StoreState) (name : Name) (handle : ObjectHandle) : Except Error Unit × StoreState :=
  attempt (s.objectIndex handle) s fun _ =>
  match position (fun slot => slot.present && slot.name = name) s.namespaces with
  | some i =>
    let slot := { s.namespaces i with handle := handle }
    (.ok (), { s with namespaces := Function.update s.namespaces i slot })
  | none =>
    attempt (okOr (position (fun slot => !slot.present) s.namespaces) .namespaceCapacity) s fun i =>
    (.ok (), { s with namespaces := Function.update s.namespaces i ⟨true, name, handle⟩ })

/-- `lookup`. -/
def lookup (s : StoreState) (name : Name) : Except Error ObjectHandle :=
  (okOr (position (fun slot => slot.present && slot.name = name) s.namespaces)
    .nameNotFound).map fun i => (s.namespaces i).handle

/-- `read`: the count, and the buffer after the call. -/
def read (s : StoreState) (handle : ObjectHandle) (offset : Nat) (output : Bytes) :
    Except Error (Nat × Bytes) := do
  let index ← s.objectIndex handle
  let offset ← tryUsize offset .offsetOutOfRange
  let slot := s.objects index
  if offset > slot.len then throw .offsetOutOfRange
  let count := min output.length (slot.len - offset)
  return (count, ((List.ofFn slot.data).drop offset).take count ++ output.drop count)

/-- `checksum`. -/
def checksum (s : StoreState) : UInt64 :=
  let c := ((IntegrityChecksum.new.pushU64 s.generation).pushU64 s.nextObjectId).pushU64
    s.nextObjectGeneration
  let c := (List.finRange maxObjects).foldl (fun c i =>
    let o := s.objects i
    ((((c.pushBool o.present).pushU64 o.id).pushU64 o.generation).pushU64 o.len).pushBytes
      (List.ofFn o.data)) c
  let c := (List.finRange maxNames).foldl (fun c i =>
    let slot := s.namespaces i
    ((((c.pushBool slot.present).pushBytes (List.ofFn slot.name.bytes)).pushU64
      slot.name.len).pushU64 slot.handle.id).pushU64 slot.handle.generation) c
  c.finish

end StoreState

/-! ## 5. Transactions, receipts and snapshots -/

/-- `WorkingTransaction`. -/
structure WorkingTransaction where
  id : TransactionId
  deadline : Deadline
  cancelled : Bool
  state : StoreState

/-- `check`. -/
def WorkingTransaction.check (w : WorkingTransaction) (id : TransactionId) (now : Tick) :
    Except Error Unit :=
  if w.id ≠ id then .error .staleTransaction
  else if now ≥ w.deadline then .error .deadlineExceeded
  else if w.cancelled then .error .cancelled
  else .ok ()

/-- `CommitDurability`. -/
inductive CommitDurability
  | memoryOnly
  | externallyConfirmed
  deriving DecidableEq, Repr

/-- `tag`. -/
def VariantId.tag : VariantId → Nat
  | cow => 1
  | wal => 2

/-- `commit_durability_tag`. -/
def CommitDurability.tag : CommitDurability → Nat
  | memoryOnly => 1
  | externallyConfirmed => 2

/-- `receipt_checksum`. -/
def receiptChecksum (variant : VariantId) (generation : Generation) (stateChecksum : UInt64)
    (durability : CommitDurability) : UInt64 :=
  ((((IntegrityChecksum.new.pushU64 variant.tag).pushU64 generation).pushU64
    stateChecksum.toNat).pushU64 durability.tag).finish

/-- `barrier_binding_checksum`. -/
def barrierBindingChecksum (variant : VariantId) (transaction : TransactionId)
    (targetGeneration : Generation) (stateChecksum : UInt64) (barrierEpoch : Nat) : UInt64 :=
  ((((((IntegrityChecksum.new.pushU64 variant.tag).pushU64 transaction.nonce).pushU64
    transaction.baseGeneration).pushU64 targetGeneration).pushU64 stateChecksum.toNat).pushU64
    barrierEpoch).finish

/-- `BarrierReceipt`. -/
structure BarrierReceipt where
  variant : VariantId
  transaction : TransactionId
  targetGeneration : Generation
  stateChecksum : UInt64
  barrierEpoch : Nat
  bindingChecksum : UInt64
  deriving DecidableEq

/-- `is_bound_to`. -/
def BarrierReceipt.isBoundTo (r : BarrierReceipt) (variant : VariantId)
    (transaction : TransactionId) (targetGeneration : Generation) (stateChecksum : UInt64) : Bool :=
  r.variant = variant && r.transaction = transaction && r.targetGeneration = targetGeneration &&
    r.stateChecksum = stateChecksum &&
    r.bindingChecksum = barrierBindingChecksum variant transaction targetGeneration stateChecksum
      r.barrierEpoch

/-- `Durability`. -/
inductive Durability
  | memoryOnly
  | externalBarrier (receipt : BarrierReceipt)
  deriving DecidableEq

/-- `validate_durability`. -/
def validateDurability (durability : Durability) (variant : VariantId)
    (transaction : TransactionId) (targetGeneration : Generation) (stateChecksum : UInt64) :
    Except Error CommitDurability :=
  match durability with
  | .memoryOnly => .ok .memoryOnly
  | .externalBarrier receipt =>
    if receipt.isBoundTo variant transaction targetGeneration stateChecksum then
      .ok .externallyConfirmed
    else .error .invalidBarrierReceipt

/-- `CommitReceipt`. -/
structure CommitReceipt where
  variant : VariantId
  generation : Generation
  stateChecksum : UInt64
  durability : CommitDurability
  descriptorChecksum : UInt64
  deriving DecidableEq

/-- `CommitReceipt::new`. -/
def CommitReceipt.new (variant : VariantId) (generation : Generation) (stateChecksum : UInt64)
    (durability : CommitDurability) : CommitReceipt :=
  ⟨variant, generation, stateChecksum, durability,
    receiptChecksum variant generation stateChecksum durability⟩

/-- `RecoveryReport`. -/
structure RecoveryReport where
  selectedGeneration : Generation
  changed : Bool
  rejectedCorruptRecords : Nat
  discardedUncommitted : Bool
  deriving DecidableEq, Repr

/-- `GcReport`. -/
structure GcReport where
  snapshotsReclaimed : Nat
  recoveryRecordsReclaimed : Nat
  deriving DecidableEq, Repr

/-- `SnapshotSlot`. -/
structure SnapshotSlot where
  present : Bool
  nonce : Nat
  state : StoreState

/-- `SnapshotSlot::EMPTY`. -/
def SnapshotSlot.empty : SnapshotSlot := ⟨false, 0, StoreState.empty⟩

/-- A slot that `gc` empties. -/
def SnapshotSlot.old (retainFrom : Generation) (slot : SnapshotSlot) : Bool :=
  slot.present && slot.state.generation < retainFrom

/-- `SnapshotSet`. -/
structure SnapshotSet where
  slots : Fin maxSnapshots → SnapshotSlot
  nextNonce : Nat

namespace SnapshotSet

/-- `SnapshotSet::new`. -/
def new : SnapshotSet := ⟨fun _ => SnapshotSlot.empty, 1⟩

/-- `capture`. -/
def capture (set : SnapshotSet) (state : StoreState) : Except Error SnapshotId × SnapshotSet :=
  attempt (okOr (position (fun slot => !slot.present) set.slots) .snapshotCapacity) set fun index =>
  attempt (okOr (checkedAdd set.nextNonce 1) .arithmeticOverflow) set fun nextNonce =>
  let nonce := set.nextNonce
  let set : SnapshotSet := ⟨Function.update set.slots index ⟨true, nonce, state⟩, nextNonce⟩
  attempt (tryU8 index .snapshotCapacity) set fun slot =>
  (.ok ⟨slot, state.generation, nonce⟩, set)

/-- `state`. -/
def state (set : SnapshotSet) (id : SnapshotId) : Except Error StoreState :=
  if h : id.slot < maxSnapshots then
    let slot := set.slots ⟨id.slot, h⟩
    if !slot.present ∨ slot.nonce ≠ id.nonce ∨ slot.state.generation ≠ id.generation then
      .error .staleSnapshot
    else .ok slot.state
  else .error .staleSnapshot

/-- `gc`: how many slots were emptied, and the set after it. -/
def gc (set : SnapshotSet) (retainFrom : Generation) : Nat × SnapshotSet :=
  ((List.finRange maxSnapshots).countP fun i => (set.slots i).old retainFrom,
    { set with slots := fun i =>
        if (set.slots i).old retainFrom then SnapshotSlot.empty else set.slots i })

end SnapshotSet

end AegisShield.Storage
