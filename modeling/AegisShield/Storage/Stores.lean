/-
# Stores and their callers (`TransactionalStore`)

The trait, its two implementations, and runs: lists of calls with any arguments, from a new store
on.  The five operations on the working state are one kind of call, `Mutation`.
-/
import AegisShield.Storage.Cow
import AegisShield.Storage.Wal

namespace AegisShield.Storage

open Lib

/-! ## 1. The trait -/

/-- `TransactionalStore`. -/
class TransactionalStore (S : Type) where
  new : Config → Except Error S
  variant : S → VariantId
  generation : S → Generation
  begin : S → Tick → Deadline → Except Error TransactionId × S
  create : S → TransactionId → Tick → Except Error ObjectHandle × S
  write : S → TransactionId → Tick → ObjectHandle → Nat → Bytes → Except Error Unit × S
  truncate : S → TransactionId → Tick → ObjectHandle → Nat → Except Error Unit × S
  delete : S → TransactionId → Tick → ObjectHandle → Except Error Unit × S
  bind : S → TransactionId → Tick → Name → ObjectHandle → Except Error Unit × S
  read : S → ObjectHandle → Nat → Bytes → Except Error (Nat × Bytes)
  lookup : S → Name → Except Error ObjectHandle
  commit : S → TransactionId → Tick → Durability → Except Error CommitReceipt × S
  abort : S → TransactionId → Except Error Unit × S
  cancel : S → TransactionId → Except Error Unit × S
  snapshot : S → Except Error SnapshotId × S
  readSnapshot : S → SnapshotId → ObjectHandle → Nat → Bytes → Except Error (Nat × Bytes)
  gc : S → Generation → GcReport × S
  injectFault : S → FaultPoint → S
  corruptPendingMetadata : S → Except Error Unit × S
  recover : S → Except Error RecoveryReport × S

instance : TransactionalStore CowStore where
  new := CowStore.new
  variant _ := .cow
  generation := CowStore.generation
  begin := CowStore.begin
  create := CowStore.create
  write := CowStore.write
  truncate := CowStore.truncate
  delete := CowStore.delete
  bind := CowStore.bind
  read := CowStore.read
  lookup := CowStore.lookup
  commit := CowStore.commit
  abort := CowStore.abort
  cancel := CowStore.cancel
  snapshot := CowStore.snapshot
  readSnapshot := CowStore.readSnapshot
  gc := CowStore.gc
  injectFault := CowStore.injectFault
  corruptPendingMetadata := CowStore.corruptPendingMetadata
  recover := CowStore.recover

instance : TransactionalStore WalStore where
  new := WalStore.new
  variant _ := .wal
  generation := WalStore.generation
  begin := WalStore.begin
  create := WalStore.create
  write := WalStore.write
  truncate := WalStore.truncate
  delete := WalStore.delete
  bind := WalStore.bind
  read := WalStore.read
  lookup := WalStore.lookup
  commit := WalStore.commit
  abort := WalStore.abort
  cancel := WalStore.cancel
  snapshot := WalStore.snapshot
  readSnapshot := WalStore.readSnapshot
  gc := WalStore.gc
  injectFault := WalStore.injectFault
  corruptPendingMetadata := WalStore.corruptPendingMetadata
  recover := WalStore.recover

/-- The parts that both stores have. -/
class Parts (S : Type) where
  committed : S → StoreState
  active : S → Option WorkingTransaction
  snapshots : S → SnapshotSet
  fault : S → FaultPoint

instance : Parts CowStore where
  committed := CowStore.committed
  active := CowStore.active
  snapshots := CowStore.snapshots
  fault := CowStore.fault

instance : Parts WalStore where
  committed := WalStore.base
  active := WalStore.active
  snapshots := WalStore.snapshots
  fault := WalStore.fault

/-- Either store. -/
def Store : VariantId → Type
  | .cow => CowStore
  | .wal => WalStore

instance instTransactionalStoreStore : (variant : VariantId) → TransactionalStore (Store variant)
  | .cow => inferInstanceAs (TransactionalStore CowStore)
  | .wal => inferInstanceAs (TransactionalStore WalStore)

instance instPartsStore : (variant : VariantId) → Parts (Store variant)
  | .cow => inferInstanceAs (Parts CowStore)
  | .wal => inferInstanceAs (Parts WalStore)

/-! ## 2. Calls -/

/-- An operation on the working state. -/
inductive Mutation
  | create
  | write (handle : ObjectHandle) (offset : Nat) (input : Bytes)
  | truncate (handle : ObjectHandle) (newLen : Nat)
  | delete (handle : ObjectHandle)
  | bind (name : Name) (handle : ObjectHandle)

/-- The operation on a state; `create` returns a handle. -/
def Mutation.apply (config : Config) (s : StoreState) :
    Mutation → Except Error (Option ObjectHandle) × StoreState
  | .create => let r := s.create; (r.1.map some, r.2)
  | .write handle offset input =>
    let r := s.write handle offset input config; (r.1.map fun _ => none, r.2)
  | .truncate handle newLen =>
    let r := s.truncate handle newLen config; (r.1.map fun _ => none, r.2)
  | .delete handle => let r := s.delete handle; (r.1.map fun _ => none, r.2)
  | .bind name handle => let r := s.bind name handle; (r.1.map fun _ => none, r.2)

/-- A call of a method of the trait. -/
inductive Call
  | begin (now : Tick) (deadline : Deadline)
  | mutate (transaction : TransactionId) (now : Tick) (m : Mutation)
  | read (handle : ObjectHandle) (offset : Nat) (output : Bytes)
  | lookup (name : Name)
  | commit (transaction : TransactionId) (now : Tick) (durability : Durability)
  | abort (transaction : TransactionId)
  | cancel (transaction : TransactionId)
  | snapshot
  | readSnapshot (id : SnapshotId) (handle : ObjectHandle) (offset : Nat) (output : Bytes)
  | gc (retainFrom : Generation)
  | injectFault (fault : FaultPoint)
  | corruptPendingMetadata
  | recover

/-- What a call returns. -/
inductive Reply
  | transaction (r : Except Error TransactionId)
  | mutated (r : Except Error (Option ObjectHandle))
  | bytes (r : Except Error (Nat × Bytes))
  | handle (r : Except Error ObjectHandle)
  | receipt (r : Except Error CommitReceipt)
  | done (r : Except Error Unit)
  | snapshot (r : Except Error SnapshotId)
  | reclaimed (report : GcReport)
  | recovered (r : Except Error RecoveryReport)

section Run

variable {S : Type} [TransactionalStore S]

/-- The method of the trait for an operation. -/
def Mutation.run (s : S) (transaction : TransactionId) (now : Tick) :
    Mutation → Except Error (Option ObjectHandle) × S
  | .create => let r := TransactionalStore.create s transaction now; (r.1.map some, r.2)
  | .write handle offset input =>
    let r := TransactionalStore.write s transaction now handle offset input
    (r.1.map fun _ => none, r.2)
  | .truncate handle newLen =>
    let r := TransactionalStore.truncate s transaction now handle newLen
    (r.1.map fun _ => none, r.2)
  | .delete handle =>
    let r := TransactionalStore.delete s transaction now handle; (r.1.map fun _ => none, r.2)
  | .bind name handle =>
    let r := TransactionalStore.bind s transaction now name handle; (r.1.map fun _ => none, r.2)

/-- What a call returns, and the store after it. -/
def Call.run (s : S) : Call → Reply × S
  | .begin now deadline =>
    let r := TransactionalStore.begin s now deadline; (.transaction r.1, r.2)
  | .mutate transaction now m => let r := m.run s transaction now; (.mutated r.1, r.2)
  | .read handle offset output => (.bytes (TransactionalStore.read s handle offset output), s)
  | .lookup name => (.handle (TransactionalStore.lookup s name), s)
  | .commit transaction now durability =>
    let r := TransactionalStore.commit s transaction now durability; (.receipt r.1, r.2)
  | .abort transaction => let r := TransactionalStore.abort s transaction; (.done r.1, r.2)
  | .cancel transaction => let r := TransactionalStore.cancel s transaction; (.done r.1, r.2)
  | .snapshot => let r := TransactionalStore.snapshot s; (.snapshot r.1, r.2)
  | .readSnapshot id handle offset output =>
    (.bytes (TransactionalStore.readSnapshot s id handle offset output), s)
  | .gc retainFrom => let r := TransactionalStore.gc s retainFrom; (.reclaimed r.1, r.2)
  | .injectFault fault => (.done (.ok ()), TransactionalStore.injectFault s fault)
  | .corruptPendingMetadata =>
    let r := TransactionalStore.corruptPendingMetadata s; (.done r.1, r.2)
  | .recover => let r := TransactionalStore.recover s; (.recovered r.1, r.2)

/-- The store after a list of calls. -/
def runCalls (s : S) (calls : List Call) : S := calls.foldl (fun s c => (c.run s).2) s

theorem runCalls_cons (s : S) (c : Call) (calls : List Call) :
    runCalls s (c :: calls) = runCalls (c.run s).2 calls := rfl

theorem runCalls_append (s : S) (calls more : List Call) :
    runCalls s (calls ++ more) = runCalls (runCalls s calls) more := List.foldl_append

/-- What the calls of a list return. -/
def replies (s : S) : List Call → List Reply
  | [] => []
  | c :: calls => (c.run s).1 :: replies (c.run s).2 calls

theorem replies_append (s : S) (calls more : List Call) :
    replies s (calls ++ more) = replies s calls ++ replies (runCalls s calls) more := by
  induction calls generalizing s with
  | nil => rfl
  | cons c calls ih => exact congrArg ((c.run s).1 :: ·) (ih _)

end Run

end AegisShield.Storage
