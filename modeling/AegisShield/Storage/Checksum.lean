/-
# The integrity checksum

`push_byte` is an exclusive or and a product with an odd constant, both of which can be undone on
64-bit words.  So no byte is forgotten and no two states meet: streams of bytes that are one apart
have different checksums, whatever follows (`checksum_detects`).

What is checksummed of a state and of a record is a stream of bytes too (`StoreState.stream`,
`WalRecord.stream`).
-/
import AegisShield.Storage.Cow
import AegisShield.Storage.Wal
import AegisShield.Lib.OneApart

namespace AegisShield.Storage

open Lib

/-! ## 1. Bytes -/

namespace IntegrityChecksum

/-- The inverse of `CHECKSUM_PRIME` modulo `2 ^ 64`. -/
def primeInverse : UInt64 := 0xce965057aff6957b

theorem mul_prime_injective : Function.Injective fun x : UInt64 => x * 0x00000100000001b3 := by
  have hone : (0x00000100000001b3 : UInt64) * primeInverse = 1 := by decide
  have hback : Function.LeftInverse (· * primeInverse)
      fun x : UInt64 => x * 0x00000100000001b3 := by
    intro x
    show x * 0x00000100000001b3 * primeInverse = x
    rw [UInt64.mul_assoc, hone, UInt64.mul_one]
  exact hback.injective

/-- **`push_byte` forgets neither the bytes so far nor the byte.** -/
theorem keeps_pushByte : Keeps pushByte where
  state value c d h := by
    have hxor := mul_prime_injective (congrArg IntegrityChecksum.value h)
    have hvalue : c.value = d.value := (UInt64.xor_left_inj _).mp hxor
    cases c
    cases d
    exact congrArg IntegrityChecksum.mk hvalue
  element c a b h := by
    have hxor := mul_prime_injective (congrArg IntegrityChecksum.value h)
    have hvalue : a.toUInt64 = b.toUInt64 := (UInt64.xor_right_inj _).mp hxor
    exact UInt8.toNat_inj.mp (congrArg UInt64.toNat hvalue)

/-- Bytes pushed one by one. -/
def push (c : IntegrityChecksum) (bytes : Bytes) : IntegrityChecksum := bytes.foldl pushByte c

theorem push_append (c : IntegrityChecksum) (a b : Bytes) : c.push (a ++ b) = (c.push a).push b :=
  List.foldl_append

theorem pushBool_eq (c : IntegrityChecksum) (value : Bool) :
    c.pushBool value = c.push [if value then 1 else 0] := rfl

theorem pushU64_eq (c : IntegrityChecksum) (value : Nat) :
    c.pushU64 value = c.push (leBytes value) := rfl

theorem pushBytes_eq (c : IntegrityChecksum) (value : Bytes) :
    c.pushBytes value = c.push (leBytes value.length ++ value) := (c.push_append _ _).symm

/-- The pieces of a loop, one behind the other. -/
theorem foldl_push {ι : Type} (pieces : ι → Bytes) (l : List ι) (c : IntegrityChecksum) :
    l.foldl (fun c i => c.push (pieces i)) c = c.push (l.flatMap pieces) :=
  List.foldl_flatMap.symm

end IntegrityChecksum

open IntegrityChecksum (leBytes)

/-- The checksum of a stream of bytes. -/
def streamChecksum (bytes : Bytes) : UInt64 := (IntegrityChecksum.new.push bytes).finish

/-- **Streams that are one apart have different checksums.** -/
theorem streamChecksum_ne {xs ys : Bytes} (h : OneApart xs ys) :
    streamChecksum xs ≠ streamChecksum ys := by
  intro heq
  refine IntegrityChecksum.keeps_pushByte.foldl_ne h IntegrityChecksum.new ?_
  exact congrArg IntegrityChecksum.mk heq

/-! ## 2. Streams -/

/-- The bytes of a flag. -/
def flagBytes (value : Bool) : Bytes := [if value then 1 else 0]

/-- The bytes of a slice, behind its length. -/
def sliceBytes (value : Bytes) : Bytes := leBytes value.length ++ value

/-- What `checksum` pushes of an object. -/
def ObjectSlot.stream (o : ObjectSlot) : Bytes :=
  flagBytes o.present ++ leBytes o.id ++ leBytes o.generation ++ leBytes o.len ++
    sliceBytes (List.ofFn o.data)

/-- What `checksum` pushes of a name. -/
def NamespaceSlot.stream (slot : NamespaceSlot) : Bytes :=
  flagBytes slot.present ++ sliceBytes (List.ofFn slot.name.bytes) ++ leBytes slot.name.len ++
    leBytes slot.handle.id ++ leBytes slot.handle.generation

/-- What `checksum` pushes of a state. -/
def StoreState.stream (s : StoreState) : Bytes :=
  leBytes s.generation ++ leBytes s.nextObjectId ++ leBytes s.nextObjectGeneration ++
    (List.finRange maxObjects).flatMap (fun i => (s.objects i).stream) ++
    (List.finRange maxNames).flatMap fun i => (s.namespaces i).stream

/-- What `checksum` pushes of a record. -/
def WalRecord.stream : WalRecord → Bytes
  | .empty => leBytes 0
  | .begin transaction => leBytes 1 ++ leBytes transaction.nonce ++ leBytes transaction.baseGeneration
  | .create handle => leBytes 2 ++ leBytes handle.id ++ leBytes handle.generation
  | .write handle offset payload =>
    leBytes 3 ++ leBytes handle.id ++ leBytes handle.generation ++ leBytes offset ++
      sliceBytes payload.asBytes
  | .truncate handle newLen =>
    leBytes 4 ++ leBytes handle.id ++ leBytes handle.generation ++ leBytes newLen
  | .delete handle => leBytes 5 ++ leBytes handle.id ++ leBytes handle.generation
  | .bind name handle =>
    leBytes 6 ++ sliceBytes name.asBytes ++ leBytes handle.id ++ leBytes handle.generation
  | .commit generation stateChecksum =>
    leBytes 7 ++ leBytes generation ++ leBytes stateChecksum.toNat

section Streams

open IntegrityChecksum

theorem ObjectSlot.push_stream (c : IntegrityChecksum) (o : ObjectSlot) :
    ((((c.pushBool o.present).pushU64 o.id).pushU64 o.generation).pushU64 o.len).pushBytes
      (List.ofFn o.data) = c.push o.stream := by
  unfold stream flagBytes sliceBytes
  simp only [push_append, pushBool_eq, pushU64_eq, pushBytes_eq]

theorem NamespaceSlot.push_stream (c : IntegrityChecksum) (slot : NamespaceSlot) :
    ((((c.pushBool slot.present).pushBytes (List.ofFn slot.name.bytes)).pushU64
      slot.name.len).pushU64 slot.handle.id).pushU64 slot.handle.generation =
      c.push slot.stream := by
  unfold stream flagBytes sliceBytes
  simp only [push_append, pushBool_eq, pushU64_eq, pushBytes_eq]

/-- **The checksum of a state is that of its stream.** -/
theorem StoreState.checksum_eq (s : StoreState) : s.checksum = streamChecksum s.stream := by
  unfold checksum streamChecksum stream
  simp only [ObjectSlot.push_stream, NamespaceSlot.push_stream, foldl_push]
  simp only [push_append, pushU64_eq]

/-- **The checksum of a record is that of its stream.** -/
theorem WalRecord.checksum_eq (record : WalRecord) :
    record.checksum = streamChecksum record.stream := by
  unfold checksum streamChecksum
  cases record <;>
    simp only [stream, sliceBytes, push_append, pushU64_eq, pushBytes_eq]

end Streams

/-! ## 3. Alterations of one byte -/

theorem oneApart_flagBytes (value : Bool) : OneApart (flagBytes value) (flagBytes !value) :=
  oneApart_split [] (by cases value <;> decide)

/-- A byte of a slice, whose length stays. -/
theorem oneApart_sliceBytes {n : Nat} {f : Fin n → UInt8} {j : Fin n} {value : UInt8}
    (h : f j ≠ value) :
    OneApart (sliceBytes (List.ofFn f)) (sliceBytes (List.ofFn (Function.update f j value))) := by
  unfold sliceBytes
  rw [List.length_ofFn, List.length_ofFn]
  exact (oneApart_ofFn_update h).append_left _

theorem ObjectSlot.stream_present (o : ObjectSlot) :
    OneApart o.stream { o with present := !o.present }.stream :=
  ((((oneApart_flagBytes o.present).append_right _).append_right _).append_right _).append_right _

theorem ObjectSlot.stream_data (o : ObjectSlot) {j : Fin maxObjectBytes} {value : UInt8}
    (h : o.data j ≠ value) :
    OneApart o.stream { o with data := Function.update o.data j value }.stream := by
  exact (oneApart_sliceBytes h).append_left _

theorem NamespaceSlot.stream_present (slot : NamespaceSlot) :
    OneApart slot.stream { slot with present := !slot.present }.stream :=
  ((((oneApart_flagBytes slot.present).append_right _).append_right _).append_right _).append_right _

theorem NamespaceSlot.stream_name (slot : NamespaceSlot) {j : Fin maxNameBytes} {value : UInt8}
    (h : slot.name.bytes j ≠ value) :
    OneApart slot.stream
      { slot with name := { slot.name with bytes := Function.update slot.name.bytes j value } }.stream :=
  ((((oneApart_sliceBytes h).append_left _).append_right _).append_right _).append_right _

/-- A byte of an object is one of the state. -/
theorem StoreState.stream_object {s : StoreState} {i : Fin maxObjects} {o : ObjectSlot}
    (h : OneApart (s.objects i).stream o.stream) : OneApart s.stream (s.setObject i o).stream := by
  refine OneApart.append_right (OneApart.append_left ?_ _) _
  refine OneApart.flatMap (List.nodup_finRange _) (List.mem_finRange i) ?_ ?_
  · intro j hj
    show _ = (Function.update s.objects i o j).stream
    rw [Function.update_of_ne hj]
  · show OneApart _ (Function.update s.objects i o i).stream
    rw [Function.update_self]
    exact h

/-- A byte of a name is one of the state. -/
theorem StoreState.stream_namespace {s : StoreState} {i : Fin maxNames} {slot : NamespaceSlot}
    (h : OneApart (s.namespaces i).stream slot.stream) :
    OneApart s.stream { s with namespaces := Function.update s.namespaces i slot }.stream := by
  refine OneApart.append_left ?_ _
  refine OneApart.flatMap (List.nodup_finRange _) (List.mem_finRange i) ?_ ?_
  · intro j hj
    show _ = (Function.update s.namespaces i slot j).stream
    rw [Function.update_of_ne hj]
  · show OneApart _ (Function.update s.namespaces i slot i).stream
    rw [Function.update_self]
    exact h

/-- One byte that a state stores is another one: of an object's data, of a name, or a flag. -/
inductive StoreState.Altered (s : StoreState) : StoreState → Prop
  | data (i : Fin maxObjects) {j : Fin maxObjectBytes} {value : UInt8}
      (h : (s.objects i).data j ≠ value) :
      Altered s (s.setObject i
        { s.objects i with data := Function.update (s.objects i).data j value })
  | object (i : Fin maxObjects) :
      Altered s (s.setObject i { s.objects i with present := !(s.objects i).present })
  | name (i : Fin maxNames) {j : Fin maxNameBytes} {value : UInt8}
      (h : (s.namespaces i).name.bytes j ≠ value) :
      Altered s { s with namespaces := Function.update s.namespaces i { s.namespaces i with
        name := { (s.namespaces i).name with
          bytes := Function.update (s.namespaces i).name.bytes j value } } }
  | entry (i : Fin maxNames) :
      Altered s { s with namespaces := Function.update s.namespaces i { s.namespaces i with
        present := !(s.namespaces i).present } }

/-- **Such a byte is one byte of the stream.** -/
theorem StoreState.Altered.oneApart {s t : StoreState} (h : s.Altered t) :
    OneApart s.stream t.stream := by
  cases h with
  | data i h => exact stream_object ((s.objects i).stream_data h)
  | object i => exact stream_object (s.objects i).stream_present
  | name i h => exact stream_namespace ((s.namespaces i).stream_name h)
  | entry i => exact stream_namespace (s.namespaces i).stream_present

/-! ## 4. What the checksum detects -/

/-- **States whose streams are one apart have different checksums.** -/
theorem StoreState.checksum_ne {s t : StoreState} (h : OneApart s.stream t.stream) :
    s.checksum ≠ t.checksum := by
  rw [s.checksum_eq, t.checksum_eq]
  exact streamChecksum_ne h

/-- A superblock verifies for one checksum only. -/
theorem Superblock.verify_checksum {b : Superblock} {bank : Nat} {s : StoreState}
    (h : b.verify bank s = true) : b.stateChecksum = s.checksum := by
  unfold verify at h
  simp only [Bool.and_eq_true, decide_eq_true_eq] at h
  exact h.1.2

theorem WalEntry.verify_checksum {e : WalEntry} (h : e.verify = true) :
    e.checksum = e.record.checksum := by
  unfold verify at h
  simp only [Bool.and_eq_true, decide_eq_true_eq] at h
  exact h.2

/-- **The checksum detects every change of one byte**: of any stream, of a state, so that a
superblock does not verify for both (a byte of data or of a name and a flag are such bytes), and of
the record of a log entry. -/
theorem checksum_detects :
    (∀ xs ys : Bytes, OneApart xs ys → streamChecksum xs ≠ streamChecksum ys) ∧
    (∀ s t : StoreState, OneApart s.stream t.stream → s.checksum ≠ t.checksum ∧
      ∀ (b : Superblock) (bank : Nat), b.verify bank s = true → b.verify bank t = false) ∧
    (∀ s t : StoreState, s.Altered t → OneApart s.stream t.stream) ∧
    (∀ (e : WalEntry) (record : WalRecord), OneApart e.record.stream record.stream →
      e.verify = true → { e with record := record }.verify = false) := by
  refine ⟨fun xs ys h => streamChecksum_ne h, ?_, fun s t h => h.oneApart, ?_⟩
  · intro s t h
    have hne : s.checksum ≠ t.checksum := StoreState.checksum_ne h
    refine ⟨hne, fun b bank hs => ?_⟩
    by_contra ht
    rw [Bool.not_eq_false] at ht
    exact hne ((Superblock.verify_checksum hs).symm.trans (Superblock.verify_checksum ht))
  · intro e record h he
    by_contra ht
    rw [Bool.not_eq_false] at ht
    have hchecksum : e.record.checksum = record.checksum :=
      (WalEntry.verify_checksum he).symm.trans (WalEntry.verify_checksum ht)
    rw [WalRecord.checksum_eq, WalRecord.checksum_eq] at hchecksum
    exact streamChecksum_ne h hchecksum

/-- A byte of data, and a byte of the length of a truncation. -/
theorem checksum_detects_data :
    (StoreState.empty.checksum ≠ (StoreState.empty.setObject 0
        { ObjectSlot.empty with data := Function.update (fun _ => 0) 3 1 }).checksum ∧
      ∀ (b : Superblock) (bank : Nat), b.verify bank StoreState.empty = true →
        b.verify bank (StoreState.empty.setObject 0
          { ObjectSlot.empty with data := Function.update (fun _ => 0) 3 1 }) = false) ∧
    { WalEntry.new (.truncate ⟨1, 1⟩ 0) with record := .truncate ⟨1, 1⟩ 1 }.verify = false := by
  have hdata : OneApart StoreState.empty.stream (StoreState.empty.setObject 0
      { ObjectSlot.empty with data := Function.update (fun _ => 0) 3 1 }).stream :=
    checksum_detects.2.2.1 _ _ (.data 0 (by decide))
  have hlen : OneApart (WalRecord.truncate ⟨1, 1⟩ 0).stream (WalRecord.truncate ⟨1, 1⟩ 1).stream :=
    OneApart.append_left (oneApart_split [] (by decide)) _
  exact ⟨checksum_detects.2.1 _ _ hdata,
    checksum_detects.2.2.2 (WalEntry.new (.truncate ⟨1, 1⟩ 0)) _ hlen (by decide)⟩

end AegisShield.Storage
