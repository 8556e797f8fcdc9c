/-
# The storage guardian (`crates/storage-guardian-contract/src/lib.rs`)

`authorize` grants an intent against the policy of the volume and the context of the monitor.  Its
arithmetic is on words: the range of the intent is bounded by a difference, its bytes are a checked
product of widened words, and what a write needs of the journal is a saturating sum.  The first two
are exact (`authorize_range`, `authorize_bytes`).  The sum is not where it saturates: it is then the
greatest word, and a journal with as many free bytes passes (`authorize_exact`).

Words are bit vectors of their width.  `monitor_only` and `physical_presence` are not read by
`authorize` and left out.
-/
import AegisShield.Lib.Words
import AegisShield.Lib.Fallible

namespace AegisShield.Guardian

open Lib

/-! ## 1. Intents -/

abbrev U16 := BitVec 16

abbrev U32 := BitVec 32

abbrev U64 := BitVec 64

abbrev U128 := BitVec 128

abbrev Digest := Vector UInt8 32

/-- `digest.iter().all(|b| *b == 0)`. -/
def isZero (digest : Digest) : Bool := digest.toList.all (· == 0)

/-- `GuardState`. -/
inductive GuardState
  | bootSelfTest
  | normal
  | elevated
  | contained
  | recoveryReadOnly
  | maintenance
  | fault
  deriving DecidableEq, Repr

/-- `MutationKind`. -/
inductive MutationKind
  | read
  | write
  | flush
  | discard
  | writeZeroes
  | format
  | firmware
  | unknown
  deriving DecidableEq, Repr

/-- `GuardPolicy`. -/
structure GuardPolicy where
  schemaMajor : U16
  volumeId : U128
  exposedBlocks : U64
  blockSize : U32
  policyEpoch : U64
  requireJournalForWrite : Bool
  denyDestructiveCommands : Bool
  maxWriteBlocks : U32
  emergencyReserveBytes : U64
  deriving DecidableEq, Repr

/-- `StorageIntent`. -/
structure StorageIntent where
  intentId : U128
  principalId : U128
  volumeId : U128
  kind : MutationKind
  startBlock : U64
  blockCount : U32
  volumeGeneration : U64
  policyEpoch : U64
  sequence : U64
  deadlineMonotonicNs : U64
  payloadDigest : Digest
  authorityDigest : Digest
  recoveryPointDigest : Digest
  approvalDigest : Digest
  deriving DecidableEq, Repr

/-- `GuardContext`. -/
structure GuardContext where
  nowMonotonicNs : U64
  state : GuardState
  volumeGeneration : U64
  policyEpoch : U64
  lastSequence : U64
  journalReady : Bool
  journalFreeBytes : U64
  durableCommitAvailable : Bool
  authorityMatches : Bool
  separateApprovalRequired : Bool
  approvalMatches : Bool
  deriving DecidableEq, Repr

/-- `GuardReceipt`. -/
structure GuardReceipt where
  intentId : U128
  volumeId : U128
  volumeGeneration : U64
  policyEpoch : U64
  sequence : U64
  authorizedBytes : U64
  journalRequired : Bool
  state : GuardState
  deriving DecidableEq, Repr

/-- `GuardError`, as far as `authorize` returns it. -/
inductive GuardError
  | unsupportedSchema
  | missingIdentity
  | zeroDigest
  | volumeMismatch
  | invalidGeometry
  | outOfBounds
  | writeTooLarge
  | staleGeneration
  | stalePolicy
  | replay
  | expired
  | stateDeniesMutation
  | destructiveCommandDenied
  | journalUnavailable
  | recoveryReserveThreatened
  | durabilityUnavailable
  | authorityMismatch
  | approvalRequired
  | approvalMismatch
  deriving DecidableEq, Repr

/-! ## 2. Authorization -/

/-- `mutating`. -/
def MutationKind.mutating (kind : MutationKind) : Bool := !(kind = .read || kind = .flush)

/-- `write_like`. -/
def MutationKind.writeLike (kind : MutationKind) : Bool := kind = .write

/-- A destructive command. -/
def MutationKind.destructive : MutationKind → Bool
  | .discard | .writeZeroes | .format | .firmware | .unknown => true
  | .read | .write | .flush => false

/-- What `authorize` asks of an approval, where one is required. -/
def checkApproval (intent : StorageIntent) (context : GuardContext) : Except GuardError Unit :=
  if context.separateApprovalRequired then do
    failIf (isZero intent.approvalDigest) .approvalRequired
    failIf (context.approvalMatches = false) .approvalMismatch
  else .ok ()

/-- What `authorize` asks of the journal, where a write needs it. -/
def checkJournal (policy : GuardPolicy) (intent : StorageIntent) (context : GuardContext)
    (bytes : U64) : Except GuardError Unit :=
  if intent.kind.writeLike && policy.requireJournalForWrite then do
    failIf (context.journalReady = false) .journalUnavailable
    failIf (context.journalFreeBytes < saturatingAdd bytes policy.emergencyReserveBytes)
      .recoveryReserveThreatened
    failIf (context.durableCommitAvailable = false) .durabilityUnavailable
    failIf (isZero intent.recoveryPointDigest) .zeroDigest
  else .ok ()

/-- The receipt of an intent that is granted. -/
def GuardReceipt.of (policy : GuardPolicy) (intent : StorageIntent) (context : GuardContext)
    (bytes : U64) : GuardReceipt where
  intentId := intent.intentId
  volumeId := intent.volumeId
  volumeGeneration := intent.volumeGeneration
  policyEpoch := intent.policyEpoch
  sequence := intent.sequence
  authorizedBytes := bytes
  journalRequired := intent.kind.writeLike && policy.requireJournalForWrite
  state := context.state

/-- `authorize`. -/
def authorize (policy : GuardPolicy) (intent : StorageIntent) (context : GuardContext) :
    Except GuardError GuardReceipt := do
  failIf (policy.schemaMajor ≠ 1) .unsupportedSchema
  failIf (policy.volumeId = 0 ∨ intent.intentId = 0 ∨ intent.principalId = 0) .missingIdentity
  failIf (intent.volumeId ≠ policy.volumeId) .volumeMismatch
  failIf (policy.blockSize = 0 ∨ policy.exposedBlocks = 0) .invalidGeometry
  -- the difference is taken only where the start is not beyond the end
  failIf (intent.startBlock > policy.exposedBlocks ∨
    intent.blockCount.setWidth 64 > policy.exposedBlocks - intent.startBlock) .outOfBounds
  failIf (intent.kind.writeLike ∧
    (intent.blockCount = 0 ∨ intent.blockCount > policy.maxWriteBlocks)) .writeTooLarge
  failIf (intent.volumeGeneration ≠ context.volumeGeneration) .staleGeneration
  failIf (intent.policyEpoch ≠ policy.policyEpoch ∨ intent.policyEpoch ≠ context.policyEpoch)
    .stalePolicy
  failIf (intent.sequence = 0 ∨ intent.sequence ≤ context.lastSequence) .replay
  failIf (intent.deadlineMonotonicNs < context.nowMonotonicNs) .expired
  failIf (intent.kind.mutating ∧ ¬(context.state = .normal ∨ context.state = .elevated))
    .stateDeniesMutation
  failIf (policy.denyDestructiveCommands ∧ intent.kind.destructive) .destructiveCommandDenied
  failIf (intent.kind.mutating ∧ (isZero intent.payloadDigest ∨ isZero intent.authorityDigest))
    .zeroDigest
  failIf (context.authorityMatches = false) .authorityMismatch
  checkApproval intent context
  let bytes ← okOr (checkedMul (intent.blockCount.setWidth 64) (policy.blockSize.setWidth 64))
    .invalidGeometry
  checkJournal policy intent context bytes
  return .of policy intent context bytes

/-! ## 3. What a grant says -/

/-- **What `authorize` has checked of the arithmetic of an intent that it grants.** -/
theorem authorize_ok {policy : GuardPolicy} {intent : StorageIntent} {context : GuardContext}
    {receipt : GuardReceipt} (h : authorize policy intent context = .ok receipt) :
    (intent.startBlock ≤ policy.exposedBlocks ∧
      intent.blockCount.setWidth 64 ≤ policy.exposedBlocks - intent.startBlock) ∧
    ∃ bytes, checkedMul (intent.blockCount.setWidth 64) (policy.blockSize.setWidth 64) =
        some bytes ∧
      checkJournal policy intent context bytes = .ok () ∧
      receipt = .of policy intent context bytes := by
  unfold authorize at h
  simp only [failIf_seq_eq_ok] at h
  obtain ⟨-, -, -, -, hrange, -, -, -, -, -, -, -, -, -, h⟩ := h
  obtain ⟨_, -, h⟩ := seq_eq_ok.mp h
  obtain ⟨bytes, hbytes, h⟩ := seq_eq_ok.mp h
  obtain ⟨_, hjournal, h⟩ := seq_eq_ok.mp h
  rw [not_or, gt_iff_lt, gt_iff_lt, BitVec.not_lt, BitVec.not_lt] at hrange
  exact ⟨hrange, bytes, okOr_eq_ok.mp hbytes, hjournal, (Except.ok.inj h).symm⟩

section Granted

variable {policy : GuardPolicy} {intent : StorageIntent} {context : GuardContext}
  {receipt : GuardReceipt}

/-- The range of a granted intent is exposed. -/
theorem authorize_range (h : authorize policy intent context = .ok receipt) :
    intent.startBlock.toNat + intent.blockCount.toNat ≤ policy.exposedBlocks.toNat := by
  obtain ⟨⟨hstart, hcount⟩, -⟩ := authorize_ok h
  have hwide : (intent.blockCount.setWidth 64).toNat = intent.blockCount.toNat :=
    BitVec.toNat_setWidth_of_le (by omega)
  rw [← hwide]
  exact (le_sub_iff hstart).mp hcount

/-- The bytes of a granted intent are those of its blocks. -/
theorem authorize_bytes (h : authorize policy intent context = .ok receipt) :
    receipt.authorizedBytes.toNat = intent.blockCount.toNat * policy.blockSize.toNat := by
  obtain ⟨-, bytes, hbytes, -, rfl⟩ := authorize_ok h
  obtain ⟨bytes', hbytes', hexact⟩ :=
    checkedMul_widened (v := 64) (by omega) intent.blockCount policy.blockSize
  rw [hbytes] at hbytes'
  cases hbytes'
  exact hexact

/-- **What the journal of a granted write is known to hold**: the bytes and the reserve, or as much
as a word can say. -/
theorem authorize_journal (h : authorize policy intent context = .ok receipt)
    (hj : receipt.journalRequired = true) :
    receipt.authorizedBytes.toNat + policy.emergencyReserveBytes.toNat ≤
        context.journalFreeBytes.toNat ∨
      context.journalFreeBytes = BitVec.allOnes 64 := by
  obtain ⟨-, bytes, -, hjournal, rfl⟩ := authorize_ok h
  have hwrite : (intent.kind.writeLike && policy.requireJournalForWrite) = true := hj
  unfold checkJournal at hjournal
  rw [if_pos hwrite] at hjournal
  simp only [failIf_seq_eq_ok] at hjournal
  obtain ⟨-, hfree, -⟩ := hjournal
  exact saturatingAdd_le.mp (BitVec.not_lt.mp hfree)

end Granted

theorem checkApproval_geometry (intent : StorageIntent) (context : GuardContext) :
    checkApproval intent context ≠ .error .invalidGeometry := by
  intro h
  unfold checkApproval at h
  split at h
  · simp only [failIf_seq_eq_error, failIf_eq_error, reduceCtorEq, and_false, or_self] at h
  · cases h

theorem checkJournal_geometry (policy : GuardPolicy) (intent : StorageIntent)
    (context : GuardContext) (bytes : U64) :
    checkJournal policy intent context bytes ≠ .error .invalidGeometry := by
  intro h
  unfold checkJournal at h
  split at h
  · simp only [failIf_seq_eq_error, failIf_eq_error, reduceCtorEq, and_false, or_self] at h
  · cases h

/-- **The geometry is refused only where a block or the volume is empty**: the product of two 32-bit
words fits. -/
theorem authorize_geometry {policy : GuardPolicy} {intent : StorageIntent} {context : GuardContext}
    (h : authorize policy intent context = .error .invalidGeometry) :
    policy.blockSize = 0 ∨ policy.exposedBlocks = 0 := by
  unfold authorize at h
  simp only [failIf_seq_eq_error, reduceCtorEq, and_false, false_or, and_true] at h
  obtain ⟨-, -, -, h⟩ := h
  rcases h with h | ⟨-, -, -, -, -, -, -, -, -, -, -, h⟩
  · exact h
  · -- the check of the product passes, and no check behind it returns this error
    obtain ⟨bytes, hbytes, -⟩ :=
      checkedMul_widened (v := 64) (by omega) intent.blockCount policy.blockSize
    rcases seq_eq_error.mp h with h | ⟨_, -, h⟩
    · exact absurd h (checkApproval_geometry intent context)
    · rw [hbytes, okOr_some] at h
      rcases seq_eq_error.mp h with h | ⟨bytes, -, h⟩
      · cases h
      · rcases seq_eq_error.mp h with h | ⟨_, -, h⟩
        · exact absurd h (checkJournal_geometry policy intent context bytes)
        · cases h

/-! ## 4. Exactness -/

/-- **A grant is exact**: its range, its bytes and what it leaves of the journal, computed without
words. -/
structure Exact (policy : GuardPolicy) (intent : StorageIntent) (context : GuardContext)
    (receipt : GuardReceipt) : Prop where
  range : intent.startBlock.toNat + intent.blockCount.toNat ≤ policy.exposedBlocks.toNat
  bytes : receipt.authorizedBytes.toNat = intent.blockCount.toNat * policy.blockSize.toNat
  reserve : receipt.journalRequired = true →
    receipt.authorizedBytes.toNat + policy.emergencyReserveBytes.toNat ≤
      context.journalFreeBytes.toNat

/-- The bytes and the reserve of a write that needs the journal fit a word, where the journal has
as many free bytes as a word can say. -/
def ReserveCounted (policy : GuardPolicy) (intent : StorageIntent) (context : GuardContext) : Prop :=
  intent.kind = .write → policy.requireJournalForWrite = true →
    context.journalFreeBytes = BitVec.allOnes 64 →
    intent.blockCount.toNat * policy.blockSize.toNat + policy.emergencyReserveBytes.toNat < 2 ^ 64

/-- **A grant is exact exactly if the reserve is counted**, and the checked product always has a
value. -/
theorem authorize_exact (policy : GuardPolicy) (intent : StorageIntent) (context : GuardContext) :
    (∀ receipt, authorize policy intent context = .ok receipt →
      (Exact policy intent context receipt ↔ ReserveCounted policy intent context)) ∧
    (authorize policy intent context = .error .invalidGeometry →
      policy.blockSize = 0 ∨ policy.exposedBlocks = 0) := by
  refine ⟨fun receipt h => ⟨?_, ?_⟩, authorize_geometry⟩
  · intro hexact hwrite hrequire hfree
    have hj : receipt.journalRequired = true := by
      obtain ⟨-, bytes, -, -, rfl⟩ := authorize_ok h
      show (intent.kind.writeLike && policy.requireJournalForWrite) = true
      rw [hwrite, hrequire]
      rfl
    have hle := hexact.reserve hj
    rw [hexact.bytes] at hle
    exact Nat.lt_of_le_of_lt hle context.journalFreeBytes.isLt
  · intro hcounted
    refine ⟨authorize_range h, authorize_bytes h, ?_⟩
    intro hj
    rcases authorize_journal h hj with hle | hfree
    · exact hle
    · obtain ⟨-, bytes, -, -, rfl⟩ := authorize_ok h
      have hwrite : (intent.kind.writeLike && policy.requireJournalForWrite) = true := hj
      rw [Bool.and_eq_true] at hwrite
      have hkind : intent.kind = .write := of_decide_eq_true hwrite.1
      have hlt := hcounted hkind hwrite.2 hfree
      rw [authorize_bytes h, hfree, BitVec.toNat_allOnes]
      omega

/-! ## 5. The greatest word -/

/-- A policy with a reserve. -/
def policyWith (emergencyReserveBytes : U64) : GuardPolicy where
  schemaMajor := 1
  volumeId := 7
  exposedBlocks := 1000
  blockSize := 4096
  policyEpoch := 9
  requireJournalForWrite := true
  denyDestructiveCommands := true
  maxWriteBlocks := 32
  emergencyReserveBytes := emergencyReserveBytes

/-- A write of two blocks. -/
def twoBlocks : StorageIntent where
  intentId := 1
  principalId := 2
  volumeId := 7
  kind := .write
  startBlock := 10
  blockCount := 2
  volumeGeneration := 4
  policyEpoch := 9
  sequence := 5
  deadlineMonotonicNs := 20
  payloadDigest := .replicate 32 1
  authorityDigest := .replicate 32 2
  recoveryPointDigest := .replicate 32 3
  approvalDigest := .replicate 32 4

/-- A context with a journal. -/
def contextWith (journalFreeBytes : U64) : GuardContext where
  nowMonotonicNs := 10
  state := .normal
  volumeGeneration := 4
  policyEpoch := 9
  lastSequence := 4
  journalReady := true
  journalFreeBytes := journalFreeBytes
  durableCommitAvailable := true
  authorityMatches := true
  separateApprovalRequired := false
  approvalMatches := true

/-- **A reserve of the greatest word is not counted**: the write is granted, and the journal cannot
hold both. -/
theorem reserve_not_counted :
    ∃ receipt, authorize (policyWith (.allOnes 64)) twoBlocks (contextWith (.allOnes 64)) =
        .ok receipt ∧ receipt.journalRequired = true ∧
      (contextWith (.allOnes 64)).journalFreeBytes.toNat <
        receipt.authorizedBytes.toNat + (policyWith (.allOnes 64)).emergencyReserveBytes.toNat :=
  ⟨_, rfl, rfl, by decide⟩

theorem authorize_exact_two_blocks :
    ∃ receipt, authorize (policyWith 8192) twoBlocks (contextWith 32768) = .ok receipt ∧
      Exact (policyWith 8192) twoBlocks (contextWith 32768) receipt :=
  ⟨_, rfl, ((authorize_exact (policyWith 8192) twoBlocks (contextWith 32768)).1 _ rfl).mpr
    fun _ _ _ => by decide⟩

end AegisShield.Guardian
