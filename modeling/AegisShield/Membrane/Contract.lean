/-
# The authority membrane (`crates/authority-membrane-contract/src/lib.rs`)

A request is admitted on a capability grant and, where it needs one, on a supervisor's approval.
Both are authenticated by a `BindingVerifier` over a PREIMAGE: the claims, written one behind the
other into an array of fixed length.  `admit` compares the claims with the request and with the
supervisor's context, and consumes the request's sequence number in the context.

Words are bit vectors of their width.  `put` panics where the slice is out of range; a call returns
a value, or an error, or panics.  `server_claims_safe` of a request is not consulted and left out,
as is `TimeClass`, which `admit` does not use.
-/
import AegisShield.Lib.BigEndian
import AegisShield.Lib.Fallible

namespace AegisShield.Membrane

open Lib

/-! ## 1. Claims -/

abbrev U16 := BitVec 16

abbrev U64 := BitVec 64

abbrev U128 := BitVec 128

abbrev Digest := Vector UInt8 32

/-- `SCHEMA_MAJOR`. -/
def schemaMajor : U16 := 2

/-- `SCHEMA_MINOR`. -/
def schemaMinor : U16 := 0

/-- `DataTrust`. -/
inductive DataTrust
  | trustedSystem
  | userSupplied
  | remoteUntrusted
  | modelGenerated
  deriving DecidableEq, Repr

/-- `source as u8`. -/
def DataTrust.asU8 : DataTrust → UInt8
  | .trustedSystem => 0
  | .userSupplied => 1
  | .remoteUntrusted => 2
  | .modelGenerated => 3

/-- `AuthorityClass`. -/
inductive AuthorityClass
  | readData
  | writeData
  | network
  | secret
  | device
  | execute
  | authorize
  deriving DecidableEq, Repr

/-- `requested as u8`. -/
def AuthorityClass.asU8 : AuthorityClass → UInt8
  | .readData => 0
  | .writeData => 1
  | .network => 2
  | .secret => 3
  | .device => 4
  | .execute => 5
  | .authorize => 6

/-- `MembraneRequest`. -/
structure MembraneRequest where
  schemaMajor : U16
  schemaMinor : U16
  requestId : U128
  requestSequence : U64
  subjectId : U128
  resourceId : U128
  inputDigest : Digest
  source : DataTrust
  requested : AuthorityClass
  capabilityId : U128
  policyGeneration : U64
  deadlineMonotonicNs : U64
  deriving DecidableEq, Repr

/-- `CapabilityGrant`. -/
structure CapabilityGrant where
  schemaMajor : U16
  schemaMinor : U16
  issuerId : U128
  capabilityId : U128
  requestId : U128
  requestSequence : U64
  subjectId : U128
  resourceId : U128
  source : DataTrust
  requested : AuthorityClass
  inputDigest : Digest
  policyGeneration : U64
  issuedAtMonotonicNs : U64
  notBeforeMonotonicNs : U64
  expiresAtMonotonicNs : U64
  requestDeadlineMonotonicNs : U64
  authenticationEvidenceDigest : Digest
  deriving DecidableEq, Repr

/-- `SupervisorApprovalReceipt`. -/
structure SupervisorApprovalReceipt where
  schemaMajor : U16
  schemaMinor : U16
  approvalId : U128
  supervisorId : U128
  requestId : U128
  requestSequence : U64
  subjectId : U128
  resourceId : U128
  source : DataTrust
  requested : AuthorityClass
  capabilityId : U128
  capabilityIssuerId : U128
  capabilityAuthenticationEvidenceDigest : Digest
  inputDigest : Digest
  policyGeneration : U64
  approvedAtMonotonicNs : U64
  expiresAtMonotonicNs : U64
  requestDeadlineMonotonicNs : U64
  authenticationEvidenceDigest : Digest
  deriving DecidableEq, Repr

/-- `MembraneContext`. -/
structure MembraneContext where
  schemaMajor : U16
  schemaMinor : U16
  nowMonotonicNs : U64
  currentPolicyGeneration : U64
  trustedCapabilityIssuerId : U128
  trustedSupervisorId : U128
  lastAcceptedRequestSequence : U64
  directPrivilegedPathAbsent : Bool
  credentialsSharedWithServer : Bool
  deriving DecidableEq, Repr

/-- `ValidatedAdmission`. -/
structure ValidatedAdmission where
  requestId : U128
  requestSequence : U64
  subjectId : U128
  resourceId : U128
  inputDigest : Digest
  source : DataTrust
  requested : AuthorityClass
  capabilityId : U128
  capabilityIssuerId : U128
  capabilityAuthenticationEvidenceDigest : Digest
  approvalId : U128
  approvalAuthenticationEvidenceDigest : Digest
  policyGeneration : U64
  admittedAtMonotonicNs : U64
  deadlineMonotonicNs : U64
  deriving DecidableEq, Repr

/-- `BindingVerifier`: a key, the preimage, and the digest of the detached evidence. -/
structure BindingVerifier where
  verifyCapability : U128 → Bytes → Digest → Bool
  verifySupervisorApproval : U128 → Bytes → Digest → Bool

/-- `MembraneError`. -/
inductive MembraneError
  | unsupportedSchema
  | missingIdentity
  | zeroDigest
  | stalePolicy
  | requestExpired
  | replayOrOutOfOrder
  | capabilityMissing
  | capabilityMismatch
  | capabilityNotYetValid
  | capabilityExpired
  | capabilityAuthenticationFailed
  | ambientBypass
  | credentialExposure
  | supervisorApprovalRequired
  | supervisorApprovalMismatch
  | supervisorApprovalFromFuture
  | supervisorApprovalExpired
  | supervisorApprovalAuthenticationFailed
  | independentSupervisorRequired
  deriving DecidableEq, Repr

/-- Why a call gives no value: it returned an error, or it panicked. -/
inductive Stop
  | err (e : MembraneError)
  | panicked
  deriving DecidableEq, Repr

/-! ## 2. Preimages -/

/-- `CAPABILITY_GRANT_DOMAIN`: `OSAIR_CAP_GRANT` and a zero byte. -/
def capabilityGrantDomain : Bytes :=
  [0x4F, 0x53, 0x41, 0x49, 0x52, 0x5F, 0x43, 0x41, 0x50, 0x5F, 0x47, 0x52, 0x41, 0x4E, 0x54, 0x00]

/-- `SUPERVISOR_APPROVAL_DOMAIN`: `OSAIR_SUP_APPROV`. -/
def supervisorApprovalDomain : Bytes :=
  [0x4F, 0x53, 0x41, 0x49, 0x52, 0x5F, 0x53, 0x55, 0x50, 0x5F, 0x41, 0x50, 0x50, 0x52, 0x4F, 0x56]

/-- `CAPABILITY_GRANT_PREIMAGE_LEN`. -/
def capabilityGrantPreimageLen : Nat := 182

/-- `SUPERVISOR_APPROVAL_PREIMAGE_LEN`. -/
def supervisorApprovalPreimageLen : Nat := 238

/-- `put`: the array and the cursor behind the bytes, if the slice is in range. -/
def put (out : Bytes) (cursor : Nat) (bytes : Bytes) : Option (Bytes × Nat) :=
  if cursor + bytes.length ≤ out.length then
    some (out.take cursor ++ bytes ++ out.drop (cursor + bytes.length), cursor + bytes.length)
  else none

/-- Calls of `put`, one behind the other. -/
def putAll (out : Bytes) (cursor : Nat) (pieces : List Bytes) : Option (Bytes × Nat) :=
  pieces.foldlM (fun s bytes => put s.1 s.2 bytes) (out, cursor)

/-- `is_zero`. -/
def isZero (digest : Digest) : Bool := digest.toList.all (· == 0)

/-- `validate_claim_schema`. -/
def validateClaimSchema (major minor : U16) : Except Stop Unit :=
  failIf (major ≠ schemaMajor ∨ minor ≠ schemaMinor) (.err .unsupportedSchema)

/-- What `encode_capability_grant_preimage` puts, in this order. -/
def CapabilityGrant.pieces (grant : CapabilityGrant) : List Bytes :=
  [capabilityGrantDomain,
    toBeBytes grant.schemaMajor,
    toBeBytes grant.schemaMinor,
    toBeBytes grant.issuerId,
    toBeBytes grant.capabilityId,
    toBeBytes grant.requestId,
    toBeBytes grant.requestSequence,
    toBeBytes grant.subjectId,
    toBeBytes grant.resourceId,
    [grant.source.asU8],
    [grant.requested.asU8],
    grant.inputDigest.toList,
    toBeBytes grant.policyGeneration,
    toBeBytes grant.issuedAtMonotonicNs,
    toBeBytes grant.notBeforeMonotonicNs,
    toBeBytes grant.expiresAtMonotonicNs,
    toBeBytes grant.requestDeadlineMonotonicNs]

/-- What `encode_supervisor_approval_preimage` puts, in this order. -/
def SupervisorApprovalReceipt.pieces (approval : SupervisorApprovalReceipt) : List Bytes :=
  [supervisorApprovalDomain,
    toBeBytes approval.schemaMajor,
    toBeBytes approval.schemaMinor,
    toBeBytes approval.approvalId,
    toBeBytes approval.supervisorId,
    toBeBytes approval.requestId,
    toBeBytes approval.requestSequence,
    toBeBytes approval.subjectId,
    toBeBytes approval.resourceId,
    [approval.source.asU8],
    [approval.requested.asU8],
    toBeBytes approval.capabilityId,
    toBeBytes approval.capabilityIssuerId,
    approval.capabilityAuthenticationEvidenceDigest.toList,
    approval.inputDigest.toList,
    toBeBytes approval.policyGeneration,
    toBeBytes approval.approvedAtMonotonicNs,
    toBeBytes approval.expiresAtMonotonicNs,
    toBeBytes approval.requestDeadlineMonotonicNs]

/-- The array of `len` zeros, filled with the pieces.  The debug assertion stops a build that has
it where the cursor does not end at the length. -/
def fill (len : Nat) (pieces : List Bytes) : Except Stop Bytes :=
  match putAll (List.replicate len 0) 0 pieces with
  | some (out, cursor) => if cursor = len then .ok out else .error .panicked
  | none => .error .panicked

/-- `encode_capability_grant_preimage`. -/
def encodeCapabilityGrantPreimage (grant : CapabilityGrant) : Except Stop Bytes := do
  validateClaimSchema grant.schemaMajor grant.schemaMinor
  failIf (grant.issuerId = 0 ∨ grant.capabilityId = 0 ∨ grant.requestId = 0 ∨
      grant.requestSequence = 0 ∨ grant.subjectId = 0 ∨ grant.resourceId = 0 ∨
      grant.policyGeneration = 0) (.err .missingIdentity)
  failIf (isZero grant.inputDigest) (.err .zeroDigest)
  fill capabilityGrantPreimageLen grant.pieces

/-- `encode_supervisor_approval_preimage`. -/
def encodeSupervisorApprovalPreimage (approval : SupervisorApprovalReceipt) :
    Except Stop Bytes := do
  validateClaimSchema approval.schemaMajor approval.schemaMinor
  failIf (approval.approvalId = 0 ∨ approval.supervisorId = 0 ∨ approval.requestId = 0 ∨
      approval.requestSequence = 0 ∨ approval.subjectId = 0 ∨ approval.resourceId = 0 ∨
      approval.capabilityId = 0 ∨ approval.capabilityIssuerId = 0 ∨
      approval.policyGeneration = 0) (.err .missingIdentity)
  failIf (isZero approval.capabilityAuthenticationEvidenceDigest ∨ isZero approval.inputDigest)
    (.err .zeroDigest)
  fill supervisorApprovalPreimageLen approval.pieces

/-! ## 3. Validation -/

/-- `validate_request`. -/
def validateRequest (request : MembraneRequest) (context : MembraneContext) :
    Except Stop Unit := do
  validateClaimSchema request.schemaMajor request.schemaMinor
  validateClaimSchema context.schemaMajor context.schemaMinor
  failIf (request.requestId = 0 ∨ request.requestSequence = 0 ∨ request.subjectId = 0 ∨
      request.resourceId = 0 ∨ request.capabilityId = 0 ∨ request.policyGeneration = 0 ∨
      context.currentPolicyGeneration = 0 ∨ context.trustedCapabilityIssuerId = 0)
    (.err .missingIdentity)
  failIf (isZero request.inputDigest) (.err .zeroDigest)
  failIf (request.policyGeneration ≠ context.currentPolicyGeneration) (.err .stalePolicy)
  failIf (request.deadlineMonotonicNs < context.nowMonotonicNs) (.err .requestExpired)
  failIf (request.requestSequence ≤ context.lastAcceptedRequestSequence) (.err .replayOrOutOfOrder)

/-- `validate_capability`. -/
def validateCapability (request : MembraneRequest) (grant : CapabilityGrant)
    (context : MembraneContext) (verifier : BindingVerifier) : Except Stop Unit := do
  let preimage ← encodeCapabilityGrantPreimage grant
  failIf (isZero grant.authenticationEvidenceDigest) (.err .capabilityAuthenticationFailed)
  failIf (grant.schemaMajor ≠ request.schemaMajor ∨ grant.schemaMinor ≠ request.schemaMinor ∨
      grant.capabilityId ≠ request.capabilityId ∨ grant.requestId ≠ request.requestId ∨
      grant.requestSequence ≠ request.requestSequence ∨ grant.subjectId ≠ request.subjectId ∨
      grant.resourceId ≠ request.resourceId ∨ grant.source ≠ request.source ∨
      grant.requested ≠ request.requested ∨ grant.inputDigest ≠ request.inputDigest ∨
      grant.policyGeneration ≠ request.policyGeneration ∨
      grant.requestDeadlineMonotonicNs ≠ request.deadlineMonotonicNs ∨
      grant.issuerId ≠ context.trustedCapabilityIssuerId) (.err .capabilityMismatch)
  failIf (grant.policyGeneration ≠ context.currentPolicyGeneration) (.err .stalePolicy)
  failIf (grant.issuedAtMonotonicNs > context.nowMonotonicNs ∨
      grant.notBeforeMonotonicNs > context.nowMonotonicNs ∨
      grant.notBeforeMonotonicNs < grant.issuedAtMonotonicNs) (.err .capabilityNotYetValid)
  failIf (grant.expiresAtMonotonicNs < context.nowMonotonicNs ∨
      grant.expiresAtMonotonicNs < grant.notBeforeMonotonicNs ∨
      grant.expiresAtMonotonicNs < request.deadlineMonotonicNs) (.err .capabilityExpired)
  failIf (verifier.verifyCapability grant.issuerId preimage
    grant.authenticationEvidenceDigest = false) (.err .capabilityAuthenticationFailed)

/-- `validate_approval`. -/
def validateApproval (request : MembraneRequest) (capability : CapabilityGrant)
    (approval : SupervisorApprovalReceipt) (context : MembraneContext)
    (verifier : BindingVerifier) : Except Stop Unit := do
  let preimage ← encodeSupervisorApprovalPreimage approval
  failIf (approval.supervisorId = request.subjectId ∨ approval.supervisorId = capability.issuerId)
    (.err .independentSupervisorRequired)
  failIf (isZero approval.authenticationEvidenceDigest)
    (.err .supervisorApprovalAuthenticationFailed)
  failIf (approval.schemaMajor ≠ request.schemaMajor ∨ approval.schemaMinor ≠ request.schemaMinor ∨
      approval.requestId ≠ request.requestId ∨
      approval.requestSequence ≠ request.requestSequence ∨
      approval.subjectId ≠ request.subjectId ∨ approval.resourceId ≠ request.resourceId ∨
      approval.source ≠ request.source ∨ approval.requested ≠ request.requested ∨
      approval.capabilityId ≠ request.capabilityId ∨
      approval.capabilityIssuerId ≠ capability.issuerId ∨
      approval.capabilityAuthenticationEvidenceDigest ≠
        capability.authenticationEvidenceDigest ∨
      approval.inputDigest ≠ request.inputDigest ∨
      approval.policyGeneration ≠ request.policyGeneration ∨
      approval.requestDeadlineMonotonicNs ≠ request.deadlineMonotonicNs ∨
      approval.approvedAtMonotonicNs < capability.issuedAtMonotonicNs ∨
      approval.supervisorId ≠ context.trustedSupervisorId) (.err .supervisorApprovalMismatch)
  failIf (approval.policyGeneration ≠ context.currentPolicyGeneration) (.err .stalePolicy)
  failIf (approval.approvedAtMonotonicNs > context.nowMonotonicNs)
    (.err .supervisorApprovalFromFuture)
  failIf (approval.expiresAtMonotonicNs < context.nowMonotonicNs ∨
      approval.expiresAtMonotonicNs < approval.approvedAtMonotonicNs ∨
      approval.expiresAtMonotonicNs < request.deadlineMonotonicNs) (.err .supervisorApprovalExpired)
  failIf (verifier.verifySupervisorApproval approval.supervisorId preimage
    approval.authenticationEvidenceDigest = false) (.err .supervisorApprovalAuthenticationFailed)

/-! ## 4. Admission -/

/-- `requires_supervisor_approval`. -/
def requiresSupervisorApproval (request : MembraneRequest) : Bool :=
  let elevated := request.requested ≠ .readData
  elevated && request.source ≠ .trustedSystem

/-- The approval that is validated: a required one must be there. -/
def selectApproval (request : MembraneRequest) (approval : Option SupervisorApprovalReceipt) :
    Except Stop (Option SupervisorApprovalReceipt) :=
  if requiresSupervisorApproval request then
    (okOr approval (.err .supervisorApprovalRequired)).map some
  else .ok approval

/-- The id and the evidence of the approval, if there is one, validated. -/
def approvalClaims (request : MembraneRequest) (capability : CapabilityGrant)
    (approval : Option SupervisorApprovalReceipt) (context : MembraneContext)
    (verifier : BindingVerifier) : Except Stop (U128 × Digest) :=
  match approval with
  | some receipt => do
    validateApproval request capability receipt context verifier
    return (receipt.approvalId, receipt.authenticationEvidenceDigest)
  | none => .ok (0, Vector.replicate 32 0)

/-- All that `admit` checks, and the admission it returns. -/
def examine (request : MembraneRequest) (capability : Option CapabilityGrant)
    (approval : Option SupervisorApprovalReceipt) (context : MembraneContext)
    (verifier : BindingVerifier) : Except Stop ValidatedAdmission := do
  validateRequest request context
  failIf (context.directPrivilegedPathAbsent = false) (.err .ambientBypass)
  failIf (context.credentialsSharedWithServer) (.err .credentialExposure)
  failIf (requiresSupervisorApproval request ∧ context.trustedSupervisorId = 0)
    (.err .independentSupervisorRequired)
  let capability ← okOr capability (.err .capabilityMissing)
  validateCapability request capability context verifier
  let approval ← selectApproval request approval
  let claims ← approvalClaims request capability approval context verifier
  return {
    requestId := request.requestId
    requestSequence := request.requestSequence
    subjectId := request.subjectId
    resourceId := request.resourceId
    inputDigest := request.inputDigest
    source := request.source
    requested := request.requested
    capabilityId := request.capabilityId
    capabilityIssuerId := capability.issuerId
    capabilityAuthenticationEvidenceDigest := capability.authenticationEvidenceDigest
    approvalId := claims.1
    approvalAuthenticationEvidenceDigest := claims.2
    policyGeneration := context.currentPolicyGeneration
    admittedAtMonotonicNs := context.nowMonotonicNs
    deadlineMonotonicNs := request.deadlineMonotonicNs }

/-- `admit`: the result and the context behind the call.  Success is the commit point for the
sequence. -/
def admitRequest (request : MembraneRequest) (capability : Option CapabilityGrant)
    (approval : Option SupervisorApprovalReceipt) (context : MembraneContext)
    (verifier : BindingVerifier) : Except Stop ValidatedAdmission × MembraneContext :=
  match examine request capability approval context verifier with
  | .error stop => (.error stop, context)
  | .ok admission =>
    (.ok admission, { context with lastAcceptedRequestSequence := request.requestSequence })

end AegisShield.Membrane
