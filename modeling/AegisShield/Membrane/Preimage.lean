/-
# Preimages

The preimages are filled by a hand-written list of `put` calls into an array of fixed length.  The
widths of the list add up to the length, so every call is in range and no byte of the array is
left; and the widths do not depend on the values, so the array determines every piece.

Two grants with one preimage agree in everything but the evidence, two approvals as well, and no
grant's preimage begins an approval's (`preimages_bind_all_claims`).
-/
import AegisShield.Membrane.Contract

namespace AegisShield.Membrane

open Lib

/-! ## 1. Filling an array -/

/-- A call of `put` behind what is written, if there is room. -/
theorem put_append (written : Bytes) {left bytes : Bytes} (h : bytes.length ≤ left.length) :
    put (written ++ left) written.length bytes =
      some (written ++ bytes ++ left.drop bytes.length, (written ++ bytes).length) := by
  rw [put, if_pos (by rw [List.length_append]; omega), List.take_left, List.length_append]
  congr 3
  rw [← List.drop_drop, List.drop_left]

theorem putAll_append : ∀ {pieces : List Bytes} (written : Bytes) {left : Bytes},
    pieces.flatten.length ≤ left.length →
      putAll (written ++ left) written.length pieces =
        some (written ++ pieces.flatten ++ left.drop pieces.flatten.length,
          (written ++ pieces.flatten).length)
  | [], written, left, _ => by simp [putAll]
  | piece :: pieces, written, left, h => by
    rw [List.flatten_cons, List.length_append] at h
    have hrest : pieces.flatten.length ≤ (left.drop piece.length).length := by
      rw [List.length_drop]
      omega
    have hpiece : piece.length ≤ left.length := by omega
    have ih := putAll_append (written ++ piece) hrest
    have hput := put_append written hpiece
    unfold putAll at ih ⊢
    rw [List.foldlM_cons, hput]
    simp only [Option.bind_eq_bind, Option.bind_some]
    rw [ih, List.flatten_cons, List.drop_drop, List.length_append]
    simp only [List.append_assoc, List.length_append, Nat.add_assoc]

/-- **An array of the right length is filled**, whatever it held. -/
theorem putAll_eq {pieces : List Bytes} {out : Bytes} (h : out.length = pieces.flatten.length) :
    putAll out 0 pieces = some (pieces.flatten, pieces.flatten.length) := by
  have hall := putAll_append [] (Nat.le_of_eq h.symm)
  rw [List.nil_append, List.length_nil, List.nil_append, ← h, List.drop_length,
    List.append_nil] at hall
  rw [hall, h]

theorem fill_eq {len : Nat} {pieces : List Bytes} (h : pieces.flatten.length = len) :
    fill len pieces = .ok pieces.flatten := by
  rw [fill, putAll_eq (by rw [List.length_replicate, h])]
  exact if_pos h

/-- Pieces of the same widths are determined by the array. -/
theorem pieces_inj {pieces pieces' : List Bytes}
    (hwidths : pieces.map List.length = pieces'.map List.length)
    (h : pieces.flatten = pieces'.flatten) : pieces = pieces' :=
  List.eq_iff_flatten_eq.mpr ⟨h, hwidths⟩

/-! ## 2. The two layouts -/

theorem DataTrust.asU8_inj {a b : DataTrust} (h : a.asU8 = b.asU8) : a = b := by
  cases a <;> cases b <;> first | rfl | exact absurd h (by decide)

theorem AuthorityClass.asU8_inj {a b : AuthorityClass} (h : a.asU8 = b.asU8) : a = b := by
  cases a <;> cases b <;> first | rfl | exact absurd h (by decide)

namespace CapabilityGrant

/-- The widths of the pieces. -/
def widths : List Nat := [16, 2, 2, 16, 16, 16, 8, 16, 16, 1, 1, 32, 8, 8, 8, 8, 8]

theorem length_pieces (grant : CapabilityGrant) : grant.pieces.map List.length = widths := by
  simp [pieces, widths, capabilityGrantDomain]

theorem length_flatten_pieces (grant : CapabilityGrant) :
    grant.pieces.flatten.length = capabilityGrantPreimageLen := by
  rw [List.length_flatten, length_pieces]
  rfl

/-- The pieces say all that the grant does, but for the evidence. -/
theorem eq_of_pieces {g g' : CapabilityGrant} (h : g.pieces = g'.pieces) :
    { g with authenticationEvidenceDigest := g'.authenticationEvidenceDigest } = g' := by
  obtain ⟨a1, a2, a3, a4, a5, a6, a7, a8, a9, a10, a11, a12, a13, a14, a15, a16, evidence⟩ := g
  simp only [pieces, List.cons.injEq, and_true, true_and] at h
  obtain ⟨h1, h2, h3, h4, h5, h6, h7, h8, h9, h10, h11, h12, h13, h14, h15, h16⟩ := h
  obtain rfl := toBeBytes_inj rfl h1
  obtain rfl := toBeBytes_inj rfl h2
  obtain rfl := toBeBytes_inj rfl h3
  obtain rfl := toBeBytes_inj rfl h4
  obtain rfl := toBeBytes_inj rfl h5
  obtain rfl := toBeBytes_inj rfl h6
  obtain rfl := toBeBytes_inj rfl h7
  obtain rfl := toBeBytes_inj rfl h8
  obtain rfl := DataTrust.asU8_inj h9
  obtain rfl := AuthorityClass.asU8_inj h10
  obtain rfl := Vector.toList_inj.mp h11
  obtain rfl := toBeBytes_inj rfl h12
  obtain rfl := toBeBytes_inj rfl h13
  obtain rfl := toBeBytes_inj rfl h14
  obtain rfl := toBeBytes_inj rfl h15
  obtain rfl := toBeBytes_inj rfl h16
  rfl

end CapabilityGrant

namespace SupervisorApprovalReceipt

/-- The widths of the pieces. -/
def widths : List Nat := [16, 2, 2, 16, 16, 16, 8, 16, 16, 1, 1, 16, 16, 32, 32, 8, 8, 8, 8]

theorem length_pieces (approval : SupervisorApprovalReceipt) :
    approval.pieces.map List.length = widths := by
  simp [pieces, widths, supervisorApprovalDomain]

theorem length_flatten_pieces (approval : SupervisorApprovalReceipt) :
    approval.pieces.flatten.length = supervisorApprovalPreimageLen := by
  rw [List.length_flatten, length_pieces]
  rfl

/-- The pieces say all that the approval does, but for the evidence. -/
theorem eq_of_pieces {a a' : SupervisorApprovalReceipt} (h : a.pieces = a'.pieces) :
    { a with authenticationEvidenceDigest := a'.authenticationEvidenceDigest } = a' := by
  obtain ⟨a1, a2, a3, a4, a5, a6, a7, a8, a9, a10, a11, a12, a13, a14, a15, a16, a17, a18,
    evidence⟩ := a
  simp only [pieces, List.cons.injEq, and_true, true_and] at h
  obtain ⟨h1, h2, h3, h4, h5, h6, h7, h8, h9, h10, h11, h12, h13, h14, h15, h16, h17, h18⟩ := h
  obtain rfl := toBeBytes_inj rfl h1
  obtain rfl := toBeBytes_inj rfl h2
  obtain rfl := toBeBytes_inj rfl h3
  obtain rfl := toBeBytes_inj rfl h4
  obtain rfl := toBeBytes_inj rfl h5
  obtain rfl := toBeBytes_inj rfl h6
  obtain rfl := toBeBytes_inj rfl h7
  obtain rfl := toBeBytes_inj rfl h8
  obtain rfl := DataTrust.asU8_inj h9
  obtain rfl := AuthorityClass.asU8_inj h10
  obtain rfl := toBeBytes_inj rfl h11
  obtain rfl := toBeBytes_inj rfl h12
  obtain rfl := Vector.toList_inj.mp h13
  obtain rfl := Vector.toList_inj.mp h14
  obtain rfl := toBeBytes_inj rfl h15
  obtain rfl := toBeBytes_inj rfl h16
  obtain rfl := toBeBytes_inj rfl h17
  obtain rfl := toBeBytes_inj rfl h18
  rfl

end SupervisorApprovalReceipt

/-! ## 3. Encoding -/

/-- The claims that `encode_capability_grant_preimage` asks for. -/
def CapabilityGrant.Complete (grant : CapabilityGrant) : Prop :=
  (grant.schemaMajor = Membrane.schemaMajor ∧ grant.schemaMinor = Membrane.schemaMinor) ∧
    (grant.issuerId ≠ 0 ∧ grant.capabilityId ≠ 0 ∧ grant.requestId ≠ 0 ∧
      grant.requestSequence ≠ 0 ∧ grant.subjectId ≠ 0 ∧ grant.resourceId ≠ 0 ∧
      grant.policyGeneration ≠ 0) ∧
    isZero grant.inputDigest = false

/-- The claims that `encode_supervisor_approval_preimage` asks for. -/
def SupervisorApprovalReceipt.Complete (approval : SupervisorApprovalReceipt) : Prop :=
  (approval.schemaMajor = Membrane.schemaMajor ∧ approval.schemaMinor = Membrane.schemaMinor) ∧
    (approval.approvalId ≠ 0 ∧ approval.supervisorId ≠ 0 ∧ approval.requestId ≠ 0 ∧
      approval.requestSequence ≠ 0 ∧ approval.subjectId ≠ 0 ∧ approval.resourceId ≠ 0 ∧
      approval.capabilityId ≠ 0 ∧ approval.capabilityIssuerId ≠ 0 ∧
      approval.policyGeneration ≠ 0) ∧
    isZero approval.capabilityAuthenticationEvidenceDigest = false ∧
    isZero approval.inputDigest = false

theorem validateClaimSchema_ok {major minor : U16} {u : Unit} :
    validateClaimSchema major minor = .ok u ↔ major = schemaMajor ∧ minor = schemaMinor := by
  rw [validateClaimSchema, failIf_eq_ok, not_or, not_not, not_not]

/-- **A grant is encoded** exactly if it is complete; the preimage is its pieces. -/
theorem encodeCapabilityGrantPreimage_ok {grant : CapabilityGrant} {preimage : Bytes} :
    encodeCapabilityGrantPreimage grant = .ok preimage ↔
      grant.Complete ∧ preimage = grant.pieces.flatten := by
  unfold encodeCapabilityGrantPreimage CapabilityGrant.Complete
  rw [seq_eq_ok]
  simp only [validateClaimSchema_ok, failIf_seq_eq_ok, fill_eq grant.length_flatten_pieces,
    Except.ok.injEq, not_or, Bool.not_eq_true]
  constructor
  · rintro ⟨-, hschema, hids, hdigest, rfl⟩
    exact ⟨⟨hschema, hids, hdigest⟩, rfl⟩
  · rintro ⟨⟨hschema, hids, hdigest⟩, rfl⟩
    exact ⟨(), hschema, hids, hdigest, rfl⟩

/-- **An approval is encoded** exactly if it is complete; the preimage is its pieces. -/
theorem encodeSupervisorApprovalPreimage_ok {approval : SupervisorApprovalReceipt}
    {preimage : Bytes} :
    encodeSupervisorApprovalPreimage approval = .ok preimage ↔
      approval.Complete ∧ preimage = approval.pieces.flatten := by
  unfold encodeSupervisorApprovalPreimage SupervisorApprovalReceipt.Complete
  rw [seq_eq_ok]
  simp only [validateClaimSchema_ok, failIf_seq_eq_ok, fill_eq approval.length_flatten_pieces,
    Except.ok.injEq, not_or, Bool.not_eq_true]
  constructor
  · rintro ⟨-, hschema, hids, hdigests, rfl⟩
    exact ⟨⟨hschema, hids, hdigests⟩, rfl⟩
  · rintro ⟨⟨hschema, hids, hdigests⟩, rfl⟩
    exact ⟨(), hschema, hids, hdigests, rfl⟩

/-! ## 4. Main result -/

/-- The domains separate the two. -/
theorem pieces_not_prefix (grant : CapabilityGrant) (approval : SupervisorApprovalReceipt) :
    ¬ grant.pieces.flatten <+: approval.pieces.flatten := by
  rintro ⟨rest, h⟩
  have hgrant : grant.pieces.flatten = capabilityGrantDomain ++ grant.pieces.tail.flatten := rfl
  have happroval : approval.pieces.flatten =
      supervisorApprovalDomain ++ approval.pieces.tail.flatten := rfl
  rw [hgrant, happroval, List.append_assoc] at h
  have hdomains := (List.append_inj h rfl).1
  exact absurd hdomains (by decide)

/-- **A preimage binds all claims.** -/
theorem preimages_bind_all_claims :
    (∀ (g g' : CapabilityGrant) (preimage : Bytes),
      encodeCapabilityGrantPreimage g = .ok preimage →
      encodeCapabilityGrantPreimage g' = .ok preimage →
        { g with authenticationEvidenceDigest := g'.authenticationEvidenceDigest } = g') ∧
    (∀ (a a' : SupervisorApprovalReceipt) (preimage : Bytes),
      encodeSupervisorApprovalPreimage a = .ok preimage →
      encodeSupervisorApprovalPreimage a' = .ok preimage →
        { a with authenticationEvidenceDigest := a'.authenticationEvidenceDigest } = a') ∧
    (∀ (g : CapabilityGrant) (a : SupervisorApprovalReceipt) (preimage preimage' : Bytes),
      encodeCapabilityGrantPreimage g = .ok preimage →
      encodeSupervisorApprovalPreimage a = .ok preimage' →
        ¬ preimage <+: preimage' ∧ preimage ≠ preimage') ∧
    (∀ g : CapabilityGrant, g.Complete →
      ∃ preimage, encodeCapabilityGrantPreimage g = .ok preimage ∧
        ∀ out : Bytes, out.length = 182 → putAll out 0 g.pieces = some (preimage, 182)) ∧
    ∀ a : SupervisorApprovalReceipt, a.Complete →
      ∃ preimage, encodeSupervisorApprovalPreimage a = .ok preimage ∧
        ∀ out : Bytes, out.length = 238 → putAll out 0 a.pieces = some (preimage, 238) := by
  refine ⟨?_, ?_, ?_, ?_, ?_⟩
  · intro g g' preimage hg hg'
    obtain ⟨-, hpreimage⟩ := encodeCapabilityGrantPreimage_ok.mp hg
    obtain ⟨-, hpreimage'⟩ := encodeCapabilityGrantPreimage_ok.mp hg'
    have hwidths := g.length_pieces.trans g'.length_pieces.symm
    exact CapabilityGrant.eq_of_pieces (pieces_inj hwidths (hpreimage.symm.trans hpreimage'))
  · intro a a' preimage ha ha'
    obtain ⟨-, hpreimage⟩ := encodeSupervisorApprovalPreimage_ok.mp ha
    obtain ⟨-, hpreimage'⟩ := encodeSupervisorApprovalPreimage_ok.mp ha'
    have hwidths := a.length_pieces.trans a'.length_pieces.symm
    exact SupervisorApprovalReceipt.eq_of_pieces (pieces_inj hwidths (hpreimage.symm.trans hpreimage'))
  · intro g a preimage preimage' hg ha
    obtain ⟨-, rfl⟩ := encodeCapabilityGrantPreimage_ok.mp hg
    obtain ⟨-, rfl⟩ := encodeSupervisorApprovalPreimage_ok.mp ha
    have hstart := pieces_not_prefix g a
    exact ⟨hstart, fun h => hstart (h ▸ List.prefix_rfl)⟩
  -- no put of a complete value panics, and the last one ends with the array
  · intro g hg
    refine ⟨_, encodeCapabilityGrantPreimage_ok.mpr ⟨hg, rfl⟩, fun out hout => ?_⟩
    rw [putAll_eq (hout.trans g.length_flatten_pieces.symm), g.length_flatten_pieces]
    rfl
  · intro a ha
    refine ⟨_, encodeSupervisorApprovalPreimage_ok.mpr ⟨ha, rfl⟩, fun out hout => ?_⟩
    rw [putAll_eq (hout.trans a.length_flatten_pieces.symm), a.length_flatten_pieces]
    rfl

/-- A grant to execute. -/
def executeGrant : CapabilityGrant where
  schemaMajor := schemaMajor
  schemaMinor := schemaMinor
  issuerId := 100
  capabilityId := 3
  requestId := 1
  requestSequence := 11
  subjectId := 2
  resourceId := 9
  source := .modelGenerated
  requested := .execute
  inputDigest := Vector.replicate 32 1
  policyGeneration := 4
  issuedAtMonotonicNs := 5
  notBeforeMonotonicNs := 5
  expiresAtMonotonicNs := 20
  requestDeadlineMonotonicNs := 20
  authenticationEvidenceDigest := Vector.replicate 32 0x43

/-- The approval of it. -/
def executeApproval : SupervisorApprovalReceipt where
  schemaMajor := schemaMajor
  schemaMinor := schemaMinor
  approvalId := 200
  supervisorId := 300
  requestId := 1
  requestSequence := 11
  subjectId := 2
  resourceId := 9
  source := .modelGenerated
  requested := .execute
  capabilityId := 3
  capabilityIssuerId := 100
  capabilityAuthenticationEvidenceDigest := Vector.replicate 32 0x43
  inputDigest := Vector.replicate 32 1
  policyGeneration := 4
  approvedAtMonotonicNs := 8
  expiresAtMonotonicNs := 20
  requestDeadlineMonotonicNs := 20
  authenticationEvidenceDigest := Vector.replicate 32 0x41

theorem executeGrant_complete : executeGrant.Complete := by
  unfold CapabilityGrant.Complete
  decide

theorem executeApproval_complete : executeApproval.Complete := by
  unfold SupervisorApprovalReceipt.Complete
  decide

theorem encode_executeGrant :
    encodeCapabilityGrantPreimage executeGrant = .ok executeGrant.pieces.flatten :=
  encodeCapabilityGrantPreimage_ok.mpr ⟨executeGrant_complete, rfl⟩

theorem encode_executeApproval :
    encodeSupervisorApprovalPreimage executeApproval = .ok executeApproval.pieces.flatten :=
  encodeSupervisorApprovalPreimage_ok.mpr ⟨executeApproval_complete, rfl⟩

/-- One request, into arrays that are not empty. -/
theorem preimages_bind_all_claims_one_request :
    { executeGrant with authenticationEvidenceDigest := executeGrant.authenticationEvidenceDigest } =
        executeGrant ∧
      { executeApproval with
        authenticationEvidenceDigest := executeApproval.authenticationEvidenceDigest } =
        executeApproval ∧
      (¬ executeGrant.pieces.flatten <+: executeApproval.pieces.flatten ∧
        executeGrant.pieces.flatten ≠ executeApproval.pieces.flatten) ∧
      (∃ preimage, encodeCapabilityGrantPreimage executeGrant = .ok preimage ∧
        putAll (List.replicate 182 255) 0 executeGrant.pieces = some (preimage, 182)) ∧
      ∃ preimage, encodeSupervisorApprovalPreimage executeApproval = .ok preimage ∧
        putAll (List.replicate 238 255) 0 executeApproval.pieces = some (preimage, 238) := by
  obtain ⟨h1, h2, h3, h4, h5⟩ := preimages_bind_all_claims
  obtain ⟨preimage, hg, hputs⟩ := h4 _ executeGrant_complete
  obtain ⟨preimage', ha, hputs'⟩ := h5 _ executeApproval_complete
  exact ⟨h1 _ _ _ encode_executeGrant encode_executeGrant,
    h2 _ _ _ encode_executeApproval encode_executeApproval,
    h3 _ _ _ _ encode_executeGrant encode_executeApproval,
    ⟨preimage, hg, hputs _ List.length_replicate⟩,
    ⟨preimage', ha, hputs' _ List.length_replicate⟩⟩

end AegisShield.Membrane
