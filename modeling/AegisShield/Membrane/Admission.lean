/-
# Admission: bound, ordered and free of replays

A run is a sequence of `admit` calls on one context.  Between the calls the supervisor may change
every field of the context but the last accepted sequence.

A call that fails leaves the context as it was.  A call that succeeds was covered by a grant, and by
an approval where there is one or one is needed, that the verifier accepted under the trusted keys;
and the sequences that are accepted grow (`admissions_are_bound_and_ordered`).
-/
import AegisShield.Membrane.Preimage

namespace AegisShield.Membrane

open Lib

/-! ## 1. What an admission stands on -/

/-- The grant is for this request. -/
structure CapabilityGrant.Matches (grant : CapabilityGrant) (request : MembraneRequest) : Prop where
  capabilityId : grant.capabilityId = request.capabilityId
  requestId : grant.requestId = request.requestId
  requestSequence : grant.requestSequence = request.requestSequence
  subjectId : grant.subjectId = request.subjectId
  resourceId : grant.resourceId = request.resourceId
  source : grant.source = request.source
  requested : grant.requested = request.requested
  inputDigest : grant.inputDigest = request.inputDigest
  policyGeneration : grant.policyGeneration = request.policyGeneration
  deadline : grant.requestDeadlineMonotonicNs = request.deadlineMonotonicNs

/-- The approval is for this request, under this grant. -/
structure SupervisorApprovalReceipt.Matches (approval : SupervisorApprovalReceipt)
    (request : MembraneRequest) (grant : CapabilityGrant) : Prop where
  requestId : approval.requestId = request.requestId
  requestSequence : approval.requestSequence = request.requestSequence
  subjectId : approval.subjectId = request.subjectId
  resourceId : approval.resourceId = request.resourceId
  source : approval.source = request.source
  requested : approval.requested = request.requested
  capabilityId : approval.capabilityId = request.capabilityId
  capabilityIssuerId : approval.capabilityIssuerId = grant.issuerId
  evidence : approval.capabilityAuthenticationEvidenceDigest = grant.authenticationEvidenceDigest
  inputDigest : approval.inputDigest = request.inputDigest
  policyGeneration : approval.policyGeneration = request.policyGeneration
  deadline : approval.requestDeadlineMonotonicNs = request.deadlineMonotonicNs

/-- The verifier accepted the grant under the trusted issuer, in its time. -/
structure Granted (verifier : BindingVerifier) (context : MembraneContext)
    (request : MembraneRequest) (grant : CapabilityGrant) : Prop where
  authentic : ∃ preimage, encodeCapabilityGrantPreimage grant = .ok preimage ∧
    verifier.verifyCapability context.trustedCapabilityIssuerId preimage
      grant.authenticationEvidenceDigest = true
  bound : grant.Matches request
  issued : grant.issuedAtMonotonicNs ≤ grant.notBeforeMonotonicNs
  notBefore : grant.notBeforeMonotonicNs ≤ context.nowMonotonicNs
  expires : request.deadlineMonotonicNs ≤ grant.expiresAtMonotonicNs

/-- The verifier accepted the approval under the trusted supervisor, who is neither the subject nor
the issuer. -/
structure Approved (verifier : BindingVerifier) (context : MembraneContext)
    (request : MembraneRequest) (grant : CapabilityGrant) (approval : SupervisorApprovalReceipt) :
    Prop where
  authentic : ∃ preimage, encodeSupervisorApprovalPreimage approval = .ok preimage ∧
    verifier.verifySupervisorApproval context.trustedSupervisorId preimage
      approval.authenticationEvidenceDigest = true
  bound : approval.Matches request grant
  notSubject : approval.supervisorId ≠ request.subjectId
  notIssuer : approval.supervisorId ≠ grant.issuerId
  issued : grant.issuedAtMonotonicNs ≤ approval.approvedAtMonotonicNs
  approved : approval.approvedAtMonotonicNs ≤ context.nowMonotonicNs

/-- What a successful call stands on. -/
structure Admitted (verifier : BindingVerifier) (context : MembraneContext)
    (request : MembraneRequest) (capability : Option CapabilityGrant)
    (approval : Option SupervisorApprovalReceipt) : Prop where
  fresh : context.lastAcceptedRequestSequence < request.requestSequence
  deadline : context.nowMonotonicNs ≤ request.deadlineMonotonicNs
  granted : ∃ grant, capability = some grant ∧ Granted verifier context request grant ∧
    (approval.isSome ∨ (request.requested ≠ .readData ∧ request.source ≠ .trustedSystem) →
      ∃ receipt, approval = some receipt ∧ Approved verifier context request grant receipt)

/-! ## 2. The checks -/

theorem validateRequest_ok {request : MembraneRequest} {context : MembraneContext} {u : Unit}
    (h : validateRequest request context = .ok u) :
    context.nowMonotonicNs ≤ request.deadlineMonotonicNs ∧
      context.lastAcceptedRequestSequence < request.requestSequence := by
  unfold validateRequest at h
  obtain ⟨-, -, h⟩ := seq_eq_ok.mp h
  obtain ⟨-, -, h⟩ := seq_eq_ok.mp h
  simp only [failIf_seq_eq_ok, failIf_eq_ok] at h
  obtain ⟨-, -, -, hdeadline, hsequence⟩ := h
  exact ⟨BitVec.not_lt.mp hdeadline, BitVec.not_le.mp hsequence⟩

theorem validateCapability_ok {request : MembraneRequest} {grant : CapabilityGrant}
    {context : MembraneContext} {verifier : BindingVerifier} {u : Unit}
    (h : validateCapability request grant context verifier = .ok u) :
    Granted verifier context request grant := by
  unfold validateCapability at h
  obtain ⟨preimage, hpreimage, h⟩ := seq_eq_ok.mp h
  simp only [failIf_seq_eq_ok, failIf_eq_ok, not_or, not_not, gt_iff_lt, BitVec.not_lt,
    Bool.not_eq_false] at h
  obtain ⟨-, ⟨-, -, h1, h2, h3, h4, h5, h6, h7, h8, h9, h10, hissuer⟩, -, ⟨-, hbefore, hissued⟩,
    ⟨-, -, hexpires⟩, hverified⟩ := h
  rw [hissuer] at hverified
  exact ⟨⟨preimage, hpreimage, hverified⟩, ⟨h1, h2, h3, h4, h5, h6, h7, h8, h9, h10⟩, hissued,
    hbefore, hexpires⟩

theorem validateApproval_ok {request : MembraneRequest} {grant : CapabilityGrant}
    {approval : SupervisorApprovalReceipt} {context : MembraneContext}
    {verifier : BindingVerifier} {u : Unit}
    (h : validateApproval request grant approval context verifier = .ok u) :
    Approved verifier context request grant approval := by
  unfold validateApproval at h
  obtain ⟨preimage, hpreimage, h⟩ := seq_eq_ok.mp h
  simp only [failIf_seq_eq_ok, failIf_eq_ok, not_or, not_not, gt_iff_lt, BitVec.not_lt,
    Bool.not_eq_false] at h
  obtain ⟨⟨hsubject, hissuer⟩, -, ⟨-, -, h1, h2, h3, h4, h5, h6, h7, h8, h9, h10, h11, h12,
    hissued, hsupervisor⟩, -, happroved, -, hverified⟩ := h
  rw [hsupervisor] at hverified
  exact ⟨⟨preimage, hpreimage, hverified⟩, ⟨h1, h2, h3, h4, h5, h6, h7, h8, h9, h10, h11, h12⟩,
    hsubject, hissuer, hissued, happroved⟩

theorem selectApproval_ok {request : MembraneRequest}
    {approval selected : Option SupervisorApprovalReceipt}
    (h : selectApproval request approval = .ok selected) :
    selected = approval ∧ (requiresSupervisorApproval request = true → approval.isSome) := by
  unfold selectApproval at h
  split at h
  · cases approval with
    | none => cases h
    | some receipt =>
      cases h
      exact ⟨rfl, fun _ => rfl⟩
  · rename_i hnot
    cases h
    exact ⟨rfl, fun hrequires => absurd hrequires hnot⟩

theorem approvalClaims_ok {request : MembraneRequest} {grant : CapabilityGrant}
    {receipt : SupervisorApprovalReceipt} {context : MembraneContext} {verifier : BindingVerifier}
    {claims : U128 × Digest}
    (h : approvalClaims request grant (some receipt) context verifier = .ok claims) :
    Approved verifier context request grant receipt := by
  obtain ⟨u, hvalid, -⟩ := seq_eq_ok.mp h
  exact validateApproval_ok hvalid

theorem requiresSupervisorApproval_iff {request : MembraneRequest} :
    requiresSupervisorApproval request = true ↔
      request.requested ≠ .readData ∧ request.source ≠ .trustedSystem := by
  simp [requiresSupervisorApproval]

/-- **A successful call.** -/
theorem examine_ok {request : MembraneRequest} {capability : Option CapabilityGrant}
    {approval : Option SupervisorApprovalReceipt} {context : MembraneContext}
    {verifier : BindingVerifier} {admission : ValidatedAdmission}
    (h : examine request capability approval context verifier = .ok admission) :
    Admitted verifier context request capability approval ∧
      admission.requestSequence = request.requestSequence := by
  unfold examine at h
  obtain ⟨u, hrequest, h⟩ := seq_eq_ok.mp h
  obtain ⟨hdeadline, hfresh⟩ := validateRequest_ok hrequest
  simp only [failIf_seq_eq_ok] at h
  obtain ⟨-, -, -, h⟩ := h
  obtain ⟨grant, hgrant, h⟩ := seq_eq_ok.mp h
  obtain ⟨u', hcapability, h⟩ := seq_eq_ok.mp h
  obtain ⟨selected, hselected, h⟩ := seq_eq_ok.mp h
  obtain ⟨hsame, hrequired⟩ := selectApproval_ok hselected
  obtain ⟨claims, hclaims, h⟩ := seq_eq_ok.mp h
  cases h
  refine ⟨⟨hfresh, hdeadline, grant, okOr_eq_ok.mp hgrant, validateCapability_ok hcapability, ?_⟩,
    rfl⟩
  intro hneeded
  have hsome : approval.isSome = true :=
    hneeded.elim id fun h => hrequired (requiresSupervisorApproval_iff.mpr h)
  obtain ⟨receipt, hreceipt⟩ := Option.isSome_iff_exists.mp hsome
  rw [hsame, hreceipt] at hclaims
  exact ⟨receipt, hreceipt, approvalClaims_ok hclaims⟩

/-- A call on claims that pass their checks succeeds. -/
theorem examine_of_valid {request : MembraneRequest} {grant : CapabilityGrant}
    {receipt : SupervisorApprovalReceipt} {context : MembraneContext} {verifier : BindingVerifier}
    (hrequest : validateRequest request context = .ok ())
    (hpath : context.directPrivilegedPathAbsent = true)
    (hcredentials : context.credentialsSharedWithServer = false)
    (hsupervisor : ¬ (requiresSupervisorApproval request = true ∧ context.trustedSupervisorId = 0))
    (hcapability : validateCapability request grant context verifier = .ok ())
    (happroval : validateApproval request grant receipt context verifier = .ok ()) :
    ∃ admission, examine request (some grant) (some receipt) context verifier = .ok admission := by
  have hselected : selectApproval request (some receipt) = .ok (some receipt) := by
    unfold selectApproval
    split
    · rfl
    · rfl
  have hclaims : approvalClaims request grant (some receipt) context verifier =
      .ok (receipt.approvalId, receipt.authenticationEvidenceDigest) := by
    rw [approvalClaims, happroval]
    rfl
  rw [examine, hrequest]
  simp only [failIf, hpath, hcredentials, if_neg hsupervisor, okOr_some, hcapability, hselected,
    hclaims, bind, Except.bind, Bool.true_eq_false, Bool.false_eq_true, if_false]
  exact ⟨_, rfl⟩

/-! ## 3. Runs -/

/-- A step of a run: a call, or a change of the context by the supervisor. -/
inductive Step
  | call (request : MembraneRequest) (capability : Option CapabilityGrant)
    (approval : Option SupervisorApprovalReceipt)
  | supervise (context : MembraneContext)

/-- A call that was made, with the context before and behind it. -/
structure Call where
  request : MembraneRequest
  capability : Option CapabilityGrant
  approval : Option SupervisorApprovalReceipt
  before : MembraneContext
  result : Except Stop ValidatedAdmission
  after : MembraneContext

/-- The calls of a run. -/
def runSteps (verifier : BindingVerifier) : MembraneContext → List Step → List Call
  | _, [] => []
  | context, .supervise new :: steps =>
    runSteps verifier
      { new with lastAcceptedRequestSequence := context.lastAcceptedRequestSequence } steps
  | context, .call request capability approval :: steps =>
    let r := admitRequest request capability approval context verifier
    ⟨request, capability, approval, context, r.1, r.2⟩ :: runSteps verifier r.2 steps

/-- The sequence that a call admitted. -/
def Call.admitted (call : Call) : Option U64 :=
  match call.result with
  | .ok admission => some admission.requestSequence
  | .error _ => none

/-- **One call.** -/
theorem admit_cases (request : MembraneRequest) (capability : Option CapabilityGrant)
    (approval : Option SupervisorApprovalReceipt) (context : MembraneContext)
    (verifier : BindingVerifier) :
    (∃ stop, admitRequest request capability approval context verifier = (.error stop, context)) ∨
      ∃ admission, admitRequest request capability approval context verifier =
          (.ok admission, { context with lastAcceptedRequestSequence := request.requestSequence }) ∧
        Admitted verifier context request capability approval ∧
        admission.requestSequence = request.requestSequence := by
  unfold admitRequest
  cases h : examine request capability approval context verifier with
  | error stop => exact Or.inl ⟨stop, rfl⟩
  | ok admission => exact Or.inr ⟨admission, rfl, examine_ok h⟩

/-- The admitted sequences grow, from the last accepted one on. -/
theorem runSteps_sequences (verifier : BindingVerifier) :
    ∀ (steps : List Step) (context : MembraneContext),
      (∀ s ∈ (runSteps verifier context steps).filterMap Call.admitted,
        context.lastAcceptedRequestSequence < s) ∧
      ((runSteps verifier context steps).filterMap Call.admitted).Pairwise (· < ·) := by
  intro steps
  induction steps with
  | nil =>
    intro context
    exact ⟨nofun, List.Pairwise.nil⟩
  | cons step steps ih =>
    intro context
    cases step with
    | supervise new => exact ih _
    | call request capability approval =>
      rw [runSteps]
      rcases admit_cases request capability approval context verifier with
        ⟨stop, hstop⟩ | ⟨admission, hok, hadmitted, hsequence⟩
      · rw [hstop, List.filterMap_cons_none rfl]
        exact ih context
      · obtain ⟨hlater, hordered⟩ :=
          ih { context with lastAcceptedRequestSequence := request.requestSequence }
        have hfirst : Call.admitted ⟨request, capability, approval, context, .ok admission,
            { context with lastAcceptedRequestSequence := request.requestSequence }⟩ =
            some request.requestSequence := congrArg some hsequence
        rw [hok, List.filterMap_cons_some hfirst]
        refine ⟨List.forall_mem_cons.mpr ⟨hadmitted.fresh, ?_⟩,
          List.pairwise_cons.mpr ⟨hlater, hordered⟩⟩
        intro s hs
        exact BitVec.lt_trans hadmitted.fresh (hlater s hs)

/-- Every call of a run is a call. -/
theorem mem_runSteps (verifier : BindingVerifier) :
    ∀ {steps : List Step} {context : MembraneContext} {call : Call},
      call ∈ runSteps verifier context steps →
        (call.result, call.after) =
          admitRequest call.request call.capability call.approval call.before verifier := by
  intro steps
  induction steps with
  | nil => nofun
  | cons step steps ih =>
    intro context call h
    cases step with
    | supervise new => exact ih h
    | call request capability approval =>
      rcases List.mem_cons.mp h with rfl | h
      · rfl
      · exact ih h

/-! ## 4. Main result -/

/-- **Admissions are bound and ordered.** -/
theorem admissions_are_bound_and_ordered (verifier : BindingVerifier) (context : MembraneContext)
    (steps : List Step) :
    ((runSteps verifier context steps).filterMap Call.admitted).Pairwise (· < ·) ∧
      ∀ call ∈ runSteps verifier context steps,
        (∀ stop, call.result = .error stop → call.after = call.before) ∧
        ∀ admission, call.result = .ok admission →
          admission.requestSequence = call.request.requestSequence ∧
          Admitted verifier call.before call.request call.capability call.approval := by
  refine ⟨(runSteps_sequences verifier steps context).2, ?_⟩
  intro call hcall
  have hcalled := mem_runSteps verifier hcall
  rcases admit_cases call.request call.capability call.approval call.before verifier with
    ⟨stop, hstop⟩ | ⟨admission, hok, hadmitted, hsequence⟩
  · rw [hstop] at hcalled
    obtain ⟨hresult, hafter⟩ := Prod.mk.inj hcalled
    refine ⟨fun _ _ => hafter, ?_⟩
    intro admission hok
    rw [hresult] at hok
    cases hok
  · rw [hok] at hcalled
    obtain ⟨hresult, -⟩ := Prod.mk.inj hcalled
    refine ⟨?_, ?_⟩
    · intro stop hstop
      rw [hresult] at hstop
      cases hstop
    · intro admission' hok'
      rw [hresult] at hok'
      cases hok'
      exact ⟨hsequence, hadmitted⟩

/-- A verifier that accepts the evidence of the grant and of the approval, under their keys. -/
def fixedEvidence : BindingVerifier where
  verifyCapability issuer _ evidence := issuer = 100 && evidence = Vector.replicate 32 0x43
  verifySupervisorApproval supervisor _ evidence :=
    supervisor = 300 && evidence = Vector.replicate 32 0x41

/-- The request to execute. -/
def executeRequest : MembraneRequest where
  schemaMajor := schemaMajor
  schemaMinor := schemaMinor
  requestId := 1
  requestSequence := 11
  subjectId := 2
  resourceId := 9
  inputDigest := Vector.replicate 32 1
  source := .modelGenerated
  requested := .execute
  capabilityId := 3
  policyGeneration := 4
  deadlineMonotonicNs := 20

/-- The context of the supervisor. -/
def executeContext : MembraneContext where
  schemaMajor := schemaMajor
  schemaMinor := schemaMinor
  nowMonotonicNs := 10
  currentPolicyGeneration := 4
  trustedCapabilityIssuerId := 100
  trustedSupervisorId := 300
  lastAcceptedRequestSequence := 10
  directPrivilegedPathAbsent := true
  credentialsSharedWithServer := false

/-- The request is admitted, on the grant and the approval. -/
theorem admissions_are_bound_and_ordered_one_request :
    ∃ admission,
      (admitRequest executeRequest (some executeGrant) (some executeApproval) executeContext
        fixedEvidence).1 = .ok admission ∧
      Admitted fixedEvidence executeContext executeRequest (some executeGrant)
        (some executeApproval) := by
  have hcapability : validateCapability executeRequest executeGrant executeContext fixedEvidence =
      .ok () := by
    rw [validateCapability, encode_executeGrant]
    rfl
  have happroval : validateApproval executeRequest executeGrant executeApproval executeContext
      fixedEvidence = .ok () := by
    rw [validateApproval, encode_executeApproval]
    rfl
  have hrequest : validateRequest executeRequest executeContext = .ok () := rfl
  have hsupervisor : ¬ (requiresSupervisorApproval executeRequest = true ∧
      executeContext.trustedSupervisorId = 0) := by
    decide
  obtain ⟨admission, hok⟩ :=
    examine_of_valid hrequest rfl rfl hsupervisor hcapability happroval
  generalize hr : admitRequest executeRequest (some executeGrant) (some executeApproval) executeContext
    fixedEvidence = r
  have hresult : r.1 = .ok admission := by
    rw [← hr, admitRequest, hok]
  have hcall : (⟨executeRequest, some executeGrant, some executeApproval, executeContext, r.1, r.2⟩ :
      Call) ∈ runSteps fixedEvidence executeContext
        [.call executeRequest (some executeGrant) (some executeApproval)] := by
    rw [runSteps, hr]
    exact List.mem_cons_self
  have hbound := (admissions_are_bound_and_ordered fixedEvidence executeContext
    [.call executeRequest (some executeGrant) (some executeApproval)]).2 _ hcall
  exact ⟨admission, hresult, (hbound.2 admission hresult).2⟩

end AegisShield.Membrane
