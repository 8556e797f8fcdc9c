/-
# DMA commands (`crates/dma-command-ir/src/lib.rs`)

`compile` checks a raw command against the capability of a region and against the context that the
dispatcher trusts, and carries the whole target into the command it returns.  The context remembers
the last accepted sequence.

A run is a sequence of calls.  Between them the dispatcher may change every field of the context but
that one, and may hand over any capability.  Every command that a run accepts stays within its
region, and is for the device, the domain and the queue that were trusted at its call; no sequence
is accepted twice; and no command that meets the checks is turned away (`dispatch_is_confined`).
-/
import AegisShield.Lib.Fallible
import AegisShield.Lib.Run
import Mathlib.Data.List.Pairwise

namespace AegisShield.Dma

open Lib

/-! ## 1. Commands, capabilities and contexts -/

abbrev U16 := BitVec 16
abbrev U32 := BitVec 32
abbrev U64 := BitVec 64
abbrev U128 := BitVec 128

/-- `SCHEMA_MAJOR`. -/
def schemaMajor : U16 := 2

/-- `SCHEMA_MINOR`. -/
def schemaMinor : U16 := 0

inductive Direction
  | toDevice
  | fromDevice
  | bidirectional
  deriving DecidableEq, Repr

structure RegionCapability where
  id : U128
  deviceId : U128
  iommuDomainId : U128
  queueId : U32
  sizeBytes : U64
  generation : U64
  allowed : Direction
  mapped : Bool
  quarantined : Bool
  deriving DecidableEq, Repr

structure DmaCommand where
  schemaMajor : U16
  schemaMinor : U16
  commandId : U128
  commandSequence : U64
  deviceId : U128
  iommuDomainId : U128
  queueId : U32
  regionId : U128
  offset : U64
  length : U64
  direction : Direction
  generation : U64
  deadlineMonotonicNs : U64
  deriving DecidableEq, Repr

structure CompileContext where
  schemaMajor : U16
  schemaMinor : U16
  nowMonotonicNs : U64
  lastAcceptedCommandSequence : U64
  trustedDeviceId : U128
  trustedIommuDomainId : U128
  trustedQueueId : U32
  authorizedRegionId : U128
  deviceGeneration : U64
  iommuIsolated : Bool
  bouncePoolAvailable : Bool
  allowZeroLength : Bool
  deriving DecidableEq, Repr

structure ValidatedCommand where
  commandId : U128
  commandSequence : U64
  deviceId : U128
  iommuDomainId : U128
  queueId : U32
  regionId : U128
  offset : U64
  length : U64
  direction : Direction
  generation : U64
  deadlineMonotonicNs : U64
  validatedAtMonotonicNs : U64
  usesBounceBuffer : Bool
  deriving DecidableEq, Repr

inductive DmaError
  | unsupportedSchema
  | missingIdentity
  | replayOrOutOfOrder
  | regionTargetMismatch
  | trustedTargetMismatch
  | emptyTransfer
  | outOfBounds
  | directionDenied
  | staleGeneration
  | deadlineExpired
  | regionUnavailable
  | isolationUnavailable
  deriving DecidableEq, Repr

/-! ## 2. `compile` -/

section Compile

variable (command : DmaCommand) (region : RegionCapability) (context : CompileContext)

/-- An identity or a generation is missing. -/
def Unidentified : Prop :=
  command.commandId = 0 ∨ command.commandSequence = 0 ∨ command.deviceId = 0 ∨
    command.iommuDomainId = 0 ∨ command.regionId = 0 ∨ region.id = 0 ∨ region.deviceId = 0 ∨
    region.iommuDomainId = 0 ∨ context.trustedDeviceId = 0 ∨ context.trustedIommuDomainId = 0 ∨
    context.authorizedRegionId = 0 ∨ command.generation = 0 ∨ region.generation = 0 ∨
    context.deviceGeneration = 0

instance : Decidable (Unidentified command region context) := by
  unfold Unidentified
  infer_instance

/-- The command that is returned. -/
def ValidatedCommand.of : ValidatedCommand where
  commandId := command.commandId
  commandSequence := command.commandSequence
  deviceId := command.deviceId
  iommuDomainId := command.iommuDomainId
  queueId := command.queueId
  regionId := region.id
  offset := command.offset
  length := command.length
  direction := command.direction
  generation := command.generation
  deadlineMonotonicNs := command.deadlineMonotonicNs
  validatedAtMonotonicNs := context.nowMonotonicNs
  usesBounceBuffer := !context.iommuIsolated

/-- The checks of `compile`, and what it returns. -/
def examine : Except DmaError ValidatedCommand := do
  failIf (command.schemaMajor ≠ schemaMajor ∨ command.schemaMinor ≠ schemaMinor ∨
    context.schemaMajor ≠ schemaMajor ∨ context.schemaMinor ≠ schemaMinor) .unsupportedSchema
  failIf (Unidentified command region context) .missingIdentity
  failIf (command.commandSequence ≤ context.lastAcceptedCommandSequence) .replayOrOutOfOrder
  failIf (command.regionId ≠ region.id ∨ command.deviceId ≠ region.deviceId ∨
    command.iommuDomainId ≠ region.iommuDomainId ∨ command.queueId ≠ region.queueId)
    .regionTargetMismatch
  failIf (command.deviceId ≠ context.trustedDeviceId ∨
    command.iommuDomainId ≠ context.trustedIommuDomainId ∨
    command.queueId ≠ context.trustedQueueId ∨ command.regionId ≠ context.authorizedRegionId)
    .trustedTargetMismatch
  failIf (command.length = 0 ∧ context.allowZeroLength = false) .emptyTransfer
  -- the difference is taken only where the offset is not beyond the end
  failIf (command.offset > region.sizeBytes ∨ command.length > region.sizeBytes - command.offset)
    .outOfBounds
  failIf (command.direction ≠ region.allowed ∧ region.allowed ≠ .bidirectional) .directionDenied
  failIf (command.generation ≠ region.generation ∨ command.generation ≠ context.deviceGeneration)
    .staleGeneration
  failIf (command.deadlineMonotonicNs < context.nowMonotonicNs) .deadlineExpired
  failIf (region.mapped = false ∨ region.quarantined = true) .regionUnavailable
  failIf (context.iommuIsolated = false ∧ context.bouncePoolAvailable = false) .isolationUnavailable
  return .of command region context

/-- `compile`, with the context it leaves. -/
def compile : Except DmaError ValidatedCommand × CompileContext :=
  match examine command region context with
  | .error e => (.error e, context)
  | .ok validated =>
    (.ok validated, { context with lastAcceptedCommandSequence := command.commandSequence })

end Compile

/-! ## 3. What is accepted -/

section Accepted

variable {command : DmaCommand} {region : RegionCapability} {context : CompileContext}

/-- The schemas and the identities are in order. -/
structure WellFormed (command : DmaCommand) (region : RegionCapability) (context : CompileContext) :
    Prop where
  commandSchema : command.schemaMajor = schemaMajor ∧ command.schemaMinor = schemaMinor
  contextSchema : context.schemaMajor = schemaMajor ∧ context.schemaMinor = schemaMinor
  identified : ¬ Unidentified command region context
  nonempty : command.length = 0 → context.allowZeroLength = true

/-- The transfer stays where the capability and the dispatcher put it. -/
structure Confined (command : DmaCommand) (region : RegionCapability) (context : CompileContext) :
    Prop where
  target : command.regionId = region.id ∧ command.regionId = context.authorizedRegionId
  device : command.deviceId = region.deviceId ∧ command.deviceId = context.trustedDeviceId
  domain : command.iommuDomainId = region.iommuDomainId ∧
    command.iommuDomainId = context.trustedIommuDomainId
  queue : command.queueId = region.queueId ∧ command.queueId = context.trustedQueueId
  inside : command.offset.toNat + command.length.toNat ≤ region.sizeBytes.toNat
  direction : command.direction = region.allowed ∨ region.allowed = .bidirectional
  generation : command.generation = region.generation ∧
    command.generation = context.deviceGeneration
  deadline : context.nowMonotonicNs ≤ command.deadlineMonotonicNs
  available : region.mapped = true ∧ region.quarantined = false
  isolated : context.iommuIsolated = true ∨ context.bouncePoolAvailable = true

/-- The last accepted sequence is no part of it. -/
theorem WellFormed.withLast (h : WellFormed command region context) (last : U64) :
    WellFormed command region { context with lastAcceptedCommandSequence := last } :=
  ⟨h.commandSchema, h.contextSchema, h.identified, h.nonempty⟩

theorem Confined.withLast (h : Confined command region context) (last : U64) :
    Confined command region { context with lastAcceptedCommandSequence := last } :=
  ⟨h.target, h.device, h.domain, h.queue, h.inside, h.direction, h.generation, h.deadline,
    h.available, h.isolated⟩

/-- The end of a transfer, without overflow. -/
theorem in_bounds_iff {offset length size : U64} :
    ¬ (offset > size ∨ length > size - offset) ↔ offset.toNat + length.toNat ≤ size.toNat := by
  rw [not_or, gt_iff_lt, gt_iff_lt, BitVec.not_lt, BitVec.not_lt]
  bv_omega

/-- **What `compile` accepts**: whatever is fresh, well formed and confined. -/
theorem examine_ok_iff {v : ValidatedCommand} : examine command region context = .ok v ↔
    context.lastAcceptedCommandSequence < command.commandSequence ∧
      WellFormed command region context ∧ Confined command region context ∧
        v = .of command region context := by
  unfold examine
  simp only [failIf_seq_eq_ok, in_bounds_iff]
  simp only [not_or, not_and, not_not, ne_eq, Bool.not_eq_false, Bool.not_eq_true, BitVec.not_le,
    BitVec.not_lt]
  constructor
  · rintro ⟨⟨h1, h2, h3, h4⟩, hidentified, hfresh, ⟨hr, hd, hi, hq⟩, ⟨td, ti, tq, tr⟩, hempty,
      hinside, hdirection, hgeneration, hdeadline, havailable, hisolated, hv⟩
    refine ⟨hfresh, ⟨⟨h1, h2⟩, ⟨h3, h4⟩, hidentified, hempty⟩, ⟨⟨hr, tr⟩, ⟨hd, td⟩, ⟨hi, ti⟩,
      ⟨hq, tq⟩, hinside, ?_, hgeneration, hdeadline, havailable, ?_⟩, (Except.ok.inj hv).symm⟩
    · exact or_iff_not_imp_left.mpr hdirection
    · rw [or_iff_not_imp_left, Bool.not_eq_true]
      exact hisolated
  · rintro ⟨hfresh, ⟨⟨h1, h2⟩, ⟨h3, h4⟩, hidentified, hempty⟩, ⟨⟨hr, tr⟩, ⟨hd, td⟩, ⟨hi, ti⟩,
      ⟨hq, tq⟩, hinside, hdirection, hgeneration, hdeadline, havailable, hisolated⟩, rfl⟩
    refine ⟨⟨h1, h2, h3, h4⟩, hidentified, hfresh, ⟨hr, hd, hi, hq⟩, ⟨td, ti, tq, tr⟩, hempty,
      hinside, or_iff_not_imp_left.mp hdirection, hgeneration, hdeadline, havailable, ?_, rfl⟩
    rw [or_iff_not_imp_left, Bool.not_eq_true] at hisolated
    exact hisolated

end Accepted

/-! ## 4. Runs -/

/-- A call: the command, a capability, and the context that the dispatcher has set up for it. -/
structure Call where
  command : DmaCommand
  region : RegionCapability
  trusted : CompileContext
  deriving DecidableEq, Repr

/-- The context of the call: the last accepted sequence is the one that the run has come to. -/
def Call.context (c : Call) (last : U64) : CompileContext :=
  { c.trusted with lastAcceptedCommandSequence := last }

/-- What a run has come to: the last accepted sequence, and the calls that were accepted, each with
the command it returned. -/
structure Dispatch where
  last : U64
  accepted : List (Call × ValidatedCommand)

/-- The next call. -/
def Dispatch.step (d : Dispatch) (c : Call) : Dispatch :=
  match compile c.command c.region (c.context d.last) with
  | (.error _, context) => ⟨context.lastAcceptedCommandSequence, d.accepted⟩
  | (.ok v, context) => ⟨context.lastAcceptedCommandSequence, d.accepted ++ [(c, v)]⟩

/-- The calls, one after the other. -/
def dispatch (start : U64) (calls : List Call) : Dispatch := calls.foldl Dispatch.step ⟨start, []⟩

/-- A call that has all that is asked of it but a new sequence. -/
def Call.InOrder (c : Call) : Prop :=
  WellFormed c.command c.region c.trusted ∧ Confined c.command c.region c.trusted

section Step

variable {d : Dispatch} {c : Call}

/-- Nothing but the freshness of a call depends on the run. -/
theorem examine_call_iff {v : ValidatedCommand} :
    examine c.command c.region (c.context d.last) = .ok v ↔
      d.last < c.command.commandSequence ∧ c.InOrder ∧ v = .of c.command c.region c.trusted := by
  have hwell : WellFormed c.command c.region (c.context d.last) ↔
      WellFormed c.command c.region c.trusted :=
    ⟨fun h => h.withLast c.trusted.lastAcceptedCommandSequence, fun h => h.withLast d.last⟩
  have hconfined : Confined c.command c.region (c.context d.last) ↔
      Confined c.command c.region c.trusted :=
    ⟨fun h => h.withLast c.trusted.lastAcceptedCommandSequence, fun h => h.withLast d.last⟩
  rw [examine_ok_iff, hwell, hconfined, Call.InOrder, and_assoc]
  rfl

/-- **A call that is accepted.** -/
theorem step_accepted (hfresh : d.last < c.command.commandSequence) (horder : c.InOrder) :
    d.step c = ⟨c.command.commandSequence,
      d.accepted ++ [(c, .of c.command c.region c.trusted)]⟩ := by
  rw [Dispatch.step, compile, examine_call_iff.mpr ⟨hfresh, horder, rfl⟩]

/-- **A call that is turned away** changes nothing. -/
theorem step_refused (h : ¬ (d.last < c.command.commandSequence ∧ c.InOrder)) : d.step c = d := by
  cases hexamine : examine c.command c.region (c.context d.last) with
  | error e =>
    rw [Dispatch.step, compile, hexamine]
    rfl
  | ok v =>
    obtain ⟨hfresh, horder, -⟩ := examine_call_iff.mp hexamine
    exact absurd ⟨hfresh, horder⟩ h

end Step

/-- The sequences of the commands that were accepted. -/
def Dispatch.sequences (d : Dispatch) : List U64 := d.accepted.map fun a => a.2.commandSequence

/-- **What holds along every run.** -/
structure Dispatch.Kept (start : U64) (d : Dispatch) : Prop where
  /-- Each command is the one that was handed over, at a call that was in order. -/
  bound : ∀ a ∈ d.accepted, a.1.InOrder ∧ a.2 = .of a.1.command a.1.region a.1.trusted
  /-- The sequences rise from where the run has started to where it has come to. -/
  rising : (start :: d.sequences).Pairwise (· < ·)
  last : d.last = d.sequences.getLast?.getD start

/-- The newest sequence is the greatest. -/
theorem le_last {start : U64} {xs : List U64} (h : (start :: xs).Pairwise (· < ·)) :
    ∀ x ∈ start :: xs, x ≤ xs.getLast?.getD start := by
  intro x hx
  rcases List.eq_nil_or_concat xs with rfl | ⟨ys, y, rfl⟩
  · rw [List.mem_singleton.mp hx]
    exact BitVec.le_refl start
  · rw [List.concat_eq_append, ← List.cons_append] at h hx
    rw [List.concat_eq_append, List.getLast?_concat, Option.getD_some]
    rcases List.mem_append.mp hx with hx | hx
    · exact BitVec.le_of_lt ((List.pairwise_append.mp h).2.2 x hx y List.mem_cons_self)
    · rw [List.mem_singleton.mp hx]
      exact BitVec.le_refl y

theorem kept_step {start : U64} {d : Dispatch} (h : d.Kept start) (c : Call) :
    (d.step c).Kept start := by
  by_cases hc : d.last < c.command.commandSequence ∧ c.InOrder
  · obtain ⟨hfresh, horder⟩ := hc
    rw [step_accepted hfresh horder]
    have hsequences : Dispatch.sequences ⟨c.command.commandSequence,
        d.accepted ++ [(c, .of c.command c.region c.trusted)]⟩ =
          d.sequences ++ [c.command.commandSequence] := by
      rw [Dispatch.sequences, List.map_append]
      rfl
    refine ⟨?_, ?_, ?_⟩
    · intro a ha
      rcases List.mem_append.mp ha with ha | ha
      · exact h.bound a ha
      · rw [List.mem_singleton.mp ha]
        exact ⟨horder, rfl⟩
    · rw [hsequences, ← List.cons_append, List.pairwise_append]
      refine ⟨h.rising, List.pairwise_singleton _ _, fun x hx y hy => ?_⟩
      rw [List.mem_singleton.mp hy]
      have hle := le_last h.rising x hx
      rw [← h.last] at hle
      bv_omega
    · rw [hsequences, List.getLast?_concat]
      rfl
  · rw [step_refused hc]
    exact h

theorem kept_run (start : U64) (calls : List Call) : (dispatch start calls).Kept start :=
  run_invariant (I := Dispatch.Kept start)
    ⟨fun _ ha => absurd ha List.not_mem_nil, List.pairwise_singleton _ _, rfl⟩ calls
    fun _ c _ h => kept_step h c

/-- A run goes on from what was accepted, with calls of its own. -/
theorem accepted_run : ∀ (calls : List Call) (d : Dispatch), ∃ new,
    (calls.foldl Dispatch.step d).accepted = d.accepted ++ new ∧ (new.map Prod.fst).Sublist calls
  | [], d => ⟨[], (List.append_nil _).symm, .slnil⟩
  | c :: calls, d => by
    obtain ⟨new, hnew, hcalls⟩ := accepted_run calls (d.step c)
    by_cases hc : d.last < c.command.commandSequence ∧ c.InOrder
    · refine ⟨(c, .of c.command c.region c.trusted) :: new, ?_, hcalls.cons_cons c⟩
      rw [List.foldl_cons, hnew, step_accepted hc.1 hc.2, List.append_assoc, List.singleton_append]
    · refine ⟨new, ?_, hcalls.cons c⟩
      rw [List.foldl_cons, hnew, step_refused hc]

/-! ## 5. Main result -/

/-- What a run of calls has come to is confined to what was handed over. -/
structure Dispatch.Confines (start : U64) (calls : List Call) (d : Dispatch) : Prop where
  kept : d.Kept start
  /-- The accepted calls are calls of the run, in their order. -/
  order : (d.accepted.map Prod.fst).Sublist calls
  /-- A call in order whose sequence is new is accepted. -/
  complete : ∀ pre c post, calls = pre ++ c :: post → c.InOrder →
    (dispatch start pre).last < c.command.commandSequence →
      (c, .of c.command c.region c.trusted) ∈ d.accepted
  /-- A sequence that was accepted is accepted no more, whatever the dispatcher trusts by then. -/
  single : ∀ pre c post, calls = pre ++ c :: post →
    c.command.commandSequence ∈ (dispatch start pre).sequences →
      dispatch start (pre ++ [c]) = dispatch start pre

/-- **Whatever is dispatched is confined**, in every run of calls. -/
theorem dispatch_is_confined (start : U64) (calls : List Call) :
    (dispatch start calls).Confines start calls := by
  have hstart : ∀ pre c, dispatch start (pre ++ [c]) = (dispatch start pre).step c := by
    intro pre c
    rw [dispatch, List.foldl_append]
    rfl
  refine ⟨kept_run start calls, ?_, ?_, ?_⟩
  · obtain ⟨new, hnew, hcalls⟩ := accepted_run calls ⟨start, []⟩
    rw [dispatch, hnew]
    exact hcalls
  · rintro pre c post rfl horder hfresh
    obtain ⟨new, hnew, -⟩ := accepted_run post (dispatch start (pre ++ [c]))
    have hrun : dispatch start (pre ++ c :: post) =
        post.foldl Dispatch.step (dispatch start (pre ++ [c])) := by
      rw [List.append_cons, dispatch, List.foldl_append]
      rfl
    rw [hrun, hnew, hstart, step_accepted hfresh horder]
    exact List.mem_append_left _ (List.mem_append_right _ List.mem_cons_self)
  · rintro pre c post - hmem
    rw [hstart]
    refine step_refused fun hc => ?_
    have hkept := kept_run start pre
    have hle := le_last hkept.rising _ (List.mem_cons_of_mem start hmem)
    rw [← hkept.last] at hle
    exact absurd hc.1 (BitVec.not_lt.mpr hle)

/-- A transfer of 64 bytes to a device. -/
def transfer (sequence : U64) : Call where
  command :=
    { schemaMajor := 2, schemaMinor := 0, commandId := 9, commandSequence := sequence, deviceId := 2,
      iommuDomainId := 3, queueId := 4, regionId := 1, offset := 0, length := 64,
      direction := .toDevice, generation := 7, deadlineMonotonicNs := 100 }
  region :=
    { id := 1, deviceId := 2, iommuDomainId := 3, queueId := 4, sizeBytes := 64, generation := 7,
      allowed := .bidirectional, mapped := true, quarantined := false }
  trusted :=
    { schemaMajor := 2, schemaMinor := 0, nowMonotonicNs := 10, lastAcceptedCommandSequence := 0,
      trustedDeviceId := 2, trustedIommuDomainId := 3, trustedQueueId := 4, authorizedRegionId := 1,
      deviceGeneration := 7, iommuIsolated := true, bouncePoolAvailable := false,
      allowZeroLength := false }

example : (dispatch 5 [transfer 6, transfer 6, transfer 5, transfer 8]).sequences = [6, 8] := by
  decide

end AegisShield.Dma
