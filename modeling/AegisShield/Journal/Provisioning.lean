/-
# Provisioning (`core/journal.py`, `provision`; `daemon/service.py`, `_provision_if_needed`)

`provision` makes the directory and then its three files, one durable step after the other, the
metadata first.  A crash between two steps leaves what the steps before it have made; what it leaves
of a temporary file, nothing reads.

A daemon that finds the directory opens it, and provisions only where there is none.  So a directory
that is not whole must not pass for a device, and it does not: however often the daemon is started
and cut off, it opens the device that was asked for, or none (`provisioning_is_all_or_nothing`).  But
a directory that is not whole stays as it is, and no later start gets past it.
-/
import AegisShield.Journal.CleanRun
import AegisShield.Lib.Run

namespace AegisShield

open Lib

/-! ## 1. The steps -/

/-- A namespace directory, where a file may be missing. -/
structure Making where
  metadata : Option Bytes
  base : Option Bytes
  log : Option Bytes
  deriving DecidableEq

/-- A durable step. -/
inductive ProvisionStep
  | mkdir
  | metadata (bytes : Bytes)
  /-- `open("wb")` of the base image. -/
  | createBase
  /-- `truncate` of the empty file, which extends it with zeros. -/
  | truncateBase (size : Nat)
  | log
  deriving DecidableEq

/-- What a step does to the directory, where there is one. -/
def ProvisionStep.apply (found : Option Making) : ProvisionStep → Option Making
  | .mkdir => some ⟨none, none, none⟩
  | .metadata bytes => found.map fun m => { m with metadata := some bytes }
  | .createBase => found.map fun m => { m with base := some [] }
  | .truncateBase size => found.map fun m => { m with base := some (List.replicate size 0) }
  | .log => found.map fun m => { m with log := some [] }

section Provisioning

variable (R : Runtime) (md : Metadata)

/-- The steps of `provision`, once it has accepted its arguments. -/
def provisionSteps : List ProvisionStep :=
  [.mkdir, .metadata (md.file R), .createBase, .truncateBase (md.blocks * md.blockSize), .log]

/-- The directory after the first `k` steps. -/
def madeBy (k : Nat) : Option Making :=
  ((provisionSteps R md).take k).foldl ProvisionStep.apply none

/-- `__init__` from the base image on. -/
def Making.openAs (m : Making) (raw : Bytes) : Except Raised (DurableJournal × Dir) := do
  let base ← m.base.elim (.error .fileNotFoundError) .ok
  if base.length ≠ md.blocks * md.blockSize then
    throw (.journalCorruptionError "base image size does not match metadata")
  let log ← m.log.elim (.error .fileNotFoundError) .ok
  DurableJournal.init R ⟨raw, base, log, []⟩

/-- `DurableJournal(root)`, where the directory or a file may be missing. -/
def openMaking (found : Option Making) : Except Raised (DurableJournal × Dir) := do
  let m ← found.elim (.error .fileNotFoundError) .ok
  let raw ← m.metadata.elim (.error .fileNotFoundError) .ok
  let md ← Metadata.read R raw
  m.openAs R md raw

/-- What a start of the daemon leaves of the directory that it finds, when it is cut off after at
most `k` durable steps (`_provision_if_needed`).  Each start draws a name of its own. -/
def provisionIfNeeded (found : Option Making) (k : Nat) : Option Making :=
  match found with
  | some m => some m
  | none =>
    match provision R md.blocks md.blockSize md.deviceId with
    | .error _ => none
    | .ok _ => madeBy R md k

variable {R} {md}

/-! ## 2. What a crash leaves -/

/-- The whole directory. -/
def Dir.making (d : Dir) : Making := ⟨some d.metadata, some d.base, some d.log⟩

theorem provision_making {blocks blockSize : Nat} {deviceId : String} {d : Dir}
    (h : provision R blocks blockSize deviceId = .ok d) :
    madeBy R ⟨deviceId, blocks, blockSize⟩ 5 = some d.making ∧ d.torn = [] ∧
      0 < blocks * blockSize := by
  rw [provision] at h
  split at h
  · cases h
  · rename_i hargs
    cases h
    refine ⟨rfl, rfl, Nat.mul_pos ?_ ?_⟩
    · omega
    · omega

theorem openMaking_of_read {raw : Bytes} (hread : Metadata.read R raw = .ok md)
    (base log : Option Bytes) : openMaking R (some ⟨some raw, base, log⟩) =
      Making.openAs R md ⟨some raw, base, log⟩ raw := by
  change (Metadata.read R raw >>= _) = _
  rw [bind_of_ok hread]

/-- **A whole directory** opens, as the empty journal. -/
theorem openMaking_whole {blocks blockSize : Nat} {deviceId : String} {d : Dir}
    (h : provision R blocks blockSize deviceId = .ok d) :
    openMaking R (some d.making) =
      .ok (⟨⟨deviceId, blocks, blockSize⟩, Cursor.empty, none⟩, d) := by
  have hcanonical := provision_canonical h
  obtain ⟨-, htorn, -⟩ := provision_making h
  have hdir : (⟨d.metadata, d.base, d.log, []⟩ : Dir) = d := by rw [← htorn]
  have hread : Metadata.read R d.metadata = .ok ⟨deviceId, blocks, blockSize⟩ := by
    rw [hcanonical.file]
    exact Metadata.read_file _
  rw [Dir.making, openMaking_of_read hread]
  change (if d.base.length ≠ blocks * blockSize then _ else
    DurableJournal.init R ⟨d.metadata, d.base, d.log, []⟩) = _
  rw [if_neg (not_not_intro hcanonical.size), hdir]
  exact hcanonical.init

/-- **A directory that is not whole** does not open. -/
theorem openMaking_part (hsize : 0 < md.blocks * md.blockSize) {k : Nat} (hk : k < 5) :
    openMaking R (madeBy R md k) = .error .fileNotFoundError ∨
      openMaking R (madeBy R md k) =
        .error (.journalCorruptionError "base image size does not match metadata") := by
  have hread : Metadata.read R (md.file R) = .ok md := Metadata.read_file md
  obtain rfl | rfl | rfl | rfl | rfl : k = 0 ∨ k = 1 ∨ k = 2 ∨ k = 3 ∨ k = 4 := by omega
  · exact Or.inl rfl
  · exact Or.inl rfl
  · left
    have hmade : madeBy R md 2 = some ⟨some (md.file R), none, none⟩ := rfl
    rw [hmade, openMaking_of_read hread]
    rfl
  · -- the base image is there, but empty
    right
    have hmade : madeBy R md 3 = some ⟨some (md.file R), some [], none⟩ := rfl
    rw [hmade, openMaking_of_read hread]
    change (if ([] : Bytes).length ≠ md.blocks * md.blockSize then _ else _) = _
    rw [if_pos (by rw [List.length_nil]; omega)]
    rfl
  · left
    have hmade : madeBy R md 4 =
        some ⟨some (md.file R), some (List.replicate (md.blocks * md.blockSize) 0), none⟩ := rfl
    rw [hmade, openMaking_of_read hread]
    change (if (List.replicate (md.blocks * md.blockSize) (0 : UInt8)).length ≠
      md.blocks * md.blockSize then _ else _) = _
    rw [if_neg (by rw [List.length_replicate]; exact fun h => h rfl)]
    rfl

theorem madeBy_whole {k : Nat} (hk : 5 ≤ k) : madeBy R md k = madeBy R md 5 := by
  have htake : (provisionSteps R md).take k = (provisionSteps R md).take 5 :=
    List.take_of_length_le hk
  rw [madeBy, htake]
  rfl

/-- Once a step has been done there is a directory. -/
theorem exists_madeBy {k : Nat} (hk : 0 < k) : ∃ m, madeBy R md k = some m := by
  by_cases hwhole : 5 ≤ k
  · rw [madeBy_whole hwhole]
    exact ⟨_, rfl⟩
  · obtain rfl | rfl | rfl | rfl : k = 1 ∨ k = 2 ∨ k = 3 ∨ k = 4 := by omega
    all_goals exact ⟨_, rfl⟩

/-! ## 3. Starts -/

variable (R) in
/-- The directory after the starts of a daemon, each cut off after some steps. -/
def afterStarts (starts : List (Metadata × Nat)) : Option Making :=
  starts.foldl (fun found start => provisionIfNeeded R start.1 found start.2) none

/-- The directory is the work of one start. -/
def MadeByOne (R : Runtime) (starts : List (Metadata × Nat)) (found : Option Making) : Prop :=
  ∃ md k d, (md, k) ∈ starts ∧ 0 < k ∧ provision R md.blocks md.blockSize md.deviceId = .ok d ∧
    found = madeBy R md k

/-- Once there is a directory, no start changes it. -/
theorem provisionIfNeeded_some {found : Option Making} (h : found ≠ none) (md : Metadata) (k : Nat) :
    provisionIfNeeded R md found k = found := by
  obtain ⟨m, rfl⟩ := Option.ne_none_iff_exists'.mp h
  rfl

theorem provisionIfNeeded_none (md : Metadata) (k : Nat) :
    provisionIfNeeded R md none k = none ∨
      0 < k ∧ ∃ d, provision R md.blocks md.blockSize md.deviceId = .ok d ∧
        provisionIfNeeded R md none k = madeBy R md k := by
  rw [provisionIfNeeded]
  cases hprovision : provision R md.blocks md.blockSize md.deviceId with
  | error e => exact Or.inl rfl
  | ok d =>
    rcases Nat.eq_zero_or_pos k with rfl | hk
    · exact Or.inl rfl
    · exact Or.inr ⟨hk, d, rfl, rfl⟩

/-- **The first start that does anything decides.** -/
theorem afterStarts_made (starts : List (Metadata × Nat)) :
    afterStarts R starts = none ∨ MadeByOne R starts (afterStarts R starts) := by
  refine run_invariant (I := fun found => found = none ∨ MadeByOne R starts found) (Or.inl rfl)
    starts ?_
  rintro found ⟨md, k⟩ hmem (rfl | hmade)
  · rcases provisionIfNeeded_none (R := R) md k with hnone | ⟨hk, d, hprovision, hmade⟩
    · exact Or.inl hnone
    · exact Or.inr ⟨md, k, d, hmem, hk, hprovision, hmade⟩
  · obtain ⟨md', k', d, hmem', hk, hprovision, hfound⟩ := hmade
    obtain ⟨m, hm⟩ := exists_madeBy (R := R) hk
    have hsome : found ≠ none := by
      rw [hfound, hm]
      exact Option.some_ne_none m
    right
    show MadeByOne R starts (provisionIfNeeded R md found k)
    rw [provisionIfNeeded_some hsome]
    exact ⟨md', k', d, hmem', hk, hprovision, hfound⟩

/-- What there is after some starts. -/
inductive Provisioned (R : Runtime) (starts : List (Metadata × Nat)) : Option Making → Prop
  | missing : Provisioned R starts none
  /-- One start has come to its end: its device opens, and it is empty. -/
  | whole {md : Metadata} {k : Nat} {d : Dir} (hstart : (md, k) ∈ starts) (hk : 5 ≤ k)
      (hprovision : provision R md.blocks md.blockSize md.deviceId = .ok d)
      (hopen : openMaking R (some d.making) = .ok (⟨md, Cursor.empty, none⟩, d)) :
      Provisioned R starts (some d.making)
  /-- One start was cut off: nothing opens. -/
  | part {md : Metadata} {k : Nat} {m : Making} (hstart : (md, k) ∈ starts) (hk : k < 5)
      (hopen : openMaking R (some m) = .error .fileNotFoundError ∨ openMaking R (some m) =
        .error (.journalCorruptionError "base image size does not match metadata")) :
      Provisioned R starts (some m)

/-- **Provisioning is all or nothing**, however often the daemon is started and cut off: there is the
whole device of one start, or nothing that opens.  And once there is a directory, no start changes
it. -/
theorem provisioning_is_all_or_nothing (R : Runtime) (starts : List (Metadata × Nat)) :
    Provisioned R starts (afterStarts R starts) ∧
      (afterStarts R starts ≠ none →
        ∀ md k, provisionIfNeeded R md (afterStarts R starts) k = afterStarts R starts) := by
  refine ⟨?_, fun hsome md k => provisionIfNeeded_some hsome md k⟩
  rcases afterStarts_made (R := R) starts with hnone | ⟨md, k, d, hmem, hk, hprovision, hmade⟩
  · rw [hnone]
    exact .missing
  · obtain ⟨hwhole, -, hsize⟩ := provision_making hprovision
    rw [hmade]
    by_cases hcut : k < 5
    · obtain ⟨m, hm⟩ := exists_madeBy (R := R) hk
      have hpart := openMaking_part (R := R) hsize hcut
      rw [hm] at hpart ⊢
      exact .part hmem hcut hpart
    · rw [madeBy_whole (Nat.not_lt.mp hcut), hwhole]
      exact .whole hmem (Nat.not_lt.mp hcut) hprovision (openMaking_whole hprovision)

end Provisioning

end AegisShield
