/-
# Sequence anchors

`containment_sequence` and `recovery_sequence` are numbers of journal records that the engine keeps
beside the journal.  A compaction starts the numbers again at 0 and clears both anchors in the same
call, no other call removes records, and a clean restart finds in the state file the anchors that
the object had.  So in a life without crashes an anchor that is set is the number of a record, or 0.

From a completed `authorize_recovery` to the end of RECOVERY_READ_ONLY the journal stands still and
reads are at the sequence of the token (`recovery_reads_are_stable`).
-/
import AegisShield.Engine.Refusals

namespace AegisShield

open Lib Relation

variable {W : World} {md : Metadata}

/-! ## 1. Anchors -/

/-- Not set, or a sequence up to the last one. -/
def AnchorIn {R : Runtime} (last : Nat) (v : R.Value) : Prop :=
  v = .null ∨ ∃ n : Nat, v = .int n ∧ n ≤ last

/-- Both anchors of an engine are. -/
structure Anchored (s : Sys W) : Prop where
  containment : AnchorIn s.engine.journal.lastSequence s.engine.containmentSequence
  recovery : AnchorIn s.engine.journal.lastSequence s.engine.recoverySequence

/-- The state file is a save of the object's state and anchors. -/
def Filed (s : Sys W) : Prop :=
  ∃ p : Saved W.R, s.disk.state = some p.bytes ∧ p.state = s.engine.state ∧
    p.containmentSequence = s.engine.containmentSequence ∧
    p.recoverySequence = s.engine.recoverySequence

/-- The anchors are what they were. -/
structure SameAnchors (s s' : Sys W) : Prop where
  containment : s'.engine.containmentSequence = s.engine.containmentSequence
  recovery : s'.engine.recoverySequence = s.engine.recoverySequence

theorem AnchorIn.mono {R : Runtime} {last last' : Nat} {v : R.Value} (h : AnchorIn last v)
    (hle : last ≤ last') : AnchorIn last' v := by
  rcases h with h | ⟨n, h, hn⟩
  · exact Or.inl h
  · exact Or.inr ⟨n, h, le_trans hn hle⟩

theorem Anchored.of_same {s s' : Sys W} (h : Anchored s) (hsame : SameAnchors s s')
    (hle : s.engine.journal.lastSequence ≤ s'.engine.journal.lastSequence) : Anchored s' := by
  constructor
  · rw [hsame.containment]
    exact h.containment.mono hle
  · rw [hsame.recovery]
    exact h.recovery.mono hle

theorem Anchored.cleared {s : Sys W} (hc : s.engine.containmentSequence = .null)
    (hr : s.engine.recoverySequence = .null) : Anchored s := ⟨Or.inl hc, Or.inl hr⟩

/-! ## 2. What each call makes of them -/

section Calls

variable {s : Sys W}

theorem transition_anchors (s : Sys W) (target : AegisState) (reason : String) :
    SameAnchors s (s.transition target reason).2 := by
  unfold Sys.transition
  split
  · exact ⟨rfl, rfl⟩
  · exact ⟨rfl, rfl⟩

/-- **A recorded write** anchors a containment at its own record. -/
theorem writeRecorded_anchors (s : Sys W) (lba : Int) (payload before line : Bytes)
    (journal : DurableJournal) :
    let s' := (s.writeRecorded lba payload before line journal).2
    s'.engine.recoverySequence = s.engine.recoverySequence ∧
      (s'.engine.containmentSequence = s.engine.containmentSequence ∨
        s'.engine.containmentSequence = .int s.engine.journal.nextSequence) := by
  intro s'
  have hs' : s' = (s.writeRecorded lba payload before line journal).2 := rfl
  unfold Sys.writeRecorded at hs'
  extract_lets blocks sequence event s1 s2 decision s3 at hs'
  by_cases hcontain : decision.contain = true
  · have hsame := transition_anchors (s3.withEngine fun e =>
      { e with containmentSequence := .int sequence }) .contained "policy threshold crossed"
    rw [if_pos hcontain] at hs'
    rw [hs']
    exact ⟨hsame.recovery, Or.inr hsame.containment⟩
  rw [if_neg hcontain] at hs'
  by_cases halert : (decision.alert && s3.engine.state = .normal) = true
  · have hsame := transition_anchors s3 .elevated "policy alert threshold crossed"
    rw [if_pos halert] at hs'
    rw [hs']
    exact ⟨hsame.recovery, Or.inl hsame.containment⟩
  · rw [if_neg halert] at hs'
    rw [hs']
    exact ⟨rfl, Or.inl rfl⟩

/-- **A rejected command** anchors a containment at the last record. -/
theorem rejectDestructiveCommand_anchors (s : Sys W) (opcode : Int) (name : String) :
    let s' := (s.rejectDestructiveCommand opcode name).2
    s'.engine.recoverySequence = s.engine.recoverySequence ∧
      (s'.engine.containmentSequence = s.engine.containmentSequence ∨
        s'.engine.containmentSequence = .int s.engine.journal.lastSequence) := by
  intro s'
  have hs' : s' = (s.rejectDestructiveCommand opcode name).2 := rfl
  unfold Sys.rejectDestructiveCommand at hs'
  extract_lets event s1 decision s2 at hs'
  by_cases hwritable : s2.engine.state ∈ AegisState.writable
  · have hsame := transition_anchors (s2.withEngine fun e =>
      { e with containmentSequence := .int e.journal.lastSequence }) .contained s!"rejected {name}"
    rw [if_pos hwritable] at hs'
    rw [hs']
    exact ⟨hsame.recovery, Or.inr hsame.containment⟩
  · rw [if_neg hwritable] at hs'
    rw [hs']
    exact ⟨rfl, Or.inl rfl⟩

/-- **A completed `authorize_recovery`**: the target of the token is a sequence of the journal, and
becomes the anchor of the reads. -/
theorem authorizeRecovery_anchors {token : String} {verifier : TokenVerifier} {presence : Bool}
    {now : Option Int} (h : (s.authorizeRecovery token verifier presence now).1 = .ok ()) :
    ∃ (a : RecoveryAuthorization) (t : Nat), verifier.authenticate W.R token = some a ∧
      a.targetSequence = some (t : Int) ∧ t ≤ s.engine.journal.lastSequence ∧
      (s.authorizeRecovery token verifier presence now).2.engine.state = .recoveryReadOnly ∧
      (s.authorizeRecovery token verifier presence now).2.engine.recoverySequence = .int t ∧
      (s.authorizeRecovery token verifier presence now).2.engine.containmentSequence =
        s.engine.containmentSequence := by
  unfold Sys.authorizeRecovery at h ⊢
  split at h
  · cases h
  rename_i hstate
  split at h
  · cases h
  rename_i hpresence
  rw [if_neg hstate, if_neg hpresence]
  split at h
  · cases h
  rename_i a ha
  split at h
  · cases h
  rename_i hnonce
  split at h
  · cases h
  rename_i target htarget
  split at h
  · cases h
  rename_i hrange
  obtain ⟨h0, hlast⟩ := not_not.mp hrange
  obtain ⟨t, rfl⟩ := Int.eq_ofNat_of_zero_le h0
  rw [if_neg hnonce, if_neg hrange]
  have hallowed : AegisState.recoveryReadOnly ∈ s.engine.state.allowed := by
    rw [not_not.mp hstate]
    decide
  have hauth := (TokenVerifier.verify_ok ha).1
  refine ⟨a, t, hauth, htarget, Int.ofNat_le.mp hlast, ?_⟩
  dsimp only
  rw [Sys.transition_eq (by exact hallowed)]
  exact ⟨rfl, rfl, rfl⟩

theorem enterMaintenance_anchors (s : Sys W) (token : String) (verifier : TokenVerifier)
    (presence : Bool) (now : Option Int) :
    SameAnchors s (s.enterMaintenance token verifier presence now).2 := by
  unfold Sys.enterMaintenance
  split
  · exact ⟨rfl, rfl⟩
  split
  · exact ⟨rfl, rfl⟩
  split
  · exact ⟨rfl, rfl⟩
  split
  · exact ⟨rfl, rfl⟩
  · extract_lets m
    have hsaved : SameAnchors s m := ⟨rfl, rfl⟩
    have hsame := transition_anchors m .maintenance "maintenance authorized via signed token"
    exact ⟨hsame.containment.trans hsaved.containment, hsame.recovery.trans hsaved.recovery⟩

/-- **A completed compaction** clears both. -/
theorem compactJournal_anchors {label name : String} (h : (s.compactJournal label).1 = .ok name) :
    (s.compactJournal label).2.engine.containmentSequence = .null ∧
      (s.compactJournal label).2.engine.recoverySequence = .null := by
  unfold Sys.compactJournal at h ⊢
  split at h
  · cases h
  rename_i hstate
  rw [if_neg hstate]
  dsimp only at h ⊢
  split at h
  · cases h
  · exact ⟨rfl, rfl⟩

/-- **A completed `exit_maintenance`** clears both. -/
theorem exitMaintenance_anchors {compact : Bool} {name : Option String}
    (h : (s.exitMaintenance compact).1 = .ok name) :
    (s.exitMaintenance compact).2.engine.containmentSequence = .null ∧
      (s.exitMaintenance compact).2.engine.recoverySequence = .null := by
  have hleave : ∀ (m : Sys W) (name : Option String),
      (m.leaveMaintenance name).2.engine.containmentSequence = .null ∧
        (m.leaveMaintenance name).2.engine.recoverySequence = .null := by
    intro m name
    have hsame := transition_anchors (m.withEngine fun e =>
      { e with containmentSequence := .null, recoverySequence := .null }) .normal
      "maintenance complete"
    exact ⟨hsame.containment, hsame.recovery⟩
  unfold Sys.exitMaintenance at h ⊢
  split at h
  · cases h
  rename_i hstate
  rw [if_neg hstate]
  split at h
  · rename_i hcompact
    rw [if_pos hcompact]
    split at h
    · cases h
    · exact hleave _ _
  · rename_i hcompact
    rw [if_neg hcompact]
    exact hleave s none

variable {ws : List (Write md)} {es : List (AuditEntry W.R)} {p : Saved W.R}

theorem SameJournal.anchored {s' : Sys W} (hj : SameJournal s s') (h : Anchored s)
    (hsame : SameAnchors s s') : Anchored s' :=
  h.of_same hsame (by rw [hj.journal])

theorem Sys.Untouched.anchored {s' : Sys W} (h : Anchored s) (hsame : s.Untouched s') :
    Anchored s' := by
  refine h.of_same ⟨?_, ?_⟩ ?_
  · rw [hsame.1]
  · rw [hsame.1]
  · rw [hsame.1]

theorem write_anchored (hs : Ledgers ws es s) (h : Anchored s) (lba : Int) (payload : Bytes) :
    Anchored (s.write lba payload).2 := by
  unfold Sys.write
  split
  · exact h
  split
  · exact h
  extract_lets blocks
  split
  · exact h
  split
  · exact h.of_same ⟨rfl, rfl⟩ (le_refl _)
  · rename_i before hread _ line journal hprepare
    obtain ⟨w, hw, -⟩ := hs.record hprepare
    have hsame := SameJournal.writeRecorded s lba payload before line journal
    have hlast : (s.writeRecorded lba payload before line journal).2.engine.journal.lastSequence =
        ws.length + 1 := by
      rw [hsame.journal, hw.journal.lastSequence, List.length_append, List.length_singleton]
    have hprevious : s.engine.journal.lastSequence = ws.length := hs.journal.lastSequence
    have hnext : s.engine.journal.nextSequence = ws.length + 1 := hs.journal.backed.sequence
    obtain ⟨hrecovery, hcontainment⟩ :=
      writeRecorded_anchors s lba payload before line journal
    constructor
    · rcases hcontainment with hc | hc
      · rw [hc, hlast]
        exact h.containment.mono (by omega)
      · rw [hc, hlast, hnext]
        exact Or.inr ⟨_, rfl, le_refl _⟩
    · rw [hrecovery, hlast]
      exact h.recovery.mono (by omega)

/-- **Every call** keeps the anchors among the records. -/
theorem EngineCall.anchored (hs : Good ws es p s) (h : Anchored s) (c : EngineCall) :
    Anchored (c.run s).2 := by
  cases c with
  | read lba blocks => exact h.of_same ⟨rfl, rfl⟩ (le_refl _)
  | write lba payload => exact write_anchored hs.toLedgers h lba payload
  | flush => exact h.of_same ⟨rfl, rfl⟩ (le_refl _)
  | rejectDestructiveCommand opcode name =>
    -- containment takes the last sequence as its anchor, if it takes any
    have hj := SameJournal.rejectDestructiveCommand s opcode name
    obtain ⟨hrecovery, hcontainment⟩ := rejectDestructiveCommand_anchors s opcode name
    change Anchored (s.rejectDestructiveCommand opcode name).2
    constructor
    · rw [hj.journal]
      rcases hcontainment with hc | hc
      · rw [hc]
        exact h.containment
      · rw [hc]
        exact Or.inr ⟨_, rfl, le_refl _⟩
    · rw [hj.journal, hrecovery]
      exact h.recovery
  | authorizeRecovery token verifier presence now =>
    have hj := SameJournal.authorizeRecovery s token verifier presence now
    change Anchored (s.authorizeRecovery token verifier presence now).2
    cases hr : (s.authorizeRecovery token verifier presence now).1 with
    | error e => exact (authorizeRecovery_refused hr).anchored h
    | ok u =>
      -- `authorize_recovery` has compared its target with the last sequence
      obtain ⟨a, t, -, -, hlast, -, hrecovery, hcontainment⟩ := authorizeRecovery_anchors hr
      constructor
      · rw [hj.journal, hcontainment]
        exact h.containment
      · rw [hj.journal, hrecovery]
        exact Or.inr ⟨t, rfl, hlast⟩
  | enterMaintenance token verifier presence now =>
    exact (SameJournal.enterMaintenance s token verifier presence now).anchored h
      (enterMaintenance_anchors s token verifier presence now)
  | exitMaintenance compact =>
    change Anchored (s.exitMaintenance compact).2
    cases hr : (s.exitMaintenance compact).1 with
    | error e => exact (exitMaintenance_refused hs hr).anchored h
    | ok name =>
      -- leaving maintenance and compaction drop both anchors
      obtain ⟨hc, hr⟩ := exitMaintenance_anchors hr
      exact Anchored.cleared hc hr
  | compactJournal label =>
    change Anchored (s.compactJournal label).2
    cases hr : (s.compactJournal label).1 with
    | error e => exact (compactJournal_refused hs hr).anchored h
    | ok name =>
      obtain ⟨hc, hr⟩ := compactJournal_anchors hr
      exact Anchored.cleared hc hr

/-! ## 3. What the state file says of them -/

theorem Filed.save (hs : s.engine.Sound) : Filed s.saveState :=
  ⟨_, Sys.saveState_file hs, rfl, rfl, rfl⟩

theorem transition_filed (hs : s.engine.Sound) {target : AegisState}
    (hallowed : target ∈ s.engine.state.allowed) (reason : String) :
    Filed (s.transition target reason).2 := by
  rw [Sys.transition_eq hallowed]
  exact Filed.save ⟨hs.1, hs.2, hs.3⟩

theorem Part.filed {s' : Sys W} (hpart : Part s s') (hs : s.engine.Sound) (h : Filed s) :
    Filed s' := by
  obtain ⟨q, hfile, hq⟩ := h
  cases hpart with
  | observe analyzer readings => exact ⟨q, hfile, hq⟩
  | audit hevent hwf => exact ⟨q, hfile, hq⟩
  | journal hstate hprepare => exact ⟨q, hfile, hq⟩
  | compact name hstate =>
    obtain ⟨⟨journal, heq⟩, hsame, -⟩ := s.compactFiles_frame name
    refine ⟨q, hsame.trans hfile, ?_⟩
    rw [heq]
    exact hq
  | save ha => exact Filed.save (ha.sound hs)

theorem Parts.filed {m : Sys W} (hparts : Parts s m) (hs : Good ws es p s) (h : Filed s) :
    Filed m := by
  induction hparts with
  | refl => exact h
  | tail hparts hpart ih =>
    obtain ⟨⟨ws', es', p', hgood⟩, -⟩ := Parts.good hparts hs
    exact hpart.filed hgood.sound ih

/-- **Calls keep the file up to date.** -/
theorem EngineCall.filed (hs : Good ws es p s) (h : Filed s) (c : EngineCall) :
    Filed (c.run s).2 := by
  obtain ⟨m, hparts, hends⟩ := c.parts s
  have hm := hparts.filed hs h
  obtain ⟨⟨ws', es', p', hgood⟩, -⟩ := Parts.good hparts hs
  generalize (c.run s).2 = s' at hends ⊢
  cases hends with
  | here => exact hm
  | transition reason ha hallowed hfault hmaintenance =>
    exact transition_filed (ha.sound hgood.sound) (ha.allowed hallowed) reason

/-- **A restart** takes the anchors from the file, or falls into FAULT without any. -/
theorem Rested.reopen_filed {d : Disk} (h : Rested W ws es d) {q : Saved W.R}
    (hfile : d.state = some q.bytes) (ticks : Nat) :
    ∃ s', AegisShield.reopen W ticks d = .ok s' ∧ Filed s' ∧
      (s'.engine.state = q.state ∧ s'.engine.containmentSequence = q.containmentSequence ∧
          s'.engine.recoverySequence = q.recoverySequence ∨
        s'.engine.state = .fault ∧ s'.engine.containmentSequence = .null ∧
          s'.engine.recoverySequence = .null) := by
  rcases loadState_saved q h.reads.recorded with hload | ⟨err, hload⟩
  · rw [← hfile] at hload
    exact ⟨_, h.reopen_accepted hload ticks, ⟨q, hfile, rfl, rfl, rfl⟩, Or.inl ⟨rfl, rfl, rfl⟩⟩
  · rw [← hfile] at hload
    obtain ⟨reason, hopen⟩ := h.reopen_refused hload ticks
    refine ⟨_, hopen, ?_, Or.inr ⟨rfl, rfl, rfl⟩⟩
    rw [Sys.enterFault_eq]
    exact Filed.save ⟨trivial, trivial, List.Pairwise.nil⟩

end Calls

/-! ## 4. Lives without crashes -/

/-- What can become of a device that does not crash. -/
inductive CrashFree (W : World) : Device W → Prop
  | provisioned {blocks blockSize : Nat} {deviceId : String} {dir : Dir} (ticks : Nat) :
      provision W.R blocks blockSize deviceId = .ok dir →
      CrashFree W (.off (Disk.fresh dir) ticks)
  | opened {d : Disk} {ticks : Nat} {s : Sys W} : CrashFree W (.off d ticks) →
      reopen W ticks d = .ok s → CrashFree W (.on s)
  | call {s : Sys W} (c : EngineCall) : CrashFree W (.on s) → CrashFree W (.on (c.run s).2)
  | stopped {s : Sys W} (ticks : Nat) : CrashFree W (.on s) → CrashFree W (.off s.disk ticks)

/-- The files of an engine that was stopped, with the anchors of its journal in the state file. -/
structure AnchoredFiles (ws : List (Write md)) (es : List (AuditEntry W.R)) (q : Saved W.R)
    (d : Disk) : Prop where
  rested : Rested W ws es d
  file : d.state = some q.bytes
  containment : AnchorIn ws.length q.containmentSequence
  recovery : AnchorIn ws.length q.recoverySequence

/-- The invariant of a life without crashes. -/
def Device.Anchored : Device W → Prop
  | .on s => ∃ (md : Metadata) (ws : List (Write md)) (es : _) (p : _), AegisShield.Good ws es p s ∧
    AegisShield.Anchored s ∧ Filed s
  | .off d _ => (∃ blocks blockSize deviceId dir,
      provision W.R blocks blockSize deviceId = .ok dir ∧ d = Disk.fresh dir) ∨
    ∃ (md : Metadata) (ws : List (Write md)) (es : _) (q : _), AnchoredFiles (W := W) ws es q d

/-- **An engine on such files** has its anchors among the records. -/
theorem AnchoredFiles.reopen {ws : List (Write md)} {es : List (AuditEntry W.R)} {q : Saved W.R}
    {d : Disk} (h : AnchoredFiles ws es q d) (ticks : Nat) :
    ∃ (s : Sys W) (es' : _) (p' : _), AegisShield.reopen W ticks d = .ok s ∧ Good ws es' p' s ∧
      AegisShield.Anchored s ∧ Filed s := by
  obtain ⟨s, hopen, hfiled, hanchors⟩ := h.rested.reopen_filed h.file ticks
  obtain ⟨s', hopen', hreopened⟩ := h.rested.reopen (Or.inr ⟨q, h.file⟩) ticks
  obtain rfl : s' = s := Except.ok.inj (hopen'.symm.trans hopen)
  obtain ⟨es', p', hgood⟩ := hreopened.good
  refine ⟨s', es', p', hopen, hgood, ?_, hfiled⟩
  have hlast : s'.engine.journal.lastSequence = ws.length := hgood.journal.lastSequence
  rcases hanchors with ⟨-, hc, hr⟩ | ⟨-, hc, hr⟩
  · constructor
    · rw [hlast, hc]
      exact h.containment
    · rw [hlast, hr]
      exact h.recovery
  · exact Anchored.cleared hc hr

theorem Good.anchoredFiles {ws : List (Write md)} {es : List (AuditEntry W.R)} {p : Saved W.R}
    {s : Sys W} (hs : Good ws es p s) (h : Anchored s) (hfiled : Filed s) :
    ∃ q, AnchoredFiles (W := W) ws es q s.disk := by
  obtain ⟨q, hfile, -, hc, hr⟩ := hfiled
  have hlast : s.engine.journal.lastSequence = ws.length := hs.journal.lastSequence
  refine ⟨q, hs.rested, hfile, ?_, ?_⟩
  · rw [hc, ← hlast]
    exact h.containment
  · rw [hr, ← hlast]
    exact h.recovery

/-- **Every life without crashes** keeps the anchors among the records. -/
theorem CrashFree.anchored {device : Device W} (h : CrashFree W device) : device.Anchored := by
  induction h with
  | provisioned ticks hprovision => exact Or.inl ⟨_, _, _, _, hprovision, rfl⟩
  | opened hoff hopen ih =>
    rename_i d ticks s
    rcases ih with ⟨blocks, blockSize, deviceId, dir, hprovision, rfl⟩ | ⟨md, ws, es, q, hfiles⟩
    · obtain ⟨hboot, es, p, hsaved⟩ := reopen_fresh (W := W) hprovision ticks
      obtain rfl := Except.ok.inj (hboot.symm.trans hopen)
      have hallowed := Sys.bootingOn_allowed W
        ([] : List (Write ⟨deviceId, blocks, blockSize⟩)) [] ticks (Disk.fresh dir)
      have hsame := transition_anchors (Sys.bootingOn W
        ([] : List (Write ⟨deviceId, blocks, blockSize⟩)) [] ticks (Disk.fresh dir)) .normal
        "self-test complete"
      exact ⟨_, [], es, p, hsaved.toGood, Anchored.cleared hsame.containment hsame.recovery,
        transition_filed (Engine.initial_sound _ _) hallowed _⟩
    · obtain ⟨s', es', p', hopen', hgood, hanchored⟩ := hfiles.reopen ticks
      obtain rfl := Except.ok.inj (hopen'.symm.trans hopen)
      exact ⟨md, ws, es', p', hgood, hanchored⟩
  | call c hon ih =>
    obtain ⟨md, ws, es, p, hgood, hanchored, hfiled⟩ := ih
    obtain ⟨⟨ws', es', p', hgood'⟩, -⟩ := c.good hgood
    exact ⟨md, ws', es', p', hgood', c.anchored hgood hanchored, c.filed hgood hfiled⟩
  | stopped ticks hon ih =>
    obtain ⟨md, ws, es, p, hgood, hanchored, hfiled⟩ := ih
    obtain ⟨q, hfiles⟩ := hgood.anchoredFiles hanchored hfiled
    exact Or.inr ⟨md, ws, es, q, hfiles⟩

/-- The blocks of a device are not empty, since it was provisioned. -/
def Device.Sized : Device W → Prop
  | .on s => 0 < s.engine.journal.blockSize
  | .off d _ => (∃ blocks blockSize deviceId dir,
      provision W.R blocks blockSize deviceId = .ok dir ∧ d = Disk.fresh dir) ∨
    ∃ (md : Metadata) (ws : List (Write md)) (es : _) (q : _),
      AnchoredFiles (W := W) ws es q d ∧ 0 < md.blockSize

theorem CrashFree.sized {device : Device W} (h : CrashFree W device) : device.Sized := by
  induction h with
  | provisioned ticks hprovision => exact Or.inl ⟨_, _, _, _, hprovision, rfl⟩
  | opened hoff hopen ih =>
    rename_i d ticks s
    rcases ih with ⟨blocks, blockSize, deviceId, dir, hprovision, rfl⟩ |
      ⟨md, ws, es, q, hfiles, hsize⟩
    · obtain ⟨hboot, es, p, hsaved⟩ := reopen_fresh (W := W) hprovision ticks
      obtain rfl := Except.ok.inj (hboot.symm.trans hopen)
      exact provision_blockSize hprovision
    · obtain ⟨s', es', p', hopen', hgood, -⟩ := hfiles.reopen ticks
      obtain rfl := Except.ok.inj (hopen'.symm.trans hopen)
      have hmd := hgood.journal.metadata
      subst hmd
      exact hsize
  | call c hon ih =>
    obtain ⟨md, ws, es, p, hgood, -⟩ := hon.anchored
    obtain ⟨⟨ws', es', p', hgood'⟩, -⟩ := c.good hgood
    have hsame := hgood'.journal.metadata.trans hgood.journal.metadata.symm
    show 0 < (c.run _).2.engine.journal.blockSize
    rw [congrArg Metadata.blockSize hsame]
    exact ih
  | stopped ticks hon ih =>
    obtain ⟨md, ws, es, p, hgood, hanchored, hfiled⟩ := hon.anchored
    obtain ⟨q, hfiles⟩ := hgood.anchoredFiles hanchored hfiled
    have hmd := hgood.journal.metadata
    subst hmd
    exact Or.inr ⟨_, ws, es, q, hfiles, ih⟩

/-! ## 5. In RECOVERY_READ_ONLY -/

/-- What can become of an engine in RECOVERY_READ_ONLY, as long as it stays there: calls, clean stops
and restarts that restore the state. -/
inductive Recovering (s : Sys W) : Device W → Prop
  | start : Recovering s (.on s)
  | call {s' : Sys W} (c : EngineCall) : Recovering s (.on s') →
      (c.run s').2.engine.state = .recoveryReadOnly → Recovering s (.on (c.run s').2)
  | stopped {s' : Sys W} (ticks : Nat) : Recovering s (.on s') → Recovering s (.off s'.disk ticks)
  | opened {d : Disk} {ticks : Nat} {s' : Sys W} : Recovering s (.off d ticks) →
      reopen W ticks d = .ok s' → s'.engine.state = .recoveryReadOnly → Recovering s (.on s')

/-- **A call in RECOVERY_READ_ONLY** leaves the journal and the anchor of the reads alone. -/
theorem EngineCall.recovering {s : Sys W} (hstate : s.engine.state = .recoveryReadOnly)
    (c : EngineCall) : SameJournal s (c.run s).2 ∧
      (c.run s).2.engine.recoverySequence = s.engine.recoverySequence := by
  cases c with
  | read lba blocks => exact ⟨⟨rfl, rfl⟩, rfl⟩
  | write lba payload =>
    have hwritable : s.engine.state ∉ AegisState.writable := by
      rw [hstate]
      decide
    change SameJournal s (s.write lba payload).2 ∧ (s.write lba payload).2.engine.recoverySequence = _
    rw [s.write_denied hwritable]
    exact ⟨⟨rfl, rfl⟩, rfl⟩
  | flush => exact ⟨⟨rfl, rfl⟩, rfl⟩
  | rejectDestructiveCommand opcode name =>
    exact ⟨.rejectDestructiveCommand s opcode name,
      (rejectDestructiveCommand_anchors s opcode name).1⟩
  | authorizeRecovery token verifier presence now =>
    have hcontained : s.engine.state ≠ .contained := by
      rw [hstate]
      decide
    change SameJournal s (s.authorizeRecovery token verifier presence now).2 ∧
      (s.authorizeRecovery token verifier presence now).2.engine.recoverySequence = _
    rw [Sys.authorizeRecovery, if_pos hcontained]
    exact ⟨⟨rfl, rfl⟩, rfl⟩
  | enterMaintenance token verifier presence now =>
    exact ⟨.enterMaintenance s token verifier presence now,
      (enterMaintenance_anchors s token verifier presence now).recovery⟩
  | exitMaintenance compact =>
    have hmaintenance : s.engine.state ≠ .maintenance := by
      rw [hstate]
      decide
    change SameJournal s (s.exitMaintenance compact).2 ∧
      (s.exitMaintenance compact).2.engine.recoverySequence = _
    rw [Sys.exitMaintenance, if_pos hmaintenance]
    exact ⟨⟨rfl, rfl⟩, rfl⟩
  | compactJournal label =>
    have hcompaction : s.engine.state ∉ AegisState.compaction := by
      rw [hstate]
      decide
    change SameJournal s (s.compactJournal label).2 ∧
      (s.compactJournal label).2.engine.recoverySequence = _
    rw [Sys.compactJournal, if_pos hcompaction]
    exact ⟨⟨rfl, rfl⟩, rfl⟩

/-- The invariant of such a device: the journal of `s`, read at the sequence `t`. -/
def Device.Recovers (s : Sys W) (ws : List (Write md)) (t : Nat) : Device W → Prop
  | .on s' => ∃ es p, AegisShield.Good ws es p s' ∧ s'.engine.state = .recoveryReadOnly ∧
    s'.engine.recoverySequence = .int t ∧ SameJournal s s' ∧ Filed s'
  | .off d _ => ∃ es, Rested W ws es d ∧ d.root = s.disk.root ∧ ∃ q : Saved W.R,
    d.state = some q.bytes ∧ q.state = .recoveryReadOnly ∧ q.recoverySequence = .int t

theorem Recovering.recovers {s : Sys W} {ws : List (Write md)} {t : Nat}
    (hs : Device.Recovers s ws t (.on s)) {device : Device W} (h : Recovering s device) :
    device.Recovers s ws t := by
  have hjournal : s.engine.journal = ⟨md, cursorOf W.R ws, none⟩ := by
    obtain ⟨es, p, hgood, -⟩ := hs
    exact hgood.journal_eq
  induction h with
  | start => exact hs
  | call c hon hstays ih =>
    obtain ⟨es, p, hgood, hstate, hanchor, hsame, hfiled⟩ := ih
    -- in this state no call touches the journal or the anchor
    obtain ⟨hkept, hrecovery⟩ := c.recovering hstate
    obtain ⟨⟨ws', es', p', hgood'⟩, -⟩ := c.good hgood
    refine ⟨es', p', hgood'.of_canonical ?_, hstays, hrecovery.trans hanchor, hsame.trans hkept,
      c.filed hgood hfiled⟩
    rw [hkept.journal, hkept.root]
    exact hgood.journal
  | stopped ticks hon ih =>
    obtain ⟨es, p, hgood, hstate, hanchor, hsame, q, hfile, hq, -, hrecovery⟩ := ih
    exact ⟨es, hgood.rested, hsame.root, q, hfile, hq.trans hstate, hrecovery.trans hanchor⟩
  | opened hoff hopen hstays ih =>
    rename_i d ticks s'
    obtain ⟨es, hrested, hroot, q, hfile, hq, hrecovery⟩ := ih
    obtain ⟨s'', hopen', hfiled, hanchors⟩ := hrested.reopen_filed hfile ticks
    obtain rfl := Except.ok.inj (hopen'.symm.trans hopen)
    obtain ⟨s₃, hopen₃, hreopened⟩ := hrested.reopen (Or.inr ⟨q, hfile⟩) ticks
    obtain rfl := Except.ok.inj (hopen₃.symm.trans hopen)
    obtain ⟨es', p', hgood⟩ := hreopened.good
    have hsame : SameJournal s s₃ :=
      ⟨hreopened.journal.trans hjournal.symm, hreopened.root.trans hroot⟩
    -- a start takes both from the file, or ends in FAULT
    rcases hanchors with ⟨-, -, hr⟩ | ⟨hfault, -⟩
    · exact ⟨es', p', hgood, hstays, hr.trans hrecovery, hsame, hfiled⟩
    · rw [hfault] at hstays
      cases hstays

/-- **A read in RECOVERY_READ_ONLY.** -/
theorem Device.Recovers.read {s s' : Sys W} {ws : List (Write md)} {t : Nat}
    (h : Device.Recovers s ws t (.on s')) (ht : t ≤ ws.length) {lba n : Nat} (hn : 1 ≤ n)
    (hrange : lba + n ≤ md.blocks) :
    (s'.read lba n).1 = .ok (blocksOf (imageOf s.disk.root.base (ws.take t)) lba n) := by
  obtain ⟨es, p, hgood, hstate, hanchor, hsame, -⟩ := h
  have hread := hgood.journal.read_at (b := lba) (c := n) hn hrange ht
  have hbase : s'.disk.root.toDir.base = s.disk.root.base := by rw [hsame.root]
  rw [Sys.read, hstate, ← hbase, ← hread, if_pos rfl, hanchor]
  rfl

/-- The authorized engine itself. -/
theorem authorizeRecovery_recovers {s : Sys W} {ws : List (Write md)} {es : List (AuditEntry W.R)}
    {p : Saved W.R} (hs : Good ws es p s) {token : String} {verifier : TokenVerifier}
    {presence : Bool} {now : Option Int}
    (h : (s.authorizeRecovery token verifier presence now).1 = .ok ()) :
    ∃ (a : RecoveryAuthorization) (t : Nat), verifier.authenticate W.R token = some a ∧
      a.targetSequence = some (t : Int) ∧ t ≤ ws.length ∧
      Device.Recovers (s.authorizeRecovery token verifier presence now).2 ws t
        (.on (s.authorizeRecovery token verifier presence now).2) := by
  obtain ⟨hcontained, -⟩ := s.authorizeRecovery_ok h
  obtain ⟨a, t, hauth, htarget, hlast, hstate, hanchor, -⟩ := authorizeRecovery_anchors h
  have hsame := SameJournal.authorizeRecovery s token verifier presence now
  rw [hs.journal.lastSequence] at hlast
  obtain ⟨⟨ws', es', p', hgood⟩, -⟩ :=
    EngineCall.good (.authorizeRecovery token verifier presence now) hs
  have hcanon : Canonical W.R ws (s.authorizeRecovery token verifier presence now).2.engine.journal
      (s.authorizeRecovery token verifier presence now).2.disk.root.toDir := by
    rw [hsame.journal, hsame.root]
    exact hs.journal
  -- the call has made its transition, and saved
  have hfiled : Filed (s.authorizeRecovery token verifier presence now).2 := by
    obtain ⟨m, hparts, hends⟩ :=
      EngineCall.parts s (.authorizeRecovery token verifier presence now)
    obtain ⟨⟨wm, em, pm, hm⟩, -⟩ := Parts.good hparts hs
    have hend : Ends s (.authorizeRecovery token verifier presence now) m
      (s.authorizeRecovery token verifier presence now).2 := hends
    generalize (s.authorizeRecovery token verifier presence now).2 = s' at hend hstate ⊢
    cases hend with
    | here =>
      rw [hparts.same_state.1, hcontained] at hstate
      cases hstate
    | transition reason ha hallowed hfault hmaintenance =>
      exact transition_filed (ha.sound hm.sound) (ha.allowed hallowed) reason
  exact ⟨a, t, hauth, htarget, hlast, es', p', hgood.of_canonical hcanon, hstate, hanchor,
    ⟨rfl, rfl⟩, hfiled⟩

/-- Any list of writes that makes the log shows the images of the journal. -/
theorem Good.image_of_log {s : Sys W} {ws : List (Write md)} {es : List (AuditEntry W.R)}
    {p : Saved W.R} (h : Good ws es p s) {ws' : List (Write s.engine.journal.toMetadata)}
    (hlog : s.disk.root.log = logOf W.R ws') {b c q : Nat} (hc : 1 ≤ c) (hb : b + c ≤ md.blocks)
    (hq : q ≤ ws.length) (hq' : q ≤ ws'.length) :
    blocksOf (imageOf s.disk.root.base (ws'.take q)) b c =
      blocksOf (imageOf s.disk.root.base (ws.take q)) b c := by
  obtain rfl : s.engine.journal.toMetadata = md := h.journal.metadata
  exact h.journal.image_of_log hlog hc hb hq hq'

/-! ## 6. Main result -/

/-- **Recovery reads are a stable point-in-time view, and anchors are sequences of the journal.**
From a completed `authorize_recovery` with the target `t` on, as long as the engine stays in
RECOVERY_READ_ONLY, every read in range returns the image of the first `t` records.  In a life
without crashes an anchor that is set lies between 0 and the last sequence. -/
theorem recovery_reads_are_stable {s : Sys W} (h : Reachable W (.on s)) :
    (∀ token verifier presence now,
      (s.authorizeRecovery token verifier presence now).1 = .ok () →
      ∃ (ws : List (Write s.engine.journal.toMetadata)) (a : RecoveryAuthorization) (t : Nat),
        s.disk.root.log = logOf W.R ws ∧ verifier.authenticate W.R token = some a ∧
        a.targetSequence = some (t : Int) ∧ t ≤ ws.length ∧
        ∀ s', Recovering (s.authorizeRecovery token verifier presence now).2 (.on s') →
          ∀ lba n : Int, 0 ≤ lba → 1 ≤ n → lba + n ≤ s.engine.journal.blocks →
            (s'.read lba n).1 =
              .ok (blocksOf (imageOf s.disk.root.base (ws.take t)) lba.toNat n.toNat)) ∧
      (CrashFree W (.on s) → Anchored s) := by
  constructor
  · intro token verifier presence now hok
    obtain ⟨md, ws, es, p, hgood⟩ := h.good
    obtain rfl : s.engine.journal.toMetadata = md := hgood.journal.metadata
    obtain ⟨a, t, hauth, htarget, hlast, hrecovers⟩ := authorizeRecovery_recovers hgood hok
    refine ⟨ws, a, t, hgood.journal.log, hauth, htarget, hlast, ?_⟩
    intro s' hrecovering lba n hlba hn hrange
    obtain ⟨b, rfl⟩ := Int.eq_ofNat_of_zero_le hlba
    obtain ⟨c, rfl⟩ := Int.eq_ofNat_of_zero_le (by omega : 0 ≤ n)
    have hc : 0 < c := by omega
    have hbc : b + c ≤ s.engine.journal.blocks := by omega
    have hread := (hrecovering.recovers hrecovers).read hlast hc hbc
    have hroot := (SameJournal.authorizeRecovery s token verifier presence now).root
    rw [hroot] at hread
    exact hread
  · intro hcrashFree
    obtain ⟨md, ws, es, p, -, hanchored, -⟩ := hcrashFree.anchored
    exact hanchored

/-- The authorization to read at a sequence. -/
def recoveryAt (version target : Int) : RecoveryAuthorization :=
  ⟨"enter_recovery_read_only", "dev", 600, 0, "n-1", version, some target⟩

/-- It is accepted from a contained engine's service key. -/
theorem authorizeRecovery_signed {s : Sys W} (hstate : s.engine.state = .contained)
    (hnonces : s.engine.usedNonces = []) (hdevice : s.engine.journal.deviceId = "dev") (target : Int)
    (hlow : 0 ≤ target) (hhigh : target ≤ (s.engine.journal.lastSequence : Int)) :
    let token := signAuthorization W.R id (recoveryAt s.engine.stateVersion target)
    serviceKey.authenticate W.R token = some (recoveryAt s.engine.stateVersion target) ∧
      (s.authorizeRecovery token serviceKey true (some 0)).1 = .ok () := by
  intro token
  let a := recoveryAt s.engine.stateVersion target
  have hauth : serviceKey.authenticate W.R token = some a :=
    authenticate_sign (fun _ => decide_eq_true rfl) a
  have hverify : serviceKey.verify W.R token s.engine.journal.deviceId "enter_recovery_read_only"
      s.engine.stateVersion (s.currentTime (some 0)) = .ok a := by
    rw [hdevice]
    have hissued : (0 : Int) ≤ 0 + 60 := by decide
    have hexpires : (0 : Int) ≤ 600 := by decide
    have hlifetime : (600 : Int) - 0 ≤ 900 := by decide
    exact TokenVerifier.verify_of_authenticate hauth 0 hissued hexpires hlifetime
  have hnonce : ¬ (s.engine.usedNonces.get a.nonce).isSome = true := by
    rw [hnonces]
    exact Bool.false_ne_true
  have htarget : a.targetSequence = some target := rfl
  have hrange : ¬ ¬ (0 ≤ target ∧ target ≤ (s.engine.journal.lastSequence : Int)) :=
    not_not.mpr ⟨hlow, hhigh⟩
  have hallowed : AegisState.recoveryReadOnly ∈ s.engine.state.allowed := by
    rw [hstate]
    decide
  refine ⟨hauth, ?_⟩
  rw [Sys.authorizeRecovery, if_neg (not_not.mpr hstate), if_neg (by decide), hverify]
  dsimp only
  rw [if_neg hnonce, htarget]
  dsimp only
  rw [if_neg hrange]
  exact Sys.transition_ok (by exact hallowed) _

/-- A block is written twice, and then a command is rejected. -/
def Sys.overwritten (s : Sys World.quiet) : Sys World.quiet :=
  (((s.write sevens.start sevens.data).2.write nines.start
    nines.data).2.rejectDestructiveCommand 128 "format").2

theorem Good.overwritten {es : List (AuditEntry World.quiet.R)} {p : Saved World.quiet.R}
    {s : Sys World.quiet} (h : Good ([] : List (Write ⟨"dev", 4, 512⟩)) es p s)
    (hstate : s.engine.state = .normal) (hnonces : s.engine.usedNonces = []) :
    s.overwritten.engine.state = .contained ∧ s.overwritten.engine.usedNonces = [] ∧
      ∃ es' p', Good [sevens, nines] es' p' s.overwritten := by
  have hwritable : ∀ {t : Sys World.quiet}, t.engine.state = .normal →
      t.engine.state ∈ AegisState.writable := by
    intro t ht
    rw [ht]
    decide
  obtain ⟨hstate₁, hnonces₁⟩ := write_quiet s sevens.start sevens.data
  obtain ⟨es₁, p₁, hgood₁⟩ := h.write (hwritable hstate) sevens
  obtain ⟨hstate₂, hnonces₂⟩ :=
    write_quiet (s.write sevens.start sevens.data).2 nines.start nines.data
  obtain ⟨es₂, p₂, hgood₂⟩ := hgood₁.write (hwritable (hstate₁.trans hstate)) nines
  obtain ⟨hcontained, hnone, -⟩ := Sys.rejectDestructiveCommand_spec
    (hstate₂.trans (hstate₁.trans hstate)) (hnonces₂.trans (hnonces₁.trans hnonces)) 128 "format"
  obtain ⟨⟨ws, es₃, p₃, hgood₃⟩, -⟩ := EngineCall.good (.rejectDestructiveCommand 128 "format") hgood₂
  have hsame := SameJournal.rejectDestructiveCommand
    ((s.write sevens.start sevens.data).2.write nines.start nines.data).2 128 "format"
  have hjournal := hgood₂.journal
  rw [← hsame.journal, ← hsame.root] at hjournal
  exact ⟨hcontained, hnone, es₃, p₃, Good.of_canonical hgood₃ hjournal⟩

theorem CrashFree.overwritten {s : Sys World.quiet} (h : CrashFree World.quiet (.on s)) :
    CrashFree World.quiet (.on s.overwritten) :=
  ((h.call (.write sevens.start sevens.data)).call (.write nines.start nines.data)).call
    (.rejectDestructiveCommand 128 "format")

theorem Reachable.overwritten {s : Sys World.quiet} (h : Reachable World.quiet (.on s)) :
    Reachable World.quiet (.on s.overwritten) :=
  ((h.call (.write sevens.start sevens.data)).call (.write nines.start nines.data)).call
    (.rejectDestructiveCommand 128 "format")

/-- A contained device that is read between its two records: the block holds what the first one
wrote. -/
theorem recovery_reads_are_stable_overwritten : ∃ (dir : Dir) (s : Sys World.quiet),
    provision World.quiet.R 4 512 "dev" = .ok dir ∧ s = (quietBoot dir).overwritten ∧ Anchored s ∧
      ∃ token, (s.authorizeRecovery token serviceKey true (some 0)).1 = .ok () ∧
        ((s.authorizeRecovery token serviceKey true (some 0)).2.read 1 1).1 =
          .ok (List.replicate 512 7) := by
  obtain ⟨dir, hdir⟩ := provision_four_blocks
  obtain ⟨hopen, es₀, p₀, hsaved⟩ := reopen_fresh (W := World.quiet) hdir 0
  have hreachable := (reachable_quietBoot hdir).overwritten
  have hcrashFree := (CrashFree.opened (.provisioned 0 hdir) hopen).overwritten
  obtain ⟨hstate, hnonces, es, p, hgood⟩ := Good.overwritten hsaved.toGood rfl rfl
  refine ⟨dir, _, hdir, rfl, ?_⟩
  generalize (quietBoot dir).overwritten = s at *
  have hdevice : s.engine.journal.deviceId = "dev" :=
    congrArg Metadata.deviceId hgood.journal.metadata
  have hblocks : s.engine.journal.blocks = 4 := congrArg Metadata.blocks hgood.journal.metadata
  have hlast : s.engine.journal.lastSequence = 2 := hgood.journal.lastSequence
  obtain ⟨hauth, hok⟩ := authorizeRecovery_signed hstate hnonces hdevice 1 (by decide)
    (by rw [hlast]; decide)
  obtain ⟨hreads, hanchored⟩ := recovery_reads_are_stable hreachable
  obtain ⟨ws, a, t, hlog, hauth', htarget, hle, hread⟩ := hreads _ _ _ _ hok
  obtain rfl := Option.some.inj (hauth'.symm.trans hauth)
  obtain rfl : t = 1 := Int.ofNat.inj (Option.some.inj htarget).symm
  refine ⟨hanchored hcrashFree, _, hok, ?_⟩
  have hone := hread _ .start 1 1 (by decide) (le_refl _) (by rw [hblocks]; decide)
  have himage : blocksOf (imageOf s.disk.root.base (ws.take 1)) 1 1 =
      blocksOf (imageOf s.disk.root.base ([sevens, nines].take 1)) 1 1 :=
    hgood.image_of_log hlog (le_refl _) (by decide) (by decide) hle
  have hfirst : imageOf s.disk.root.base [sevens] 1 = List.replicate 512 7 :=
    imageOf_fill s.disk.root.base 1 7 (by decide) (by decide)
  exact hone.trans (congrArg Except.ok (himage.trans ((blocksOf_one _ 1).trans hfirst)))

end AegisShield
