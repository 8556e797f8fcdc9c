/-
# What a call can do

Every operation of the engine is put together from a few PARTS: an observation by the analyzer, an
audit entry, a journal record, a compaction, a save.  No part changes the state or its version;
that is left to the one transition a call can end with (`EngineCall.parts`).  What is proved of
runs is proved of the parts and of the transition, and lifted to calls by this decomposition.

The gates show up as hypotheses of the parts: a journal record is only written in a writable
state, a compaction only happens where it is allowed, only a completed `enter_maintenance` leads to
MAINTENANCE, and no call leads to FAULT.
-/
import AegisShield.Engine.Persistence
import Mathlib.Logic.Relation

namespace AegisShield

open Lib Relation

variable {W : World}

/-! ## 1. Changes to the object -/

/-- The object's persisted fields can be dumped. -/
structure Engine.Sound (e : Engine W) : Prop where
  containment : e.containmentSequence.Wf
  recovery : e.recoverySequence.Wf
  nonces : e.usedNonces.Sorted

/-- What the object persists when it saves. -/
def Engine.saved (e : Engine W) (h : e.Sound) : Saved W.R :=
  ⟨e.state, e.stateVersion, e.containmentSequence, e.recoverySequence, e.usedNonces,
    h.containment, h.recovery, h.nonces⟩

/-- `e'` is `e` with other sequence anchors or other nonces. -/
structure Engine.Assigned (e e' : Engine W) : Prop where
  journal : e'.journal = e.journal
  audit : e'.audit = e.audit
  state : e'.state = e.state
  stateVersion : e'.stateVersion = e.stateVersion
  sound : e.Sound → e'.Sound

theorem Engine.Assigned.refl (e : Engine W) : e.Assigned e := ⟨rfl, rfl, rfl, rfl, id⟩

/-- The same transitions are allowed after the assignment. -/
theorem Engine.Assigned.allowed {m : Sys W} {e : Engine W} (h : m.engine.Assigned e)
    {target : AegisState} (hallowed : target ∈ m.engine.state.allowed) :
    target ∈ ({ m with engine := e } : Sys W).engine.state.allowed := by
  rw [← h.state] at hallowed
  exact hallowed

/-- A nonce is taken. -/
theorem Engine.Assigned.nonce (e : Engine W) (nonce : String) (expires : Int) :
    e.Assigned { e with usedNonces := e.usedNonces.set nonce expires } :=
  ⟨rfl, rfl, rfl, rfl, fun h => ⟨h.containment, h.recovery, Dict.sorted_set h.nonces⟩⟩

/-- A nonce is taken and the recovery sequence set. -/
theorem Engine.Assigned.recovery (e : Engine W) (nonce : String) (expires target : Int) :
    e.Assigned { e with usedNonces := e.usedNonces.set nonce expires
                        recoverySequence := .int target } :=
  ⟨rfl, rfl, rfl, rfl, fun h => ⟨h.containment, trivial, Dict.sorted_set h.nonces⟩⟩

/-- The containment sequence is set. -/
theorem Engine.Assigned.containment (e : Engine W) (sequence : Int) :
    e.Assigned { e with containmentSequence := .int sequence } :=
  ⟨rfl, rfl, rfl, rfl, fun h => ⟨trivial, h.recovery, h.nonces⟩⟩

/-- The anchors are dropped. -/
theorem Engine.Assigned.unanchored (e : Engine W) :
    e.Assigned { e with containmentSequence := .null, recoverySequence := .null } :=
  ⟨rfl, rfl, rfl, rfl, fun h => ⟨trivial, trivial, h.nonces⟩⟩

/-! ## 2. Parts -/

/-- A part of a call. -/
inductive Part : Sys W → Sys W → Prop
  /-- The analyzer sees an event, or a clock is read. -/
  | observe (s : Sys W) (analyzer : W.detector.Analyzer) (readings : Nat) :
      Part s { s with engine := { s.engine with analyzer := analyzer }, ticks := s.ticks + readings }
  | audit (s : Sys W) {event : String} {details : Dict W.R.Value}
      (hevent : event ≠ "state_persisted") (hwf : (Json.obj details).Wf) :
      Part s (s.audit event details)
  | journal (s : Sys W) {lba : Int} {payload line : Bytes} {journal : DurableJournal}
      (hstate : s.engine.state ∈ AegisState.writable)
      (h : s.engine.journal.prepare W.R lba payload = .ok (line, journal)) :
      Part s ((s.emit (.journal line)).withEngine fun e => { e with journal := journal })
  | compact (s : Sys W) (name : String) (hstate : s.engine.state ∈ AegisState.compaction) :
      Part s (s.compactFiles name).2
  | save (s : Sys W) {e : Engine W} (h : s.engine.Assigned e) :
      Part s (Sys.saveState { s with engine := e })

/-- A number of parts. -/
abbrev Parts : Sys W → Sys W → Prop := ReflTransGen Part

/-- How the call `c`, made on `s`, goes from `m` on: it is over, or it makes one transition. -/
inductive Ends (s : Sys W) (c : EngineCall) (m : Sys W) : Sys W → Prop
  | here : Ends s c m m
  | transition {e : Engine W} {target : AegisState} (reason : String) (h : m.engine.Assigned e)
      (hallowed : target ∈ m.engine.state.allowed) (hfault : target ≠ .fault)
      (hmaintenance : target = .maintenance → ∃ token verifier presence now,
        c = .enterMaintenance token verifier presence now ∧ (c.run s).1 = .ok ()) :
      Ends s c m (Sys.transition { m with engine := e } target reason).2

/-! ## 3. The decomposition -/

theorem Parts.tick (s : Sys W) : Parts s s.tick := ReflTransGen.single (Part.observe s _ 1)

theorem Sys.transition_ok {s : Sys W} {target : AegisState}
    (h : target ∈ s.engine.state.allowed) (reason : String) :
    (s.transition target reason).1 = .ok () := by
  unfold Sys.transition
  rw [if_neg (not_not.mpr h)]

theorem AegisState.contained_allowed {a : AegisState} (h : a ∈ AegisState.writable) :
    AegisState.contained ∈ a.allowed := by
  revert h
  cases a <;> decide

theorem AegisState.maintenance_allowed {a : AegisState} (h : a ∈ AegisState.maintenanceEntry) :
    AegisState.maintenance ∈ a.allowed := by
  revert h
  cases a <;> decide

namespace Sys

variable (s : Sys W) (c : EngineCall)

theorem read_parts (lba blocks : Int) :
    ∃ m, Parts s m ∧ Ends s c m (s.read lba blocks).2 :=
  ⟨_, ReflTransGen.single (Part.observe s _ 1), Ends.here⟩

theorem writeRecorded_parts {lba : Int} {payload before line : Bytes} {journal : DurableJournal}
    (hstate : s.engine.state ∈ AegisState.writable)
    (h : s.engine.journal.prepare W.R lba payload = .ok (line, journal)) :
    ∃ m, Parts s m ∧ Ends s c m (s.writeRecorded lba payload before line journal).2 := by
  unfold writeRecorded
  extract_lets blocks sequence event s1 s2 decision s3
  have h1 : Parts s s1 := (Parts.tick s).tail (Part.journal _ hstate h)
  have h2 : Parts s s2 := h1.tail (Part.observe s1 _ 0)
  have h3 : Parts s s3 := h2.tail (Part.audit s2 (by decide)
    ⟨Dict.sorted_of_keys (rfl : _ = ["blocks", "decision", "lba", "sequence"]) (by decide),
      trivial, decision.wf, trivial, trivial, trivial⟩)
  refine ⟨s3, h3, ?_⟩
  split
  · refine Ends.transition _ (Engine.Assigned.containment _ _)
      (AegisState.contained_allowed hstate) (by decide) ?_
    intro heq
    cases heq
  · split
    · rename_i halert
      have hnormal : s3.engine.state = .normal := by
        rw [Bool.and_eq_true, decide_eq_true_eq] at halert
        exact halert.2
      refine Ends.transition _ (Engine.Assigned.refl _) (by rw [hnormal]; decide) (by decide) ?_
      intro heq
      cases heq
    · exact Ends.here

theorem write_parts (lba : Int) (payload : Bytes) :
    ∃ m, Parts s m ∧ Ends s c m (s.write lba payload).2 := by
  unfold write
  split
  · exact ⟨s, ReflTransGen.refl, Ends.here⟩
  · rename_i hstate
    split
    · exact ⟨s, ReflTransGen.refl, Ends.here⟩
    · extract_lets blocks
      cases s.engine.journal.read W.R s.disk.root.toDir lba blocks none with
      | error e => exact ⟨s, ReflTransGen.refl, Ends.here⟩
      | ok before =>
        cases hprepare : s.engine.journal.prepare W.R lba payload with
        | error e => exact ⟨s.tick, Parts.tick s, Ends.here⟩
        | ok r => exact s.writeRecorded_parts c (not_not.mp hstate) hprepare

/-- A write is denied outside NORMAL and ELEVATED. -/
theorem write_denied (h : s.engine.state ∉ AegisState.writable) (lba : Int)
    (payload : Bytes) : s.write lba payload =
      (.error (.permissionError s!"writes prohibited in {s.engine.state.value}"), s) := by
  unfold write
  rw [if_pos h]

theorem flush_parts : ∃ m, Parts s m ∧ Ends s c m s.flush.2 := by
  have hwf : (Json.obj [("sequence", .int s.engine.journal.lastSequence)] : W.R.Value).Wf :=
    ⟨Dict.sorted_of_keys (rfl : _ = ["sequence"]) (by decide), trivial, trivial⟩
  exact ⟨_, ReflTransGen.single (Part.audit s (by decide) hwf), Ends.here⟩

theorem rejectDestructiveCommand_parts (opcode : Int) (name : String) :
    ∃ m, Parts s m ∧ Ends s c m (s.rejectDestructiveCommand opcode name).2 := by
  unfold rejectDestructiveCommand
  extract_lets event s1 decision s2
  have h1 : Parts s s1 := ReflTransGen.single (Part.observe s _ 1)
  have h2 : Parts s s2 := h1.tail (Part.audit s1 (by decide)
    ⟨Dict.sorted_of_keys (rfl : _ = ["name", "opcode"]) (by decide), trivial, trivial, trivial⟩)
  refine ⟨s2, h2, ?_⟩
  split
  · rename_i hstate
    refine Ends.transition _ (Engine.Assigned.containment _ _)
      (AegisState.contained_allowed hstate) (by decide) ?_
    intro heq
    cases heq
  · exact Ends.here

theorem authorizeRecovery_parts (token : String) (verifier : TokenVerifier) (presence : Bool)
    (now : Option Int) :
    ∃ m, Parts s m ∧ Ends s c m (s.authorizeRecovery token verifier presence now).2 := by
  unfold authorizeRecovery
  split
  · exact ⟨s, ReflTransGen.refl, Ends.here⟩
  rename_i hstate
  split
  · exact ⟨s, ReflTransGen.refl, Ends.here⟩
  split
  · exact ⟨s.tick, Parts.tick s, Ends.here⟩
  rename_i a ha
  split
  · exact ⟨s.tick, Parts.tick s, Ends.here⟩
  split
  · exact ⟨s.tick, Parts.tick s, Ends.here⟩
  rename_i target htarget
  split
  · exact ⟨s.tick, Parts.tick s, Ends.here⟩
  refine ⟨_, (Parts.tick s).tail (Part.save _ (Engine.Assigned.recovery _ a.nonce a.expiresUnix
    target)), ?_⟩
  have hallowed : AegisState.recoveryReadOnly ∈ s.engine.state.allowed := by
    rw [not_not.mp hstate]
    decide
  refine Ends.transition _ (Engine.Assigned.refl _) hallowed (by decide) ?_
  intro heq
  cases heq

/-- `enter_maintenance` once its checks are passed. -/
theorem enterMaintenance_eq {token : String} {verifier : TokenVerifier} {now : Option Int}
    {a : RecoveryAuthorization} (hstate : s.engine.state ∈ AegisState.maintenanceEntry)
    (ha : verifier.verify W.R token s.engine.journal.deviceId "enter_maintenance"
      s.engine.stateVersion (s.currentTime now) = .ok a)
    (hnonce : (s.engine.usedNonces.get a.nonce).isSome = false) :
    s.enterMaintenance token verifier true now =
      (s.tick.withEngine fun e =>
        { e with usedNonces := e.usedNonces.set a.nonce a.expiresUnix }).saveState.transition
          .maintenance "maintenance authorized via signed token" := by
  unfold enterMaintenance
  rw [if_neg (not_not.mpr hstate), if_neg (by decide), ha]
  simp only [hnonce]
  rfl

/-- **What a completed `enter_maintenance` has checked.** -/
theorem enterMaintenance_ok {token : String} {verifier : TokenVerifier} {presence : Bool}
    {now : Option Int} (h : (s.enterMaintenance token verifier presence now).1 = .ok ()) :
    s.engine.state ∈ AegisState.maintenanceEntry ∧ presence = true ∧
      ∃ a, verifier.verify W.R token s.engine.journal.deviceId "enter_maintenance"
          s.engine.stateVersion (s.currentTime now) = .ok a ∧
        (s.engine.usedNonces.get a.nonce).isSome = false := by
  unfold enterMaintenance at h
  split at h
  · cases h
  rename_i hstate
  split at h
  · cases h
  rename_i hpresence
  split at h
  · cases h
  rename_i a ha
  split at h
  · cases h
  rename_i hnonce
  exact ⟨not_not.mp hstate, by simpa using hpresence, a, ha, by simpa using hnonce⟩

theorem enterMaintenance_parts (token : String) (verifier : TokenVerifier) (presence : Bool)
    (now : Option Int) :
    ∃ m, Parts s m ∧ Ends s (.enterMaintenance token verifier presence now) m
      (s.enterMaintenance token verifier presence now).2 := by
  by_cases hr : (s.enterMaintenance token verifier presence now).1 = .ok ()
  · obtain ⟨hstate, rfl, a, ha, hnonce⟩ := s.enterMaintenance_ok hr
    rw [s.enterMaintenance_eq hstate ha hnonce]
    refine ⟨_, (Parts.tick s).tail (Part.save _ (Engine.Assigned.nonce _ a.nonce a.expiresUnix)), ?_⟩
    refine Ends.transition _ (Engine.Assigned.refl _) (AegisState.maintenance_allowed hstate)
      (by decide) ?_
    intro _
    exact ⟨token, verifier, true, now, rfl, hr⟩
  · -- the call was refused: it has read a clock at most
    unfold enterMaintenance at hr ⊢
    split
    · exact ⟨s, ReflTransGen.refl, Ends.here⟩
    rename_i hstate
    rw [if_neg hstate] at hr
    split
    · exact ⟨s, ReflTransGen.refl, Ends.here⟩
    rename_i hpresence
    rw [if_neg hpresence] at hr
    cases ha : verifier.verify W.R token s.engine.journal.deviceId "enter_maintenance"
        s.engine.stateVersion (s.currentTime now) with
    | error e => exact ⟨s.tick, Parts.tick s, Ends.here⟩
    | ok a =>
      simp only [ha] at hr ⊢
      split
      · exact ⟨s.tick, Parts.tick s, Ends.here⟩
      · rename_i hnonce
        rw [if_neg hnonce] at hr
        refine absurd (transition_ok ?_ _) hr
        exact AegisState.maintenance_allowed (not_not.mp hstate)

/-- **What a completed `authorize_recovery` has checked**, and what it does then. -/
theorem authorizeRecovery_ok {token : String} {verifier : TokenVerifier} {presence : Bool}
    {now : Option Int} (h : (s.authorizeRecovery token verifier presence now).1 = .ok ()) :
    s.engine.state = .contained ∧ presence = true ∧
      ∃ a target, verifier.verify W.R token s.engine.journal.deviceId "enter_recovery_read_only"
          s.engine.stateVersion (s.currentTime now) = .ok a ∧
        (s.engine.usedNonces.get a.nonce).isSome = false ∧
        (s.authorizeRecovery token verifier presence now).2 =
          ((s.tick.withEngine fun e =>
            { e with usedNonces := e.usedNonces.set a.nonce a.expiresUnix
                     recoverySequence := .int target }).saveState.transition
              .recoveryReadOnly "signed authorization plus physical presence").2 := by
  unfold authorizeRecovery at h ⊢
  split at h
  · cases h
  rename_i hstate
  split at h
  · cases h
  rename_i hpresence
  rw [if_neg hstate, if_neg hpresence]
  split at h
  · cases h
  rename_i a ha
  split at h
  · cases h
  rename_i hnonce
  split at h
  · cases h
  rename_i target htarget
  split at h
  · cases h
  rename_i hrange
  refine ⟨not_not.mp hstate, by simpa using hpresence, a, target, ha, by simpa using hnonce, ?_⟩
  rw [if_neg hnonce, if_neg hrange]

theorem compactJournal_parts (label : String) : Parts s (s.compactJournal label).2 := by
  unfold compactJournal
  split
  · exact ReflTransGen.refl
  · rename_i hstate
    extract_lets name
    have hfiles : Parts s (s.tick.compactFiles name).2 :=
      (Parts.tick s).tail (Part.compact _ name (not_not.mp hstate))
    split
    · rename_i e s1 hs1
      rw [hs1] at hfiles
      exact hfiles
    · rename_i s1 hs1
      rw [hs1] at hfiles
      have hwf : (Json.obj [("snapshot_name", .str name)] : W.R.Value).Wf :=
        ⟨Dict.sorted_of_keys (rfl : _ = ["snapshot_name"]) (by decide), trivial, trivial⟩
      exact (hfiles.tail (Part.save _ (Engine.Assigned.unanchored _))).tail
        (Part.audit _ (by decide) hwf)

theorem leaveMaintenance_ends {m : Sys W} (hstate : m.engine.state = .maintenance)
    (name : Option String) : Ends s c m (m.leaveMaintenance name).2 := by
  unfold leaveMaintenance
  refine Ends.transition _ (Engine.Assigned.unanchored _) (by rw [hstate]; decide)
    (by decide) ?_
  intro heq
  cases heq

end Sys

/-- A compaction leaves everything but the journal alone. -/
theorem Sys.compactFiles_frame (s : Sys W) (name : String) :
    (∃ journal, (s.compactFiles name).2.engine = { s.engine with journal := journal }) ∧
      (s.compactFiles name).2.disk.state = s.disk.state ∧
      (s.compactFiles name).2.ticks = s.ticks := by
  unfold compactFiles
  split
  · exact ⟨⟨_, rfl⟩, rfl, rfl⟩
  · extract_lets s1
    split
    · exact ⟨⟨_, rfl⟩, rfl, rfl⟩
    · exact ⟨⟨_, rfl⟩, rfl, rfl⟩

/-- No part changes the state. -/
theorem Part.same_state {s s' : Sys W} (h : Part s s') :
    s'.engine.state = s.engine.state ∧ s'.engine.stateVersion = s.engine.stateVersion := by
  cases h with
  | observe => exact ⟨rfl, rfl⟩
  | audit => exact ⟨rfl, rfl⟩
  | journal => exact ⟨rfl, rfl⟩
  | compact name =>
    obtain ⟨⟨journal, heq⟩, -⟩ := s.compactFiles_frame name
    rw [heq]
    exact ⟨rfl, rfl⟩
  | save ha => exact ⟨ha.state, ha.stateVersion⟩

theorem Parts.same_state {s s' : Sys W} (h : Parts s s') :
    s'.engine.state = s.engine.state ∧ s'.engine.stateVersion = s.engine.stateVersion := by
  induction h with
  | refl => exact ⟨rfl, rfl⟩
  | tail _ hpart ih => exact ⟨hpart.same_state.1.trans ih.1, hpart.same_state.2.trans ih.2⟩

theorem Sys.exitMaintenance_parts (s : Sys W) (c : EngineCall) (compact : Bool) :
    ∃ m, Parts s m ∧ Ends s c m (s.exitMaintenance compact).2 := by
  unfold exitMaintenance
  split
  · exact ⟨s, ReflTransGen.refl, Ends.here⟩
  rename_i hstate
  split
  · have hparts := s.compactJournal_parts "pre-maintenance"
    split
    · rename_i e s1 hs1
      rw [hs1] at hparts
      exact ⟨s1, hparts, Ends.here⟩
    · rename_i name s1 hs1
      rw [hs1] at hparts
      have hs1state := hparts.same_state.1.trans (not_not.mp hstate)
      exact ⟨s1, hparts, s.leaveMaintenance_ends c hs1state _⟩
  · exact ⟨s, ReflTransGen.refl, s.leaveMaintenance_ends c (not_not.mp hstate) _⟩

/-- **Every call is a number of parts, and then at most one transition.** -/
theorem EngineCall.parts (s : Sys W) (c : EngineCall) :
    ∃ m, Parts s m ∧ Ends s c m (c.run s).2 := by
  cases c with
  | read lba blocks => exact s.read_parts _ lba blocks
  | write lba payload => exact s.write_parts _ lba payload
  | flush => exact s.flush_parts _
  | rejectDestructiveCommand opcode name => exact s.rejectDestructiveCommand_parts _ opcode name
  | authorizeRecovery token verifier presence now =>
    exact s.authorizeRecovery_parts _ token verifier presence now
  | enterMaintenance token verifier presence now =>
    exact s.enterMaintenance_parts token verifier presence now
  | exitMaintenance compact => exact s.exitMaintenance_parts _ compact
  | compactJournal label => exact ⟨_, s.compactJournal_parts label, Ends.here⟩

end AegisShield
