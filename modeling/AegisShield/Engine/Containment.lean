/-
# Containment is sticky

From CONTAINED on, nothing but a completed `enter_maintenance` lets the device out of CONTAINED,
RECOVERY_READ_ONLY and FAULT: no call, and no clean restart.  As long as it stays in there, writes
are denied, compaction is refused, and the journal is left exactly as it was
(`containment_is_sticky`).
-/
import AegisShield.Engine.Runs

namespace AegisShield

open Lib Relation

variable {W : World} {md : Metadata}

/-! ## 1. The quarantined states -/

namespace AegisState

/-- The states of a device under suspicion. -/
def quarantine : List AegisState := [contained, recoveryReadOnly, fault]

theorem quarantine_gated {a : AegisState} (h : a ∈ quarantine) : a ∉ writable ∧ a ∉ compaction := by
  revert h
  cases a <;> decide

/-- The only way out of quarantine is MAINTENANCE. -/
theorem quarantine_allowed {a b : AegisState} (h : a ∈ quarantine) (hb : b ∈ a.allowed)
    (hm : b ≠ maintenance) : b ∈ quarantine := by
  revert h hb hm
  cases a <;> cases b <;> decide

end AegisState

/-- No part of a call touches the journal of a quarantined device. -/
theorem Part.frozen {s s' : Sys W} (hpart : Part s s') (h : s.engine.state ∈ AegisState.quarantine) :
    s'.engine.journal = s.engine.journal ∧ s'.disk.root = s.disk.root := by
  obtain ⟨hwritable, hcompaction⟩ := AegisState.quarantine_gated h
  cases hpart with
  | observe analyzer readings => exact ⟨rfl, rfl⟩
  | audit hevent hwf => exact ⟨rfl, rfl⟩
  | journal hstate hprepare => exact absurd hstate hwritable
  | compact name hstate => exact absurd hstate hcompaction
  | save ha => exact ⟨ha.journal, rfl⟩

theorem Parts.frozen {s m : Sys W} (hparts : Parts s m)
    (h : s.engine.state ∈ AegisState.quarantine) :
    m.engine.journal = s.engine.journal ∧ m.disk.root = s.disk.root := by
  induction hparts with
  | refl => exact ⟨rfl, rfl⟩
  | tail hparts hpart ih =>
    rw [← (Parts.same_state hparts).1] at h
    obtain ⟨h1, h2⟩ := hpart.frozen h
    exact ⟨h1.trans ih.1, h2.trans ih.2⟩

/-! ## 2. Runs with clean restarts -/

/-- A call, or a clean stop and a new engine on the same files. -/
inductive LifeOp
  | call (c : EngineCall)
  | restart

/-- One such operation; a constructor that raises ends the run. -/
def LifeOp.step (device : Except Raised (Sys W)) : LifeOp → Except Raised (Sys W)
  | .call c => device.map fun s => (c.run s).2
  | .restart => device.bind fun s => reopen W s.ticks s.disk

/-- The operation is an `enter_maintenance` that completes. -/
def LifeOp.EntersMaintenance (device : Except Raised (Sys W)) (o : LifeOp) : Prop :=
  ∃ s token verifier presence now, device = .ok s ∧
    o = .call (.enterMaintenance token verifier presence now) ∧
    (s.enterMaintenance token verifier presence now).1 = .ok ()

/-- The device is quarantined, with the journal that `s` had. -/
def Quarantined (md : Metadata) (s : Sys W) (device : Except Raised (Sys W)) : Prop :=
  ∃ (s' : Sys W) (ws : List (Write md)) (es : _) (p : _), device = .ok s' ∧ Good ws es p s' ∧
    s'.engine.state ∈ AegisState.quarantine ∧ s'.engine.journal = s.engine.journal ∧
    s'.disk.root = s.disk.root

/-- **One operation**, unless it is an `enter_maintenance` that completes. -/
theorem Quarantined.step {s : Sys W} {device : Except Raised (Sys W)} {o : LifeOp}
    (hout : ¬ o.EntersMaintenance device) (h : Quarantined md s device) :
    Quarantined md s (LifeOp.step device o) := by
  obtain ⟨s', ws, es, p, rfl, hgood, hstate, hjournal, hroot⟩ := h
  cases o with
  | call c =>
    obtain ⟨⟨ws', es', p', hgood'⟩, -⟩ := c.good hgood
    -- a call touches the journal first, which quarantine forbids, and ends in a transition or not
    obtain ⟨m, hparts, hends⟩ := c.parts s'
    obtain ⟨hj, hr⟩ := hparts.frozen hstate
    have hm : m.engine.state ∈ AegisState.quarantine := by
      rw [hparts.same_state.1]
      exact hstate
    refine ⟨(c.run s').2, ws', es', p', rfl, hgood', ?_⟩
    generalize (c.run s').2 = s'' at hends ⊢
    cases hends with
    | here => exact ⟨hm, hj.trans hjournal, hr.trans hroot⟩
    | transition reason ha hallowed hfault hmaintenance =>
      rename_i e target
      have hallowed' := ha.allowed hallowed
      have htarget : target ≠ .maintenance := by
        intro heq
        obtain ⟨token, verifier, presence, now, rfl, hok⟩ := hmaintenance heq
        exact hout ⟨s', token, verifier, presence, now, rfl, rfl, hok⟩
      rw [Sys.transition_eq hallowed']
      exact ⟨AegisState.quarantine_allowed hm hallowed htarget,
        (ha.journal.trans hj).trans hjournal, hr.trans hroot⟩
  | restart =>
    obtain ⟨s'', hopen, hreopened⟩ := hgood.rested.reopen hgood.saveOf.stateFile s'.ticks
    obtain ⟨es', p', hgood'⟩ := hreopened.good
    have hsame : s''.engine.journal = s'.engine.journal :=
      hreopened.journal.trans hgood.journal_eq.symm
    refine ⟨s'', ws, es', p', hopen, hgood', ?_, hsame.trans hjournal, hreopened.root.trans hroot⟩
    -- a start restores the state that was saved, or ends in FAULT
    rcases hreopened.state p hgood.file with ⟨h1, -⟩ | ⟨h1, -⟩
    · rw [h1, hgood.state]
      exact hstate
    · rw [h1]
      decide

/-! ## 3. The guarantee -/

/-- What a contained device guarantees: its state, its refusals, its journal, and who may lead it
into MAINTENANCE. -/
structure Held (s s' : Sys W) : Prop where
  state : s'.engine.state ∈ AegisState.quarantine
  write : ∀ lba payload, ∃ message,
    s'.write lba payload = (.error (.permissionError message), s')
  compact : ∀ label, ∃ message, s'.compactJournal label = (.error (.runtimeError message), s')
  records : s'.engine.journal = s.engine.journal ∧ s'.disk.root.log = s.disk.root.log
  base : s'.disk.root.base = s.disk.root.base
  image : ∀ lba blocks, s'.engine.journal.read W.R s'.disk.root.toDir lba blocks none =
    s.engine.journal.read W.R s.disk.root.toDir lba blocks none
  maintenance : ∀ token verifier presence now,
    (s'.enterMaintenance token verifier presence now).1 = .ok () →
    presence = true ∧ ∃ a, verifier.authenticate W.R token = some a ∧
      a.action = "enter_maintenance" ∧ a.deviceId = s'.engine.journal.deviceId ∧
      a.stateVersion = s'.engine.stateVersion ∧ s'.currentTime now ≤ a.expiresUnix ∧
      a.expiresUnix - a.issuedUnix ≤ 900 ∧ s'.engine.usedNonces.get a.nonce = none

theorem Sys.compactJournal_refused {s : Sys W} (h : s.engine.state ∉ AegisState.compaction)
    (label : String) : ∃ message, s.compactJournal label = (.error (.runtimeError message), s) := by
  unfold compactJournal
  rw [if_pos h]
  exact ⟨_, rfl⟩

theorem Quarantined.held {s : Sys W} {device : Except Raised (Sys W)}
    (h : Quarantined md s device) : ∃ s', device = .ok s' ∧ Held s s' := by
  obtain ⟨s', ws, es, p, rfl, hgood, hstate, hjournal, hroot⟩ := h
  obtain ⟨hwritable, hcompaction⟩ := AegisState.quarantine_gated hstate
  refine ⟨s', rfl, hstate, ?_, s'.compactJournal_refused hcompaction, ⟨hjournal, by rw [hroot]⟩,
    by rw [hroot], ?_, ?_⟩
  · intro lba payload
    exact ⟨_, s'.write_denied hwritable lba payload⟩
  · intro lba blocks
    rw [hjournal, hroot]
  · intro token verifier presence now hok
    obtain ⟨-, hpresence, a, ha, hnonce⟩ := s'.enterMaintenance_ok hok
    obtain ⟨h1, h2, h3, h4, -, h6, h7⟩ := TokenVerifier.verify_ok ha
    exact ⟨hpresence, a, h1, h3, h2, h4, h6, h7, Option.isSome_eq_false_iff.mp hnonce |>
      Option.isNone_iff_eq_none.mp⟩

/-- **Containment is sticky and freezes the evidence.**  After any run of calls and clean restarts
from a contained engine in which no `enter_maintenance` completes, the engine is there and is held;
and so it is before every operation of the run. -/
theorem containment_is_sticky {s : Sys W} (h : Reachable W (.on s)) (hs : s.engine.state = .contained)
    {ops pre : List LifeOp}
    (hops : Along LifeOp.step (fun device o => ¬ o.EntersMaintenance device) (.ok s) ops)
    (hpre : pre <+: ops) : ∃ s', pre.foldl LifeOp.step (.ok s) = .ok s' ∧ Held s s' := by
  obtain ⟨md, ws, es, p, hgood⟩ := h.good
  have hstart : Quarantined md s (.ok s) :=
    ⟨s, ws, es, p, rfl, hgood, by rw [hs]; decide, rfl, rfl⟩
  exact (run_along_initial (I := Quarantined md s)
    (fun device o hout hq => hq.step hout) hstart hops hpre).held

theorem containment_is_sticky_three_ops : ∃ s s' : Sys World.quiet,
    Reachable World.quiet (.on s) ∧ s.engine.state = .contained ∧
      [LifeOp.call .flush, .restart, .call (.write 0 [])].foldl LifeOp.step (.ok s) = .ok s' ∧
      Held s s' := by
  obtain ⟨dir, hdir⟩ := provision_four_blocks
  obtain ⟨hreachable, hstate⟩ := reachable_quietContained hdir
  have hops : Along LifeOp.step (fun device o => ¬ o.EntersMaintenance device)
      (.ok (quietContained dir)) [LifeOp.call .flush, .restart, .call (.write 0 [])] := by
    refine ⟨?_, ?_, ?_, trivial⟩ <;>
      · rintro ⟨s, token, verifier, presence, now, -, heq, -⟩
        cases heq
  obtain ⟨s', hrun, hheld⟩ := containment_is_sticky hreachable hstate hops (List.prefix_refl _)
  exact ⟨_, s', hreachable, hstate, hrun, hheld⟩

end AegisShield
