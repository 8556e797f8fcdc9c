/-
# What the network can do

The clients of the block device and the callers of the API can only tighten the engine: from NORMAL
to ELEVATED to CONTAINED.  What does not accept writes they leave as it is: the state and its
version, the nonces, the journal with its files, and the state file.  So they can neither release
an engine nor keep the console from doing so, as the token that waits there stays good
(`network_only_tightens`).
-/
import AegisShield.Daemon.Basic
import AegisShield.Engine.Containment

namespace AegisShield.Daemon

open Lib

variable {W : World}

/-! ## 1. Tightening -/

/-- The states that a remote caller can lead to. -/
def tightened : AegisState → List AegisState
  | .normal => [.normal, .elevated, .contained]
  | .elevated => [.elevated, .contained]
  | a => [a]

theorem tightened_refl (a : AegisState) : a ∈ tightened a := by cases a <;> decide

theorem mem_tightened {a b : AegisState} : b ∈ tightened a ↔
    b = a ∨ (a = .normal ∧ b = .elevated) ∨ (a ∈ AegisState.writable ∧ b = .contained) := by
  cases a <;> cases b <;> decide

theorem tightened_trans {a b c : AegisState} (h : b ∈ tightened a) (h' : c ∈ tightened b) :
    c ∈ tightened a := by
  rcases mem_tightened.mp h with rfl | ⟨rfl, rfl⟩ | ⟨ha, rfl⟩
  · exact h'
  · revert h'
    cases c <;> decide
  · obtain rfl := List.mem_singleton.mp h'
    exact h

theorem tightened_antisymm {a b : AegisState} (h : b ∈ tightened a) (h' : a ∈ tightened b) :
    b = a := by
  revert h h'
  cases a <;> cases b <;> decide

/-- An engine that is left as it is, but for its analyzer and its audit log. -/
structure Frozen (s s' : Sys W) : Prop where
  journal : s'.engine.journal = s.engine.journal
  state : s'.engine.state = s.engine.state
  version : s'.engine.stateVersion = s.engine.stateVersion
  containment : s'.engine.containmentSequence = s.engine.containmentSequence
  recovery : s'.engine.recoverySequence = s.engine.recoverySequence
  nonces : s'.engine.usedNonces = s.engine.usedNonces
  file : s'.disk.state = s.disk.state
  files : s'.disk.root.toDir = s.disk.root.toDir

/-- What the network can do to an engine. -/
structure Tightened (s s' : Sys W) : Prop where
  state : s'.engine.state ∈ tightened s.engine.state
  version : s.engine.stateVersion ≤ s'.engine.stateVersion
  moved : s'.engine.stateVersion = s.engine.stateVersion ↔ s'.engine.state = s.engine.state
  nonces : s'.engine.usedNonces.Sublist s.engine.usedNonces
  base : s'.disk.root.base = s.disk.root.base
  log : s.disk.root.log <+: s'.disk.root.log
  frozen : s.engine.state ∉ AegisState.writable → Frozen s s'

theorem Frozen.refl (s : Sys W) : Frozen s s := ⟨rfl, rfl, rfl, rfl, rfl, rfl, rfl, rfl⟩

theorem Frozen.trans {s s' s'' : Sys W} (h : Frozen s s') (h' : Frozen s' s'') : Frozen s s'' :=
  ⟨h'.journal.trans h.journal, h'.state.trans h.state, h'.version.trans h.version,
    h'.containment.trans h.containment, h'.recovery.trans h.recovery, h'.nonces.trans h.nonces,
    h'.file.trans h.file, h'.files.trans h.files⟩

theorem Frozen.tightened {s s' : Sys W} (h : Frozen s s') : Tightened s s' := by
  refine ⟨?_, le_of_eq h.version.symm, iff_of_true h.version h.state, ?_, ?_, ?_, fun _ => h⟩
  · rw [h.state]
    exact tightened_refl _
  · rw [h.nonces]
  · rw [h.files]
  · rw [h.files]

theorem Tightened.trans {s s' s'' : Sys W} (h : Tightened s s') (h' : Tightened s' s'') :
    Tightened s s'' := by
  refine ⟨tightened_trans h.state h'.state, h.version.trans h'.version, ?_,
    h'.nonces.trans h.nonces, h'.base.trans h.base, h.log.trans h'.log, ?_⟩
  · constructor
    · intro heq
      have hfirst : s'.engine.stateVersion = s.engine.stateVersion :=
        le_antisymm (by rw [← heq]; exact h'.version) h.version
      exact (h'.moved.mp (heq.trans hfirst.symm)).trans (h.moved.mp hfirst)
    · intro heq
      -- the way there and back is no way
      have hback : s.engine.state ∈ Daemon.tightened s'.engine.state := by
        rw [← heq]
        exact h'.state
      have hfirst := tightened_antisymm h.state hback
      exact (h'.moved.mpr (heq.trans hfirst.symm)).trans (h.moved.mpr hfirst)
  · intro hlocked
    have hfirst := h.frozen hlocked
    refine hfirst.trans (h'.frozen ?_)
    rw [hfirst.state]
    exact hlocked

theorem Beside.frozen {s s' : Sys W} (h : Beside s s') : Frozen s s' := by
  obtain ⟨⟨audit, heq⟩, hstate, hfiles⟩ := h
  refine ⟨?_, ?_, ?_, ?_, ?_, ?_, hstate, hfiles⟩
  all_goals rw [heq]

/-- Whether a transition is allowed. -/
theorem transition_result (m : Sys W) (target : AegisState) (reason : String) :
    (m.transition target reason).1 = if target ∉ m.engine.state.allowed then
      .error (.runtimeError s!"illegal transition {m.engine.state.value} -> {target.value}")
      else .ok () := by
  unfold Sys.transition
  split <;> rfl

/-- A token is checked against what stays. -/
theorem Frozen.authorizeRecovery {s s' : Sys W} (h : Frozen s s') (token : String)
    (verifier : TokenVerifier) (now : Int) :
    (s'.authorizeRecovery token verifier true (some now)).1 =
      (s.authorizeRecovery token verifier true (some now)).1 := by
  unfold Sys.authorizeRecovery Sys.currentTime
  simp only [Option.getD_some, h.state, h.journal, h.version, h.nonces]
  split
  · rfl
  split
  · rfl
  split
  · rfl
  split
  · rfl
  split
  · rfl
  split
  · rfl
  · rw [transition_result, transition_result]
    exact congrArg (fun a : AegisState => if AegisState.recoveryReadOnly ∉ a.allowed then
      Except.error (Raised.runtimeError
        s!"illegal transition {a.value} -> {AegisState.recoveryReadOnly.value}") else .ok ()) h.state

theorem Frozen.enterMaintenance {s s' : Sys W} (h : Frozen s s') (token : String)
    (verifier : TokenVerifier) (now : Int) :
    (s'.enterMaintenance token verifier true (some now)).1 =
      (s.enterMaintenance token verifier true (some now)).1 := by
  unfold Sys.enterMaintenance Sys.currentTime
  simp only [Option.getD_some, h.state, h.journal, h.version, h.nonces]
  split
  · rfl
  split
  · rfl
  split
  · rfl
  split
  · rfl
  · rw [transition_result, transition_result]
    exact congrArg (fun a : AegisState => if AegisState.maintenance ∉ a.allowed then
      Except.error (Raised.runtimeError
        s!"illegal transition {a.value} -> {AegisState.maintenance.value}") else .ok ()) h.state

/-! ## 2. The calls of the block device -/

/-- A transition changes the state and counts it. -/
theorem transition_frame {m : Sys W} {target : AegisState} (h : target ∈ m.engine.state.allowed)
    (reason : String) : (m.transition target reason).2.engine.state = target ∧
      (m.transition target reason).2.engine.stateVersion = m.engine.stateVersion + 1 ∧
      (m.transition target reason).2.engine.usedNonces.Sublist m.engine.usedNonces ∧
      (m.transition target reason).2.disk.root = m.disk.root := by
  rw [Sys.transition_eq h]
  exact ⟨rfl, rfl, List.filter_sublist, rfl⟩

/-- An engine that accepts writes tightens by a transition behind the record. -/
theorem transition_tightened {s m : Sys W} {target : AegisState} {line : Bytes} (reason : String)
    (hallowed : target ∈ m.engine.state.allowed) (htarget : target ∈ tightened s.engine.state)
    (hmoves : target ≠ s.engine.state) (hstate : s.engine.state ∈ AegisState.writable)
    (hversion : m.engine.stateVersion = s.engine.stateVersion)
    (hnonces : m.engine.usedNonces = s.engine.usedNonces)
    (hbase : m.disk.root.base = s.disk.root.base)
    (hlog : m.disk.root.log = s.disk.root.log ++ line) :
    Tightened s (m.transition target reason).2 := by
  obtain ⟨h1, h2, h3, h4⟩ := transition_frame hallowed reason
  rw [hversion] at h2
  refine ⟨by rwa [h1], by omega, iff_of_false (by omega) (by rwa [h1]), by rwa [← hnonces], ?_, ?_,
    fun hlocked => absurd hstate hlocked⟩
  · rw [h4, hbase]
  · rw [h4, hlog]
    exact List.prefix_append _ _

theorem writeRecorded_tightened {s : Sys W} {lba : Int} {payload before line : Bytes}
    {journal : DurableJournal} (hstate : s.engine.state ∈ AegisState.writable) :
    Tightened s (s.writeRecorded lba payload before line journal).2 := by
  unfold Sys.writeRecorded
  extract_lets blocks sequence event s1 s2 decision s3
  have hlog : s3.disk.root.log = s.disk.root.log ++ line := rfl
  have hcontained : AegisState.contained ∈ tightened s.engine.state ∧
      AegisState.contained ≠ s.engine.state := by
    revert hstate
    cases s.engine.state <;> decide
  split
  · exact transition_tightened _ (AegisState.contained_allowed hstate) hcontained.1 hcontained.2
      hstate rfl rfl rfl hlog
  · split
    · rename_i halert
      have hnormal : s.engine.state = .normal := by
        rw [Bool.and_eq_true, decide_eq_true_eq] at halert
        exact halert.2
      have hallowed : AegisState.elevated ∈ s3.engine.state.allowed := by
        change AegisState.elevated ∈ s.engine.state.allowed
        rw [hnormal]
        decide
      refine transition_tightened _ hallowed ?_ ?_ hstate rfl rfl rfl hlog
      · rw [hnormal]
        decide
      · rw [hnormal]
        decide
    · refine ⟨tightened_refl _, le_refl _, iff_of_true rfl rfl, List.Sublist.refl _, rfl, ?_,
        fun hlocked => absurd hstate hlocked⟩
      rw [hlog]
      exact List.prefix_append _ _

theorem write_tightened (s : Sys W) (lba : Int) (payload : Bytes) :
    Tightened s (s.write lba payload).2 := by
  unfold Sys.write
  split
  · exact (Frozen.refl s).tightened
  · rename_i hstate
    split
    · exact (Frozen.refl s).tightened
    · extract_lets blocks
      split
      · exact (Frozen.refl s).tightened
      · split
        · exact (Beside.tick s).frozen.tightened
        · exact writeRecorded_tightened (not_not.mp hstate)

/-- **A call of the block device tightens.** -/
theorem BlockCall.tightened {c : EngineCall} (h : BlockCall c) (s : Sys W) :
    Tightened s (c.run s).2 := by
  cases h with
  | read lba blocks => exact Frozen.tightened ⟨rfl, rfl, rfl, rfl, rfl, rfl, rfl, rfl⟩
  | write lba payload => exact write_tightened s lba payload
  | flush => exact (Beside.audit s _ _).frozen.tightened

/-! ## 3. Runs -/

section Run

variable (texts : Texts) (md : Metadata) (hsize : 0 < md.blockSize)

theorem Op.Remote.tightened {o : Op} (ho : o.Remote) (d : State W) :
    Tightened d.sys (step texts md hsize d o).sys := by
  have htouches := step_touches texts md hsize d o
  generalize (step texts md hsize d o).sys = s' at htouches
  cases htouches with
  | call c hmakes =>
    cases o with
    | console connection publicKey => exact ho.elim
    | frame r payload => exact BlockCall.tightened hmakes d.sys
    | request r => exact hmakes.elim
    | work token => exact hmakes.elim
  | beside hbeside => exact hbeside.frozen.tightened

theorem remote_tightens {ops : List Op} (h : ∀ o ∈ ops, o.Remote) (d : State W) :
    Tightened d.sys (ops.foldl (step texts md hsize) d).sys := by
  refine run_invariant (I := fun d' : State W => Tightened d.sys d'.sys)
    (Frozen.refl d.sys).tightened ops ?_
  intro d' o ho h'
  exact h'.trans ((h o ho).tightened texts md hsize d')

end Run

/-! ## 4. A contained device -/

/-- Something that goes on meanwhile: a flush, and an export. -/
def meanwhile : List Op :=
  [.frame ⟨Nbd.requestMagic, 0, Nbd.cmdFlush, 1, 0, 0⟩ [], .request (.recoveryExport none), .work "a"]

theorem remote_meanwhile : ∀ o ∈ meanwhile, o.Remote := by
  intro o ho
  simp only [meanwhile, List.mem_cons, List.not_mem_nil, or_false] at ho
  rcases ho with rfl | rfl | rfl <;> trivial

def plainTexts : Texts := ⟨id, Raised.name⟩

theorem quietSize : 0 < (⟨"dev", 4, 512⟩ : Metadata).blockSize := by decide

end AegisShield.Daemon
