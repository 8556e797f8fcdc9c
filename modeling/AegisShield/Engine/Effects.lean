/-
# The durable steps of a call

`Emits P s s'` says that the files of `s'` are those of `s` after a list of durable steps, the
ones by which the trace has grown, and that each of them was taken on files with `P`.  A crash
during a call leaves files on which some step was about to be taken, or the files at its end, so
what holds at every crash point is an `Emits`.

The state file is followed first.  Up to the last step of a call it holds the state and the
version from before the call (`EngineCall.emits_state`): a transition replaces it in its very last
step.
-/
import AegisShield.Engine.Parts
import AegisShield.Lib.Run

namespace AegisShield

open Lib Relation

variable {W : World}

/-! ## 1. Lists of steps -/

/-- The files after a step. -/
def Disk.step (d : Disk) (e : Effect) : Disk := e.apply d

/-- `s'` is `s` after durable steps that were each taken on files with `P`. -/
def Emits (P : Disk → Effect → Prop) (s s' : Sys W) : Prop :=
  ∃ es, s'.trace = s.trace ++ es ∧ s'.disk = es.foldl Disk.step s.disk ∧
    Along Disk.step P s.disk es

section Emits

variable {P Q : Disk → Effect → Prop} {s s' s'' : Sys W}

/-- Changes in memory take no step. -/
theorem Emits.of_eq (ht : s'.trace = s.trace) (hd : s'.disk = s.disk) : Emits P s s' :=
  ⟨[], by rw [ht, List.append_nil], hd, trivial⟩

theorem Emits.trans (h : Emits P s s') (h' : Emits P s' s'') : Emits P s s'' := by
  obtain ⟨es, ht, hd, ha⟩ := h
  obtain ⟨fs, ht', hd', ha'⟩ := h'
  refine ⟨es ++ fs, by rw [ht', ht, List.append_assoc], ?_, ?_⟩
  · rw [hd', hd, List.foldl_append]
  · rw [hd] at ha'
    exact ha.append ha'

theorem Emits.emit {e : Effect} (h : P s.disk e) : Emits P s (s.emit e) :=
  ⟨[e], rfl, rfl, h, trivial⟩

theorem Emits.and (h : Emits P s s') (h' : Emits Q s s') :
    Emits (fun d e => P d e ∧ Q d e) s s' := by
  obtain ⟨es, ht, hd, ha⟩ := h
  obtain ⟨fs, ht', -, ha'⟩ := h'
  obtain rfl : es = fs := List.append_cancel_left (ht.symm.trans ht')
  exact ⟨es, ht, hd, ha.and ha'⟩

theorem foldl_audit (steps : List AuditEffect) : ∀ d : Disk,
    (steps.map Effect.audit).foldl Disk.step d =
      { d with audit := applyAudit steps d.audit } := by
  induction steps with
  | nil => intro d; rfl
  | cons step steps ih =>
    intro d
    rw [List.map_cons, List.foldl_cons, ih]
    rfl

theorem along_audit {steps : List AuditEffect} : ∀ {d : Disk},
    Along (fun f s => AuditEffect.apply s f) (fun f s => P { d with audit := f } (.audit s)) d.audit
      steps → Along Disk.step P d (steps.map Effect.audit) := by
  induction steps with
  | nil => intro d _; trivial
  | cons step steps ih =>
    intro d h
    exact ⟨h.1, ih (d := Disk.step d (.audit step)) h.2⟩

/-- The steps of an audit entry. -/
theorem Emits.audit {event : String} {details : Dict W.R.Value}
    (h : Along (fun f s => AuditEffect.apply s f) (fun f t => P { s.disk with audit := f } (.audit t))
      s.disk.audit (s.engine.audit.append W.R s.disk.audit
        (fun i => W.clock.timeNs (s.ticks + i)) event details).1) :
    Emits P s (s.audit event details) :=
  ⟨_, rfl, (foldl_audit _ _).symm, along_audit h⟩

end Emits

/-! ## 2. Saving -/

theorem Dict.Sorted.pruneDict {d : Dict Int} (h : d.Sorted) (current : Int) :
    (pruneDict current d).Sorted := List.Pairwise.filter _ h

namespace Sys

variable {s : Sys W}

theorem saveState_sound (h : s.engine.Sound) : s.saveState.engine.Sound :=
  ⟨h.containment, h.recovery, Dict.Sorted.pruneDict h.nonces _⟩

/-- What a save persists. -/
def toSave (s : Sys W) (h : s.engine.Sound) : Saved W.R := s.saveState.engine.saved (saveState_sound h)

/-- The object with its expired nonces dropped. -/
def pruned (s : Sys W) : Sys W :=
  (s.withEngine fun e =>
    { e with usedNonces := pruneDict (W.clock.time s.ticks) e.usedNonces }).tick

/-- A save records a digest and then replaces the file. -/
theorem saveState_eq (h : s.engine.Sound) :
    s.saveState = (s.pruned.audit "state_persisted" [("digest", .str (s.toSave h).digest)]).emit
      (.state (s.toSave h).bytes) := rfl

/-- **After a save, the file holds what the object holds.** -/
theorem saveState_file (h : s.engine.Sound) :
    s.saveState.disk.state = some (s.toSave h).bytes := rfl

/-- The file is replaced in the last step of a save. -/
theorem saveState_emits {X : Option Bytes → Prop} (h : X s.disk.state) :
    Emits (fun d _ => X d.state) s s.saveState := by
  unfold saveState
  extract_lets s1 payload s2
  have h1 : Emits (fun d _ => X d.state) s s1 := Emits.of_eq rfl rfl
  have h2 : Emits (fun d _ => X d.state) s1 s2 := Emits.audit (Along.of_forall fun _ _ => h)
  exact (h1.trans h2).trans (Emits.emit h)

/-- The object in its new state. -/
def entering (s : Sys W) (target : AegisState) : Sys W :=
  s.withEngine fun e => { e with state := target, stateVersion := e.stateVersion + 1 }

/-- The details of a `state_transition` entry. -/
def transitionDetails (s : Sys W) (target : AegisState) (reason : String) : Dict W.R.Value :=
  [("from", .str s.engine.state.value), ("reason", .str reason), ("to", .str target.value),
    ("version", .int (s.entering target).engine.stateVersion)]

theorem transitionDetails_wf (s : Sys W) (target : AegisState) (reason : String) :
    (Json.obj (s.transitionDetails target reason)).Wf :=
  ⟨Dict.sorted_of_keys (rfl : _ = ["from", "reason", "to", "version"]) (by decide),
    trivial, trivial, trivial, trivial, trivial⟩

/-- A transition sets the state, records it and saves. -/
theorem transition_eq {target : AegisState} (h : target ∈ s.engine.state.allowed)
    (reason : String) : (s.transition target reason).2 =
      ((s.entering target).audit "state_transition"
        (s.transitionDetails target reason)).saveState := by
  unfold transition
  rw [if_neg (not_not.mpr h)]
  rfl

theorem transition_emits {X : Option Bytes → Prop} {target : AegisState}
    (hallowed : target ∈ s.engine.state.allowed) (reason : String) (h : X s.disk.state) :
    Emits (fun d _ => X d.state) s (s.transition target reason).2 := by
  rw [transition_eq hallowed]
  have h1 : Emits (fun d _ => X d.state) s (s.entering target) := Emits.of_eq rfl rfl
  have h2 : Emits (fun d _ => X d.state) (s.entering target)
      ((s.entering target).audit "state_transition" (s.transitionDetails target reason)) :=
    Emits.audit (Along.of_forall fun _ _ => h)
  exact (h1.trans h2).trans (saveState_emits h)

/-- The details of a `fault_entered` entry. -/
def faultDetails (s : Sys W) (reason : String) : Dict W.R.Value :=
  [("from", .str s.engine.state.value), ("reason", .str reason),
    ("version", .int (s.entering .fault).engine.stateVersion)]

theorem faultDetails_wf (s : Sys W) (reason : String) : (Json.obj (s.faultDetails reason)).Wf :=
  ⟨Dict.sorted_of_keys (rfl : _ = ["from", "reason", "version"]) (by decide),
    trivial, trivial, trivial, trivial⟩

theorem enterFault_eq (s : Sys W) (reason : String) :
    s.enterFault reason =
      ((s.entering .fault).audit "fault_entered" (s.faultDetails reason)).saveState := rfl

theorem enterFault_emits {X : Option Bytes → Prop} (reason : String) (h : X s.disk.state) :
    Emits (fun d _ => X d.state) s (s.enterFault reason) := by
  rw [enterFault_eq]
  have h1 : Emits (fun d _ => X d.state) s (s.entering .fault) := Emits.of_eq rfl rfl
  have h2 : Emits (fun d _ => X d.state) (s.entering .fault)
      ((s.entering .fault).audit "fault_entered" (s.faultDetails reason)) :=
    Emits.audit (Along.of_forall fun _ _ => h)
  exact (h1.trans h2).trans (saveState_emits h)

end Sys

/-! ## 3. The state file along a call -/

section StateFile

variable {s s' m : Sys W} {X : Option Bytes → Prop}

/-- The state file along a part: what held of it still holds, if it holds of every save of the
same state. -/
theorem Part.emits_state (hpart : Part s s') (hs : s.engine.Sound)
    (hX : ∀ p : Saved W.R, p.state = s.engine.state → p.stateVersion = s.engine.stateVersion →
      X (some p.bytes)) (h : X s.disk.state) :
    Emits (fun d _ => X d.state) s s' ∧ s'.engine.Sound ∧ X s'.disk.state := by
  cases hpart with
  | observe analyzer readings => exact ⟨Emits.of_eq rfl rfl, ⟨hs.1, hs.2, hs.3⟩, h⟩
  | audit hevent hwf =>
    exact ⟨Emits.audit (Along.of_forall fun _ _ => h), ⟨hs.1, hs.2, hs.3⟩, h⟩
  | journal hstate hprepare =>
    exact ⟨(Emits.emit h).trans (Emits.of_eq rfl rfl), ⟨hs.1, hs.2, hs.3⟩, h⟩
  | compact name hstate =>
    unfold Sys.compactFiles
    split
    · exact ⟨Emits.of_eq rfl rfl, hs, h⟩
    · extract_lets s1
      have h1 : Emits (fun d _ => X d.state) s s1 := Emits.emit h
      split
      · exact ⟨h1, hs, h⟩
      · rename_i image himage
        have h2 : Emits (fun d _ => X d.state) s1 ((s1.emit (.base image)).emit .emptyLog) :=
          Emits.trans (Emits.emit h) (Emits.emit h)
        exact ⟨(h1.trans h2).trans (Emits.of_eq rfl rfl), ⟨hs.1, hs.2, hs.3⟩, h⟩
  | save ha =>
    rename_i e
    have hs1 : Engine.Sound ({ s with engine := e } : Sys W).engine := ha.sound hs
    refine ⟨(Emits.of_eq rfl rfl).trans (Sys.saveState_emits h), Sys.saveState_sound hs1, ?_⟩
    rw [Sys.saveState_file hs1]
    exact hX _ ha.state ha.stateVersion

theorem Parts.emits_state (hparts : Parts s m) (hs : s.engine.Sound)
    (hX : ∀ p : Saved W.R, p.state = s.engine.state → p.stateVersion = s.engine.stateVersion →
      X (some p.bytes)) (h : X s.disk.state) :
    Emits (fun d _ => X d.state) s m ∧ m.engine.Sound ∧ X m.disk.state := by
  induction hparts with
  | refl => exact ⟨Emits.of_eq rfl rfl, hs, h⟩
  | tail hparts hpart ih =>
    obtain ⟨h1, h2, h3⟩ := ih
    have hsame := Parts.same_state hparts
    have hstep := hpart.emits_state h2 (fun p hp hv => hX p (hp.trans hsame.1) (hv.trans hsame.2)) h3
    exact ⟨h1.trans hstep.1, hstep.2⟩

/-- How a call leaves the state: as it was, or after one allowed transition that has been saved. -/
inductive Settled (X : Option Bytes → Prop) (s s' : Sys W) : Prop
  | same (hstate : s'.engine.state = s.engine.state)
      (hversion : s'.engine.stateVersion = s.engine.stateVersion) (hfile : X s'.disk.state)
  | moved (hstate : s'.engine.state ∈ s.engine.state.allowed)
      (hversion : s'.engine.stateVersion = s.engine.stateVersion + 1)
      (hs : s'.engine.Sound) (hfile : s'.disk.state = some (s'.engine.saved hs).bytes)

/-- **The state file during a call.**  Before each of its steps the file is as it was, or a save
of the same state; the transition shows at the end only. -/
theorem EngineCall.emits_state (c : EngineCall) (hs : s.engine.Sound)
    (hX : ∀ p : Saved W.R, p.state = s.engine.state → p.stateVersion = s.engine.stateVersion →
      X (some p.bytes)) (h : X s.disk.state) :
    Emits (fun d _ => X d.state) s (c.run s).2 ∧ (c.run s).2.engine.Sound ∧
      Settled X s (c.run s).2 := by
  obtain ⟨m, hparts, hends⟩ := c.parts s
  obtain ⟨h1, h2, h3⟩ := hparts.emits_state hs hX h
  have hsame := hparts.same_state
  generalize (c.run s).2 = s' at hends ⊢
  cases hends with
  | here => exact ⟨h1, h2, .same hsame.1 hsame.2 h3⟩
  | transition reason ha hallowed hfault hmaintenance =>
    rename_i e target
    have hallowed' := ha.allowed hallowed
    have hmove : Emits (fun d _ => X d.state) m
        (Sys.transition { m with engine := e } target reason).2 :=
      (Emits.of_eq rfl rfl).trans (Sys.transition_emits hallowed' reason h3)
    rw [Sys.transition_eq hallowed'] at hmove ⊢
    have hs1 : Engine.Sound ((Sys.entering { m with engine := e } target).audit "state_transition"
        (Sys.transitionDetails { m with engine := e } target reason)).engine :=
      ⟨(ha.sound h2).1, (ha.sound h2).2, (ha.sound h2).3⟩
    refine ⟨h1.trans hmove, Sys.saveState_sound hs1,
      .moved ?_ ?_ (Sys.saveState_sound hs1) (Sys.saveState_file hs1)⟩
    · rw [← hsame.1]
      exact hallowed
    · rw [← hsame.2, ← ha.stateVersion]
      rfl

end StateFile

end AegisShield
