/-
# The invariant of a running engine

`Good ws es p s`: between two calls the ledgers are in order, the state file holds a save `p` of
the object's state and version, and the active audit file records `p` or, after a rotation,
nothing.  Calls keep it (`EngineCall.good`), and an engine constructed from the files that another
one left behind, at a crash point or at rest, has it again: restored with `p`, or in FAULT
(`Rested.reopen`).
-/
import AegisShield.Engine.Ledgers

namespace AegisShield

open Lib Relation

variable {W : World} {md : Metadata}

/-! ## 1. Saves and transitions -/

/-- A running engine between two calls. -/
structure Good (ws : List (Write md)) (es : List (AuditEntry W.R)) (p : Saved W.R) (s : Sys W) : Prop
    extends Ledgers ws es s where
  nonempty : es ≠ []
  file : s.disk.state = some p.bytes
  record : Records p.digest es
  state : p.state = s.engine.state
  version : p.stateVersion = s.engine.stateVersion
  sound : s.engine.Sound

/-- An engine that has just saved: the record is in the active file. -/
structure JustSaved (ws : List (Write md)) (es : List (AuditEntry W.R)) (p : Saved W.R) (s : Sys W) :
    Prop extends Good ws es p s where
  recorded : digestIn es = .str p.digest

section Steps

variable {ws : List (Write md)} {es : List (AuditEntry W.R)} {p : Saved W.R} {s s' : Sys W}

theorem digestDetails_wf (digest : String) :
    (Json.obj [("digest", .str digest)] : W.R.Value).Wf :=
  ⟨Dict.sorted_of_keys (rfl : _ = ["digest"]) (by decide), trivial, trivial⟩

/-- **A save.** -/
theorem Opened.save (h : Opened ws es s) (hs : s.engine.Sound) :
    (∃ es', JustSaved ws es' (s.toSave hs) s.saveState) ∧ Emits (Orderly W md) s s.saveState := by
  have hsound := Sys.saveState_sound hs
  have h1 : Opened ws es s.pruned := h.congr rfl rfl rfl rfl
  have hwf := digestDetails_wf (W := W) (s.toSave hs).digest
  obtain ⟨h2, e2⟩ := h1.audit "state_persisted" hwf
  have hlast : digestIn (s.pruned.entriesAfter es "state_persisted" _ hwf) =
      .str (s.toSave hs).digest := digestIn_entriesAfter hwf
  constructor
  · exact ⟨_, ⟨⟨h2.congr rfl rfl rfl rfl, entriesAfter_ne_nil, Sys.saveState_file hs, Or.inr hlast,
      rfl, rfl, hsound⟩, hlast⟩⟩
  · have e1 : Emits (Orderly W md) s s.pruned := Emits.of_eq rfl rfl
    rw [Sys.saveState_eq hs]
    exact (e1.trans e2).trans (Emits.emit (h2.orderly fun step hstep => by cases hstep))

/-- **A transition.** -/
theorem Opened.transition (h : Opened ws es s) (hs : s.engine.Sound) {target : AegisState}
    (hallowed : target ∈ s.engine.state.allowed) (reason : String) :
    (∃ es' p, JustSaved ws es' p (s.transition target reason).2) ∧
      Emits (Orderly W md) s (s.transition target reason).2 := by
  have h1 : Opened ws es (s.entering target) := h.congr rfl rfl rfl rfl
  obtain ⟨h2, e2⟩ := h1.audit "state_transition"
    (s.transitionDetails_wf target reason)
  obtain ⟨⟨es', h3⟩, e3⟩ := h2.toOpened.save ⟨hs.1, hs.2, hs.3⟩
  have e1 : Emits (Orderly W md) s (s.entering target) := Emits.of_eq rfl rfl
  rw [Sys.transition_eq hallowed]
  exact ⟨⟨es', _, h3⟩, (e1.trans e2).trans e3⟩

/-- **The fall into FAULT.** -/
theorem Opened.enterFault (h : Opened ws es s) (hs : s.engine.Sound) (reason : String) :
    (∃ es' p, JustSaved ws es' p (s.enterFault reason)) ∧
      Emits (Orderly W md) s (s.enterFault reason) := by
  have h1 : Opened ws es (s.entering .fault) := h.congr rfl rfl rfl rfl
  obtain ⟨h2, e2⟩ := h1.audit "fault_entered" (s.faultDetails_wf reason)
  obtain ⟨⟨es', h3⟩, e3⟩ := h2.toOpened.save ⟨hs.1, hs.2, hs.3⟩
  have e1 : Emits (Orderly W md) s (s.entering .fault) := Emits.of_eq rfl rfl
  rw [Sys.enterFault_eq]
  exact ⟨⟨es', _, h3⟩, (e1.trans e2).trans e3⟩

/-! ## 2. Calls -/

/-- **A part of a call keeps the invariant.** -/
theorem Part.good (hpart : Part s s') (h : Good ws es p s) :
    (∃ (ws' : List (Write md)) (es' : _) (p' : _), Good ws' es' p' s') ∧
      Emits (Orderly W md) s s' := by
  cases hpart with
  | observe analyzer readings =>
    exact ⟨⟨ws, es, p, ⟨h.toLedgers.congr rfl rfl rfl rfl, h.nonempty, h.file, h.record, h.state,
      h.version, ⟨h.sound.1, h.sound.2, h.sound.3⟩⟩⟩, Emits.of_eq rfl rfl⟩
  | audit hevent hwf =>
    obtain ⟨h1, e1⟩ := h.toOpened.audit _ hwf
    exact ⟨⟨ws, _, p, ⟨h1, entriesAfter_ne_nil, h.file, h.record.entriesAfter hevent, h.state,
      h.version, ⟨h.sound.1, h.sound.2, h.sound.3⟩⟩⟩, e1⟩
  | journal hstate hprepare =>
    obtain ⟨w, h1, e1⟩ := h.toLedgers.record hprepare
    exact ⟨⟨ws ++ [w], es, p, ⟨h1, h.nonempty, h.file, h.record, h.state, h.version,
      ⟨h.sound.1, h.sound.2, h.sound.3⟩⟩⟩, e1⟩
  | compact name hstate =>
    obtain ⟨ws', h1, e1⟩ := h.toLedgers.compactFiles name
    obtain ⟨⟨journal, heq⟩, hfile, -⟩ := s.compactFiles_frame name
    refine ⟨⟨ws', es, p, ⟨h1, h.nonempty, hfile.trans h.file, h.record, ?_, ?_, ?_⟩⟩, e1⟩
    · rw [heq]
      exact h.state
    · rw [heq]
      exact h.version
    · rw [heq]
      exact ⟨h.sound.1, h.sound.2, h.sound.3⟩
  | save ha =>
    rename_i e
    have h1 : Opened ws es ({ s with engine := e } : Sys W) :=
      h.toOpened.congr ha.journal ha.audit rfl rfl
    obtain ⟨⟨es', h2⟩, e2⟩ := h1.save (ha.sound h.sound)
    exact ⟨⟨ws, es', _, h2.toGood⟩, (Emits.of_eq rfl rfl).trans e2⟩

theorem Parts.good {m : Sys W} (hparts : Parts s m) (h : Good ws es p s) :
    (∃ (ws' : List (Write md)) (es' : _) (p' : _), Good ws' es' p' m) ∧
      Emits (Orderly W md) s m := by
  induction hparts with
  | refl => exact ⟨⟨ws, es, p, h⟩, Emits.of_eq rfl rfl⟩
  | tail hparts hpart ih =>
    obtain ⟨⟨ws', es', p', h1⟩, e1⟩ := ih
    obtain ⟨h2, e2⟩ := hpart.good h1
    exact ⟨h2, e1.trans e2⟩

/-- **A call keeps the invariant**, and takes its steps on files in order. -/
theorem EngineCall.good (c : EngineCall) (h : Good ws es p s) :
    (∃ (ws' : List (Write md)) (es' : _) (p' : _), Good ws' es' p' (c.run s).2) ∧
      Emits (Orderly W md) s (c.run s).2 := by
  obtain ⟨m, hparts, hends⟩ := c.parts s
  obtain ⟨⟨ws', es', p', h1⟩, e1⟩ := hparts.good h
  generalize (c.run s).2 = s' at hends ⊢
  cases hends with
  | here => exact ⟨⟨ws', es', p', h1⟩, e1⟩
  | transition reason ha hallowed hfault hmaintenance =>
    rename_i e target
    have h2 : Opened ws' es' ({ m with engine := e } : Sys W) :=
      h1.toOpened.congr ha.journal ha.audit rfl rfl
    have hallowed' := ha.allowed hallowed
    obtain ⟨⟨es'', p'', h3⟩, e3⟩ := h2.transition (ha.sound h1.sound) hallowed' reason
    have e2 : Emits (Orderly W md) m ({ m with engine := e } : Sys W) := Emits.of_eq rfl rfl
    exact ⟨⟨ws', es'', p'', h3.toGood⟩, e1.trans (e2.trans e3)⟩

end Steps

/-! ## 3. Construction -/

section Reopen

variable {ws : List (Write md)} {es : List (AuditEntry W.R)} {p : Saved W.R} {s : Sys W} {d : Disk}

/-- The object before the audit file was touched. -/
def Sys.powered (W : World) (ticks : Nat) (journal : DurableJournal) (lastHash : String) (d : Disk) :
    Sys W :=
  ⟨Engine.initial W journal lastHash, d, ticks, []⟩

theorem Engine.initial_sound (journal : DurableJournal) (lastHash : String) :
    (Engine.initial W journal lastHash).Sound := ⟨trivial, trivial, List.Pairwise.nil⟩

variable (W) in
/-- The two ledgers as an engine left them behind, at rest or at a crash point. -/
structure Rested (ws : List (Write md)) (es : List (AuditEntry W.R)) (d : Disk) : Prop where
  journal : Canonical W.R ws ⟨md, cursorOf W.R ws, none⟩ d.root.toDir
  reads : Reads W.R es d.audit

theorem Canonical.rested {j : DurableJournal} (hj : Canonical W.R ws j d.root.toDir)
    (hr : Reads W.R es d.audit) : Rested W ws es d :=
  ⟨⟨rfl, rfl, hj.file, hj.size, hj.log⟩, hr⟩

/-- The ledgers do not depend on the state file. -/
theorem Rested.withState (h : Rested W ws es d) (file : Option Bytes) :
    Rested W ws es { d with state := file } := ⟨h.journal, h.reads⟩

/-- A new engine on such files. -/
abbrev Sys.bootingOn (W : World) {md : Metadata} (ws : List (Write md)) (es : List (AuditEntry W.R))
    (ticks : Nat) (d : Disk) : Sys W :=
  (Sys.powered W ticks ⟨md, cursorOf W.R ws, none⟩ (hashOf W.R es) d).emit (.audit .create)

/-- The self-test can end in NORMAL. -/
theorem Sys.bootingOn_allowed (W : World) (ws : List (Write md)) (es : List (AuditEntry W.R))
    (ticks : Nat) (d : Disk) :
    AegisState.normal ∈ (Sys.bootingOn W ws es ticks d).engine.state.allowed := by
  have h : AegisState.normal ∈ AegisState.bootSelftest.allowed := by decide
  exact h

theorem Rested.opened (h : Rested W ws es d) (ticks : Nat) :
    Opened ws es (Sys.bootingOn W ws es ticks d) where
  journal := h.journal
  tail := rfl
  limit := rfl
  hash := rfl
  active := ⟨_, rfl⟩
  reads := ⟨h.reads.verify, h.reads.recorded, h.reads.ready⟩

theorem Rested.bringUp_eq (h : Rested W ws es d) (ticks : Nat) :
    AegisEngine.bringUp W ticks ⟨md, cursorOf W.R ws, none⟩ d =
      .ok (Sys.bootingOn W ws es ticks d) := by
  unfold AegisEngine.bringUp
  exact bind_of_ok h.reads.verify

/-- **The constructor gets as far as loading the state.** -/
theorem Rested.reopen_eq (h : Rested W ws es d) (ticks : Nat) :
    AegisShield.reopen W ticks d = Sys.start (Sys.bootingOn W ws es ticks d) := by
  unfold AegisShield.reopen
  rw [bind_of_ok h.journal.init]
  unfold AegisEngine.init
  exact bind_of_ok (h.bringUp_eq ticks)

/-- A file that is not trusted leads to FAULT. -/
theorem Rested.reopen_refused (h : Rested W ws es d) {x : Option (Dict W.R.Value)} {err : String}
    (hload : loadState W.R d.state (d.audit.active.getD []) = .ok (x, some err)) (ticks : Nat) :
    ∃ reason, reopen W ticks d = .ok ((Sys.bootingOn W ws es ticks d).enterFault reason) := by
  rw [h.reopen_eq]
  unfold Sys.start
  exact ⟨_, bind_of_ok hload⟩

/-- A file that is trusted is taken over. -/
theorem Rested.reopen_accepted (h : Rested W ws es d)
    (hload : loadState W.R d.state (d.audit.active.getD []) = .ok (some p.payload, none))
    (ticks : Nat) :
    reopen W ticks d = .ok ((((Sys.bootingOn W ws es ticks d).withEngine fun e =>
      e.load p (W.clock.time ticks)).tick).audit "engine_restored" (restoredDetails p)) := by
  rw [h.reopen_eq]
  unfold Sys.start
  exact (bind_of_ok hload).trans (Sys.restore_payload _ p)

/-- Nothing to load leads to NORMAL. -/
theorem Rested.reopen_first (h : Rested W ws es d)
    (hload : loadState W.R d.state (d.audit.active.getD []) = .ok (none, none)) (ticks : Nat) :
    reopen W ticks d =
      .ok ((Sys.bootingOn W ws es ticks d).transition .normal "self-test complete").2 := by
  rw [h.reopen_eq]
  unfold Sys.start
  exact bind_of_ok hload

theorem restoredDetails_wf (p : Saved W.R) : (Json.obj (restoredDetails p)).Wf :=
  ⟨Dict.sorted_of_keys (rfl : _ = ["containment_sequence", "state", "state_version"]) (by decide),
    p.containment_wf, trivial, trivial, trivial⟩

/-- Whatever the loader accepts, the audit file records it or is empty. -/
theorem Rested.records_of_accepted (h : Rested W ws es d) {kvs : Dict W.R.Value}
    (hload : loadState W.R (some p.bytes) (d.audit.active.getD []) = .ok (some kvs, none)) :
    Records p.digest es := by
  rw [loadState_readable p.readState_bytes h.reads.recorded] at hload
  split at hload
  · split at hload
    · rename_i hnull hempty
      left
      have hsize : d.audit.size = 0 := by rw [AuditFiles.size, hempty]; rfl
      have hchain : chainOf W.R es = [] := by
        rcases h.reads.ready with hr | hr
        · rw [← hr, hempty]
        · rw [hsize] at hr
          exact absurd hr (by decide)
      have hes : es = [] := by
        by_contra hne
        exact chainOf_ne_nil hne hchain
      rw [hes]
      intro e he
      cases he
    · cases hload
  · split at hload
    · cases hload
    · rename_i hnull hsame
      right
      rw [ne_eq, not_not] at hsame
      cases hd : digestIn es with
      | str digest =>
        rw [hd] at hsame
        rw [Option.some.inj hsame]
        rfl
      | _ =>
        rw [hd] at hsame
        cases hsame

/-- A restored engine. -/
abbrev Sys.restoredOn (W : World) {md : Metadata} (ws : List (Write md)) (es : List (AuditEntry W.R))
    (p : Saved W.R) (ticks : Nat) (d : Disk) : Sys W :=
  (((Sys.bootingOn W ws es ticks d).withEngine fun e => e.load p (W.clock.time ticks)).tick).audit
    "engine_restored" (restoredDetails p)

theorem Sys.restoredOn_emits (ticks : Nat) :
    Emits (fun d' _ => d'.state = d.state) (Sys.bootingOn W ws es ticks d)
      (Sys.restoredOn W ws es p ticks d) := by
  have h1 : Emits (fun d' _ => d'.state = d.state) (Sys.bootingOn W ws es ticks d)
      (((Sys.bootingOn W ws es ticks d).withEngine fun e => e.load p (W.clock.time ticks)).tick) :=
    Emits.of_eq rfl rfl
  have h2 : Emits (fun d' _ => d'.state = d.state)
      (((Sys.bootingOn W ws es ticks d).withEngine fun e => e.load p (W.clock.time ticks)).tick)
      (Sys.restoredOn W ws es p ticks d) :=
    Emits.audit (Along.of_forall fun _ _ => rfl)
  exact h1.trans h2

/-- **A restored engine has the invariant.** -/
theorem Rested.good_restored (h : Rested W ws es d) (hfile : d.state = some p.bytes)
    (hrecord : Records p.digest es) (ticks : Nat) :
    (∃ es', Good ws es' p (Sys.restoredOn W ws es p ticks d)) ∧
      Emits (Orderly W md) (Sys.bootingOn W ws es ticks d) (Sys.restoredOn W ws es p ticks d) := by
  have h1 : Opened ws es (((Sys.bootingOn W ws es ticks d).withEngine fun e =>
      e.load p (W.clock.time ticks)).tick) := (h.opened ticks).congr rfl rfl rfl rfl
  obtain ⟨h2, e2⟩ := h1.audit "engine_restored" (restoredDetails_wf p)
  have hevent : "engine_restored" ≠ "state_persisted" := by decide
  refine ⟨⟨_, ⟨h2, entriesAfter_ne_nil, hfile, hrecord.entriesAfter hevent, rfl, rfl,
    ⟨p.containment_wf, p.recovery_wf, Dict.Sorted.pruneDict p.nonces_sorted _⟩⟩⟩, ?_⟩
  exact (Emits.of_eq rfl rfl).trans e2

/-- The state file is one that was saved, or there is none. -/
def StateFile (W : World) (file : Option Bytes) : Prop :=
  file = none ∨ ∃ p : Saved W.R, file = some p.bytes

/-- How an engine comes up on the files another one left behind. -/
structure Reopened (ws : List (Write md)) (es : List (AuditEntry W.R)) (ticks : Nat) (d : Disk)
    (s : Sys W) : Prop where
  good : ∃ es' p', Good ws es' p' s
  journal : s.engine.journal = ⟨md, cursorOf W.R ws, none⟩
  root : s.disk.root = d.root
  /-- The saved state, or FAULT. -/
  state : ∀ p : Saved W.R, d.state = some p.bytes →
    s.engine.state = p.state ∧ s.engine.stateVersion = p.stateVersion ∨
      s.engine.state = .fault ∧ s.engine.stateVersion = 1
  /-- The files at its own crash points. -/
  emits : Emits (fun d' e => Orderly W md d' e ∧ d'.state = d.state)
    (Sys.powered W ticks ⟨md, cursorOf W.R ws, none⟩ (hashOf W.R es) d) s

/-- The first step of a constructor. -/
theorem Rested.touch (h : Rested W ws es d) (ticks : Nat) :
    Emits (Orderly W md) (Sys.powered W ticks ⟨md, cursorOf W.R ws, none⟩ (hashOf W.R es) d)
      (Sys.bootingOn W ws es ticks d) := by
  refine Emits.emit ⟨⟨ws, _, h.journal⟩, es, h.reads, ?_⟩
  intro line hline
  cases hline

/-- **An engine comes up on the files another one left behind**, with the saved state or in
FAULT. -/
theorem Rested.reopen (h : Rested W ws es d) (hfile : StateFile W d.state) (ticks : Nat) :
    ∃ s, AegisShield.reopen W ticks d = .ok s ∧ Reopened ws es ticks d s := by
  have htouch : Emits (fun d' _ => d'.state = d.state) _ (Sys.bootingOn W ws es ticks d) :=
    Emits.emit (e := .audit .create)
      (s := Sys.powered W ticks ⟨md, cursorOf W.R ws, none⟩ (hashOf W.R es) d) rfl
  -- the three ways the loader can decide
  have hfault : ∀ err, loadState W.R d.state (d.audit.active.getD []) = .ok (none, some err) →
      ∃ s, AegisShield.reopen W ticks d = .ok s ∧ Reopened ws es ticks d s := by
    intro err hload
    obtain ⟨message, hopen⟩ := h.reopen_refused hload ticks
    obtain ⟨⟨es', p', hsaved⟩, horderly⟩ :=
      (h.opened ticks).enterFault (Engine.initial_sound _ _) message
    have hstate := Sys.enterFault_emits (s := Sys.bootingOn W ws es ticks d)
      (X := fun f => f = d.state) message rfl
    exact ⟨_, hopen, ⟨es', p', hsaved.toGood⟩, rfl, rfl, fun _ _ => Or.inr ⟨rfl, rfl⟩,
      ((h.touch ticks).trans horderly).and (htouch.trans hstate)⟩
  rcases hfile with hnone | ⟨p, hp⟩
  · rcases loadState_none h.reads.recorded with hload | ⟨err, hload⟩
    · rw [← hnone] at hload
      have hallowed := Sys.bootingOn_allowed W ws es ticks d
      obtain ⟨⟨es', p', hsaved⟩, horderly⟩ :=
        (h.opened ticks).transition (Engine.initial_sound _ _) hallowed "self-test complete"
      have hstate := Sys.transition_emits (X := fun f => f = d.state) hallowed
        "self-test complete" rfl
      refine ⟨_, h.reopen_first hload ticks, ⟨es', p', hsaved.toGood⟩, rfl, rfl, ?_,
        ((h.touch ticks).trans horderly).and (htouch.trans hstate)⟩
      intro p hp
      rw [hnone] at hp
      cases hp
    · rw [← hnone] at hload
      exact hfault err hload
  · rcases loadState_saved p h.reads.recorded with hload | ⟨err, hload⟩
    · have hrecord := h.records_of_accepted hload
      rw [← hp] at hload
      obtain ⟨⟨es', hgood⟩, horderly⟩ := h.good_restored hp hrecord ticks
      refine ⟨_, h.reopen_accepted hload ticks, ⟨es', p, hgood⟩, rfl, rfl, ?_,
        ((h.touch ticks).trans horderly).and (htouch.trans (Sys.restoredOn_emits ticks))⟩
      intro q hq
      rw [hp] at hq
      obtain ⟨h1, h2⟩ := Saved.state_of_bytes (Option.some.inj hq)
      exact Or.inl ⟨h1, h2⟩
    · rw [← hp] at hload
      exact hfault err hload

/-- A namespace that was provisioned and never opened. -/
def Disk.fresh (dir : Dir) : Disk := ⟨⟨dir, []⟩, none, ⟨none, []⟩⟩

/-- The engine on it. -/
abbrev Sys.firstBoot (W : World) (md : Metadata) (ticks : Nat) (dir : Dir) : Sys W :=
  ((Sys.bootingOn W ([] : List (Write md)) [] ticks (Disk.fresh dir)).transition .normal
    "self-test complete").2

/-- **The first boot.** -/
theorem reopen_fresh {blocks blockSize : Nat} {deviceId : String} {dir : Dir}
    (h : provision W.R blocks blockSize deviceId = .ok dir) (ticks : Nat) :
    reopen W ticks (Disk.fresh dir) =
        .ok (Sys.firstBoot W ⟨deviceId, blocks, blockSize⟩ ticks dir) ∧
      ∃ es p, JustSaved ([] : List (Write ⟨deviceId, blocks, blockSize⟩)) es p
        (Sys.firstBoot W ⟨deviceId, blocks, blockSize⟩ ticks dir) := by
  have hreads : Reads W.R [] (Disk.fresh dir).audit := Reads.of_chain rfl
  have hrested : Rested W ([] : List (Write ⟨deviceId, blocks, blockSize⟩)) [] (Disk.fresh dir) :=
    ⟨provision_canonical h, hreads⟩
  have hnone : Unrecorded ([] : List (AuditEntry W.R)) := by
    intro e he
    cases he
  have hload : loadState W.R (Disk.fresh dir).state ((Disk.fresh dir).audit.active.getD []) =
      .ok (none, none) := loadState_first_boot hnone
  refine ⟨hrested.reopen_first hload ticks, ?_⟩
  exact ((hrested.opened ticks).transition (Engine.initial_sound _ _)
    (Sys.bootingOn_allowed W _ _ ticks _) _).1

end Reopen

end AegisShield
