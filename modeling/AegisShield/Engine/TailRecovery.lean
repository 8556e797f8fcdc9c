/-
# What becomes of a torn tail

An opening that discards a torn tail first copies it to `journal.jsonl.torn-<offset>`, and an
engine that finds such a recovery on its journal records it in the audit log.  This file follows a
device through calls, power cuts in the middle of an append, and openings by the engine and by the
read-only tools (`status` and `issue-token`, which open the journal and no engine).

Two things can go wrong.  A sidecar is named by the offset alone, so a second tail torn at the same
offset REPLACES the first; and a tool that opens the namespace first leaves nothing for the engine
to record.  `discarded_tails_kept` says that nothing else goes wrong: whatever became of the journal
meanwhile, the constructor returns and notes what its opening removed.
-/
import AegisShield.Engine.Runs
import AegisShield.Journal.TornTail

namespace AegisShield

open Lib Relation

variable {W : World}

/-! ## 1. Runs -/

/-- A torn tail that an opening removed: where it stood, and its bytes. -/
structure Removed where
  offset : Nat
  bytes : Bytes
  deriving DecidableEq, Repr

/-- A device under observation. -/
structure Watched (W : World) where
  device : Device W
  /-- Everything that openings have removed from the log. -/
  removed : List Removed
  /-- What of that was removed by the time the engine was last constructed. -/
  due : List Removed

/-- The files of a device. -/
def Device.disk : Device W → Disk
  | .on s => s.disk
  | .off d _ => d

/-- The files with another journal directory. -/
def Disk.withDir (d : Disk) (dir : Dir) : Disk := { d with root := { d.root with toDir := dir } }

/-- The device with another journal directory. -/
def Device.withDir (dir : Dir) : Device W → Device W
  | .on s => .on { s with disk := s.disk.withDir dir }
  | .off d ticks => .off (d.withDir dir) ticks

/-- What an opening of `d` removed, given what it returned. -/
def removedBy (d : Dir) (j : DurableJournal) (d' : Dir) : List Removed :=
  if j.recoveredTail.isSome then [⟨d'.log.length, d.log.drop d'.log.length⟩] else []

/-- The record that a `write` is about to append, if it gets that far. -/
def Sys.inFlight (s : Sys W) (lba : Int) (payload : Bytes) : Option Bytes :=
  if s.engine.state ∉ AegisState.writable then none
  else if payload.length % s.engine.journal.blockSize ≠ 0 then none
  else
    let blocks := payload.length / s.engine.journal.blockSize
    match s.engine.journal.read W.R s.disk.root.toDir lba blocks none with
    | .error _ => none
    | .ok _ =>
      match s.engine.journal.prepare W.R lba payload with
      | .error _ => none
      | .ok (line, _) => some line

/-- The files a constructor leaves that raises. -/
def AegisEngine.raised (W : World) (ticks : Nat) (journal : DurableJournal) (d : Disk) : Disk :=
  match AegisEngine.bringUp W ticks journal d with
  | .ok s => s.disk
  | .error _ => (Effect.audit .create).apply d

/-- What can happen to a device. -/
inductive TailOp
  | call (c : EngineCall)
  /-- Power fails during the append of a write, with `k` bytes of its record in the file. -/
  | crash (lba : Int) (payload : Bytes) (k ticks : Nat)
  | stop (ticks : Nat)
  /-- The engine is constructed. -/
  | start
  /-- A read-only tool opens the journal. -/
  | tool

/-- One operation. -/
def TailOp.step (y : Watched W) : TailOp → Watched W
  | .call c =>
    match y.device with
    | .on s => { y with device := .on (c.run s).2 }
    | .off _ _ => y
  | .crash lba payload k ticks =>
    match y.device with
    | .on s =>
      match s.inFlight lba payload with
      | some line => { y with device := .off (s.disk.step (.journal (line.take k))) ticks }
      | none => { y with device := .off s.disk ticks }
    | .off _ _ => y
  | .stop ticks =>
    match y.device with
    | .on s => { y with device := .off s.disk ticks }
    | .off _ _ => y
  | .start =>
    match y.device with
    | .on _ => y
    | .off d ticks =>
      match DurableJournal.init W.R d.root.toDir with
      | .error _ => y
      | .ok (j, dir) =>
        let removed := y.removed ++ removedBy d.root.toDir j dir
        match AegisEngine.init W ticks j (d.withDir dir) with
        | .ok s => ⟨.on s, removed, removed⟩
        | .error _ => ⟨.off (AegisEngine.raised W ticks j (d.withDir dir)) ticks, removed, y.due⟩
  | .tool =>
    match DurableJournal.init W.R y.device.disk.root.toDir with
    | .error _ => y
    | .ok (j, dir) =>
      { y with device := y.device.withDir dir
               removed := y.removed ++ removedBy y.device.disk.root.toDir j dir }

/-- A provisioned device. -/
def Watched.provisioned (W : World) (dir : Dir) (ticks : Nat) : Watched W :=
  ⟨.off (Disk.fresh dir) ticks, [], []⟩

/-- Every line of the audit files, those of the archives first. -/
def AuditFiles.lines (f : AuditFiles) : List Bytes :=
  f.archives.flatMap (fun a => splitLines a.2) ++ splitLines (f.active.getD [])

/-- What the journal remembers of a removed tail. -/
def Removed.recovery (r : Removed) : TailRecovery :=
  ⟨r.bytes.length, "incomplete final record", s!"journal.jsonl.torn-{r.offset}"⟩

/-- The details of the entry about it. -/
def TailRecovery.details {R : Runtime} (t : TailRecovery) : Dict R.Value :=
  [("bytes_discarded", .int t.bytesDiscarded), ("preserved_as", .str t.sidecar),
    ("reason", .str t.reason)]

/-- The audit files hold a `journal_tail_recovered` event for the removed tail. -/
def Removed.Noted (R : Runtime) (files : AuditFiles) (r : Removed) : Prop :=
  ∃ raw ∈ files.lines, IsLine raw ∧ ∃ kvs, R.loads raw = .ok (.obj kvs) ∧
    Dict.get kvs "event" = some (.str "journal_tail_recovered") ∧
    Dict.get kvs "details" = some (.obj r.recovery.details)

/-- **Nothing is lost, and everything is on record**: every removed tail is in a sidecar, and the
audit log has an event for what was removed by the time of the last construction. -/
def Watched.Preserved (y : Watched W) : Prop :=
  (∀ r ∈ y.removed, ∃ sidecar ∈ y.device.disk.root.torn, sidecar.2 = r.bytes) ∧
    ∀ r ∈ y.due, r.Noted W.R y.device.disk.audit

/-- The log ends in a torn tail: the lines before `tail` open, and `tail` does not decode. -/
def Dir.TornAt (R : Runtime) (d : Dir) (offset : Nat) (tail : Bytes) : Prop :=
  ∃ pre j, splitLines d.log = pre ++ [tail] ∧ offset = pre.flatten.length ∧ Undecodable R .off tail ∧
    DurableJournal.init R (d.dropLine pre) = .ok (j, d.dropLine pre) ∧ j.recoveredTail = none

/-- No sidecar is lost when the tail takes the name with this offset. -/
def Dir.Spares (d : Dir) (offset : Nat) (tail : Bytes) : Prop :=
  ∀ sidecar ∈ d.torn, sidecar.1 = offset →
    sidecar.2 = tail ∨ ∃ other ∈ d.torn, other.1 ≠ offset ∧ other.2 = sidecar.2

/-- The condition on an operation: a torn tail is found by a constructor only, and never at the
offset of a sidecar that holds something else. -/
def TailOp.Safe (y : Watched W) : TailOp → Prop
  | .start => ∀ offset tail, y.device.disk.root.TornAt W.R offset tail →
      y.device.disk.root.Spares offset tail
  | .tool => ∀ offset tail, ¬ y.device.disk.root.TornAt W.R offset tail
  | _ => True

/-! ## 2. Audit files only grow -/

section Grows

/-- The sidecars are the same, and the audit files have grown. -/
structure Grows (d d' : Disk) : Prop where
  torn : d'.root.torn = d.root.torn
  lines : ∀ raw, IsLine raw → raw ∈ d.audit.lines → raw ∈ d'.audit.lines

theorem Grows.refl (d : Disk) : Grows d d := ⟨rfl, fun _ _ h => h⟩

theorem Grows.trans {d d' d'' : Disk} (h : Grows d d') (h' : Grows d' d'') : Grows d d'' :=
  ⟨h'.torn.trans h.torn, fun raw hraw hm => h'.lines raw hraw (h.lines raw hraw hm)⟩

theorem Grows.noted {d d' : Disk} (h : Grows d d') {R : Runtime} {r : Removed}
    (hr : r.Noted R d.audit) : r.Noted R d'.audit := by
  obtain ⟨raw, hmem, hline, hkvs⟩ := hr
  exact ⟨raw, h.lines raw hline hmem, hline, hkvs⟩

theorem mem_lines {f : AuditFiles} {raw : Bytes} :
    raw ∈ f.lines ↔ (∃ a ∈ f.archives, raw ∈ splitLines a.2) ∨ raw ∈ splitLines (f.active.getD []) := by
  simp [AuditFiles.lines]

theorem Grows.of_effect (e : Effect) (d : Disk) : Grows d (e.apply d) := by
  cases e with
  | audit step =>
    cases step with
    | rename n =>
      cases hactive : d.audit.active with
      | none =>
        have hsame : (Effect.audit (.rename n)).apply d = d := by
          simp [Effect.apply, AuditEffect.apply, hactive]
        rw [hsame]
        exact .refl d
      | some bs =>
        have happly : (Effect.audit (.rename n)).apply d =
            { d with audit := ⟨none, d.audit.archives ++ [(n, bs)]⟩ } := by
          simp [Effect.apply, AuditEffect.apply, hactive]
        rw [happly]
        refine ⟨rfl, fun raw _ hm => ?_⟩
        rcases mem_lines.mp hm with ⟨a, ha, hraw⟩ | hraw
        · exact mem_lines.mpr (Or.inl ⟨a, List.mem_append_left _ ha, hraw⟩)
        · rw [hactive] at hraw
          exact mem_lines.mpr (Or.inl ⟨(n, bs), by simp, hraw⟩)
    | create => exact ⟨rfl, fun _ _ hm => hm⟩
    | write line =>
      refine ⟨rfl, fun raw hraw hm => ?_⟩
      rcases mem_lines.mp hm with ha | hactive
      · exact mem_lines.mpr (Or.inl ha)
      · exact mem_lines.mpr (Or.inr (mem_splitLines_append hraw hactive line))
  | journal line => exact ⟨rfl, fun _ _ h => h⟩
  | state payload => exact ⟨rfl, fun _ _ h => h⟩
  | snapshots bundles => exact ⟨rfl, fun _ _ h => h⟩
  | base image => exact ⟨rfl, fun _ _ h => h⟩
  | emptyLog => exact ⟨rfl, fun _ _ h => h⟩

theorem Emits.grows {P : Disk → Effect → Prop} {s s' : Sys W} (h : Emits P s s') :
    Grows s.disk s'.disk := by
  obtain ⟨es, -, hdisk, -⟩ := h
  rw [hdisk]
  exact run_invariant (I := Grows s.disk) (.refl _) es
    fun d e _ hd => hd.trans (Grows.of_effect e d)

end Grows

/-! ## 3. The audit log of a run

The journal is left out of this invariant on purpose: what a run does to it may well be beyond
repair, and the audit log is none the worse for it. -/

section Audited

/-- A running engine: its audit file is the chain of `es`, and the state file was saved. -/
structure Audited (es : List (AuditEntry W.R)) (s : Sys W) : Prop where
  limit : s.engine.audit.maxBytes = defaultMaxBytes
  chained : Chained W.R es s.engine.audit s.disk.audit
  file : StateFile W s.disk.state
  sound : s.engine.Sound

variable {es : List (AuditEntry W.R)} {s s' : Sys W}

theorem Audited.assigned (h : Audited es s) {e : Engine W} (ha : s.engine.Assigned e) :
    Audited es ({ s with engine := e } : Sys W) where
  limit := (congrArg AuditLog.maxBytes ha.audit).trans h.limit
  chained := ⟨h.chained.active, (congrArg AuditLog.lastHash ha.audit).trans h.chained.hash⟩
  file := h.file
  sound := ha.sound h.sound

theorem Audited.audit (h : Audited es s) (event : String) {details : Dict W.R.Value}
    (hwf : (Json.obj details).Wf) :
    Audited (s.entriesAfter es event details hwf) (s.audit event details) where
  limit := (append_maxBytes _ _ _ _ _).trans h.limit
  chained := (h.chained.reads.append h.chained.active h.chained.hash h.limit _ event hwf).1
  file := h.file
  sound := ⟨h.sound.1, h.sound.2, h.sound.3⟩

theorem Audited.save (h : Audited es s) : ∃ es', Audited es' s.saveState := by
  have hpruned : Audited es s.pruned :=
    ⟨h.limit, h.chained, h.file, ⟨h.sound.1, h.sound.2, Dict.Sorted.pruneDict h.sound.3 _⟩⟩
  have hdigest := hpruned.audit "state_persisted" (digestDetails_wf (s.toSave h.sound).digest)
  rw [Sys.saveState_eq h.sound]
  exact ⟨_, hdigest.limit, hdigest.chained, Or.inr ⟨_, rfl⟩, hdigest.sound⟩

theorem Audited.entering (h : Audited es s) (target : AegisState) : Audited es (s.entering target) :=
  ⟨h.limit, h.chained, h.file, ⟨h.sound.1, h.sound.2, h.sound.3⟩⟩

theorem Audited.transition (h : Audited es s) {target : AegisState}
    (hallowed : target ∈ s.engine.state.allowed) (reason : String) :
    ∃ es', Audited es' (s.transition target reason).2 := by
  rw [Sys.transition_eq hallowed]
  exact ((h.entering target).audit "state_transition" (s.transitionDetails_wf target reason)).save

theorem Audited.enterFault (h : Audited es s) (reason : String) :
    ∃ es', Audited es' (s.enterFault reason) := by
  rw [Sys.enterFault_eq]
  exact ((h.entering .fault).audit "fault_entered" (s.faultDetails_wf reason)).save

theorem Part.audited (hpart : Part s s') (h : Audited es s) : ∃ es', Audited es' s' := by
  cases hpart with
  | observe analyzer readings =>
    exact ⟨es, h.limit, h.chained, h.file, ⟨h.sound.1, h.sound.2, h.sound.3⟩⟩
  | audit hevent hwf => exact ⟨_, h.audit _ hwf⟩
  | journal hstate hprepare =>
    exact ⟨es, h.limit, h.chained, h.file, ⟨h.sound.1, h.sound.2, h.sound.3⟩⟩
  | compact name hstate =>
    obtain ⟨⟨journal, heq⟩, hfile, -⟩ := s.compactFiles_frame name
    have haudit : (s.compactFiles name).2.disk.audit = s.disk.audit := by
      unfold Sys.compactFiles
      split
      · rfl
      · extract_lets s1
        split <;> rfl
    refine ⟨es, ?_, ?_, ?_, ?_⟩
    · rw [heq]
      exact h.limit
    · rw [heq, haudit]
      exact h.chained
    · rw [hfile]
      exact h.file
    · rw [heq]
      exact ⟨h.sound.1, h.sound.2, h.sound.3⟩
  | save ha => exact (h.assigned ha).save

theorem Parts.audited {m : Sys W} (hparts : Parts s m) (h : Audited es s) :
    ∃ es', Audited es' m := by
  induction hparts with
  | refl => exact ⟨es, h⟩
  | tail _ hpart ih =>
    obtain ⟨es', h'⟩ := ih
    exact hpart.audited h'

/-- **A call**, completed or refused. -/
theorem EngineCall.audited (c : EngineCall) (h : Audited es s) :
    (∃ es', Audited es' (c.run s).2) ∧ Grows s.disk (c.run s).2.disk := by
  constructor
  · obtain ⟨m, hparts, hends⟩ := c.parts s
    obtain ⟨es', hm⟩ := hparts.audited h
    generalize (c.run s).2 = s' at hends
    cases hends with
    | here => exact ⟨es', hm⟩
    | @transition e target reason ha hallowed _ _ =>
      exact (hm.assigned ha).transition (ha.allowed hallowed) reason
  · exact (c.emits_state (X := fun _ => True) h.sound (fun _ _ _ => trivial) trivial).1.grows

end Audited

/-! ## 4. Construction -/

section Construct

variable {es : List (AuditEntry W.R)}

theorem TailRecovery.details_wf {R : Runtime} (t : TailRecovery) :
    (Json.obj (t.details (R := R))).Wf :=
  ⟨Dict.sorted_of_keys (rfl : _ = ["bytes_discarded", "preserved_as", "reason"]) (by decide),
    trivial, trivial, trivial, trivial⟩

/-- An entry of the chain is in the files. -/
theorem Chained.noted {R : Runtime} {es : List (AuditEntry R)} {log : AuditLog} {files : AuditFiles}
    (h : Chained R es log files) {e : AuditEntry R} (he : e ∈ es)
    (hevent : e.event = "journal_tail_recovered") {r : Removed}
    (hdetails : e.details = r.recovery.details) : r.Noted R files := by
  obtain ⟨hash, hmem⟩ := line_mem_writtenLines zeroHash he
  have hlines := splitLines_chainOf es []
  rw [List.append_nil] at hlines
  refine ⟨e.line hash, mem_lines.mpr (Or.inr ?_), e.isLine hash, _, e.loads_line hash, ?_, ?_⟩
  · rw [h.active, Option.getD_some, hlines]
    exact List.mem_append_left _ hmem
  · rw [← hevent]
    exact Dict.get_set_of_ne (by decide) _
  · have hget : Dict.get (sealed R "event_hash" (e.body hash)) "details" = some (.obj e.details) :=
      Dict.get_set_of_ne (by decide) _
    rw [hget, hdetails]

/-- The recovery is noted, if there was one. -/
theorem Audited.noteTail {s : Sys W} (h : Audited es s) :
    ∃ es', Audited es' s.noteTail ∧ Grows s.disk s.noteTail.disk ∧
      ∀ r : Removed, s.engine.journal.recoveredTail = some r.recovery →
        r.Noted W.R s.noteTail.disk.audit := by
  unfold Sys.noteTail
  cases htail : s.engine.journal.recoveredTail with
  | none => exact ⟨es, h, .refl _, fun r hr => by cases hr⟩
  | some t =>
    have haudit := h.audit "journal_tail_recovered" (t.details_wf (R := W.R))
    have hemits : Emits (fun _ _ => True) s (s.audit "journal_tail_recovered" t.details) :=
      Emits.audit (Along.of_forall fun _ _ => trivial)
    refine ⟨_, haudit, hemits.grows, ?_⟩
    intro r hr
    obtain rfl := Option.some.inj hr
    have hmem : ∃ time, (⟨"journal_tail_recovered", r.recovery.details, time,
        r.recovery.details_wf⟩ : AuditEntry W.R) ∈ s.entriesAfter es "journal_tail_recovered"
          r.recovery.details r.recovery.details_wf := by
      unfold Sys.entriesAfter entriesAfter
      split
      · exact ⟨_, List.mem_cons_of_mem _ (List.mem_singleton.mpr rfl)⟩
      · exact ⟨_, List.mem_append_right _ (List.mem_singleton.mpr rfl)⟩
    obtain ⟨time, hmem⟩ := hmem
    exact haudit.chained.noted hmem rfl rfl

/-- The choice of a state: trusted, refused or a first boot. -/
theorem Audited.start {s : Sys W} (h : Audited es s) (hboot : s.engine.state = .bootSelftest) :
    ∃ s', s.start = .ok s' ∧ (∃ es', Audited es' s') ∧ Grows s.disk s'.disk := by
  have hchain : s.disk.audit.active.getD [] = chainOf W.R es := by
    rw [h.chained.active]
    rfl
  have hrecorded := recordedStateDigest_chainOf es
  rw [← hchain] at hrecorded
  have hrefused : ∀ x reason, loadState W.R s.disk.state (s.disk.audit.active.getD []) =
      .ok (x, some reason) →
      ∃ s', s.start = .ok s' ∧ (∃ es', Audited es' s') ∧ Grows s.disk s'.disk := by
    intro x reason hload
    unfold Sys.start
    exact ⟨_, bind_of_ok hload, h.enterFault _,
      (Sys.enterFault_emits (X := fun _ => True) _ trivial).grows⟩
  rcases h.file with hnone | ⟨p, hp⟩
  · -- no state file: the first boot, or FAULT
    rcases loadState_none hrecorded with hload | ⟨reason, hload⟩
    · rw [← hnone] at hload
      have hallowed : AegisState.normal ∈ s.engine.state.allowed := by
        rw [hboot]
        decide
      unfold Sys.start
      exact ⟨_, bind_of_ok hload, h.transition hallowed _,
        (Sys.transition_emits (X := fun _ => True) hallowed _ trivial).grows⟩
    · rw [← hnone] at hload
      exact hrefused _ _ hload
  · rcases loadState_saved p hrecorded with hload | ⟨reason, hload⟩
    · rw [← hp] at hload
      let m : Sys W := (s.withEngine fun e => e.load p (W.clock.time s.ticks)).tick
      have hm : Audited es m := ⟨h.limit, h.chained, h.file,
        ⟨p.containment_wf, p.recovery_wf, Dict.Sorted.pruneDict p.nonces_sorted _⟩⟩
      have hemits : Emits (fun _ _ => True) m (m.audit "engine_restored" (restoredDetails p)) :=
        Emits.audit (Along.of_forall fun _ _ => trivial)
      unfold Sys.start
      exact ⟨_, (bind_of_ok hload).trans (Sys.restore_payload s p),
        ⟨_, hm.audit "engine_restored" (restoredDetails_wf p)⟩, hemits.grows⟩
    · rw [← hp] at hload
      exact hrefused _ _ hload

/-- **The constructor returns, and notes what the opening of the journal removed.** -/
theorem init_audited {d : Disk} (hchain : d.audit.active.getD [] = chainOf W.R es)
    (hfile : StateFile W d.state) (ticks : Nat) (j : DurableJournal) :
    ∃ s, AegisEngine.init W ticks j d = .ok s ∧ (∃ es', Audited es' s) ∧ Grows d s.disk ∧
      ∀ r : Removed, j.recoveredTail = some r.recovery → r.Noted W.R s.disk.audit := by
  let s₀ : Sys W := ⟨Engine.initial W j (hashOf W.R es), (Effect.audit .create).apply d, ticks,
    [.audit .create]⟩
  have hcreate : Grows d s₀.disk := Grows.of_effect (.audit .create) d
  have h₀ : Audited es s₀ :=
    ⟨rfl, ⟨congrArg some hchain, rfl⟩, hfile, Engine.initial_sound _ _⟩
  have hverify : verifyFile W.R (s₀.disk.audit.active.getD []) = .ok (hashOf W.R es) := by
    rw [h₀.chained.active]
    exact verifyFile_chainOf es
  have hbring : AegisEngine.bringUp W ticks j d = .ok s₀.noteTail := bind_of_ok hverify
  obtain ⟨es₁, h₁, hgrows₁, hnoted⟩ := h₀.noteTail
  have hboot : s₀.noteTail.engine.state = .bootSelftest := by
    unfold Sys.noteTail
    split <;> rfl
  obtain ⟨s, hstart, haudited, hgrows₂⟩ := h₁.start hboot
  refine ⟨s, (bind_of_ok hbring).trans hstart, haudited,
    (hcreate.trans hgrows₁).trans hgrows₂, ?_⟩
  intro r hr
  exact hgrows₂.noted (hnoted r hr)

end Construct

/-! ## 5. What an opening removes -/

section Openings

variable {R : Runtime}

/-- **An opening** leaves the directory alone, or moves a torn tail aside. -/
theorem init_tail {d d' : Dir} {j : DurableJournal} (h : DurableJournal.init R d = .ok (j, d')) :
    (j.recoveredTail = none ∧ d' = d) ∨
      ∃ r : Removed, d.TornAt R r.offset r.bytes ∧ j.recoveredTail = some r.recovery ∧
        removedBy d j d' = [r] ∧
        d'.torn = (r.offset, r.bytes) :: d.torn.filter fun sidecar => sidecar.1 ≠ r.offset := by
  obtain ⟨md, cur, torn, hmd, hb, hreplay, hopened⟩ := init_eq_ok.mp h
  rcases replayLines_file hreplay with ⟨rfl, -⟩ | ⟨pre, last, hlines, hr, hlast, rfl⟩
  · obtain ⟨rfl, rfl⟩ := Prod.mk.inj hopened
    exact Or.inl ⟨rfl, rfl⟩
  · have hdrops : DropsLast R .off d md pre last cur := ⟨hmd, hb, hlines, hr, hlast⟩
    obtain ⟨-, hlog⟩ := splitLines_dropLine hlines
    have hsize := hr.logSize_empty
    have hdrop : d.log.drop cur.logSize = last := by
      rw [hlog, hsize, List.drop_left]
    have htake : (d.log.take cur.logSize).length = cur.logSize := by
      rw [hlog, hsize, List.take_left]
    obtain ⟨rfl, rfl⟩ := Prod.mk.inj hopened
    refine Or.inr ⟨⟨cur.logSize, last⟩,
      ⟨pre, _, hlines, hsize, hlast, hdrops.initUnder_dropLine, rfl⟩, ?_, ?_, ?_⟩
    · simp only [discardTornTail, hdrop, Removed.recovery]
    · simp only [removedBy, discardTornTail, Option.isSome_some, if_true, htake, hdrop]
    · simp only [discardTornTail, hdrop]

theorem removedBy_of_none {d d' : Dir} {j : DurableJournal} (h : j.recoveredTail = none) :
    removedBy d j d' = [] := by
  simp [removedBy, h]

/-- A spared sidecar's bytes are still in one. -/
theorem Dir.Spares.kept {d : Dir} {offset : Nat} {tail : Bytes} (h : d.Spares offset tail)
    {sidecar : Nat × Bytes} (hs : sidecar ∈ d.torn) :
    ∃ s ∈ (offset, tail) :: d.torn.filter fun s => s.1 ≠ offset, s.2 = sidecar.2 := by
  have hfilter : ∀ s ∈ d.torn, s.1 ≠ offset →
      s ∈ (offset, tail) :: d.torn.filter fun s => s.1 ≠ offset := by
    intro s hs hne
    exact List.mem_cons_of_mem _ (List.mem_filter.mpr ⟨hs, by simpa using hne⟩)
  by_cases hoffset : sidecar.1 = offset
  · rcases h sidecar hs hoffset with heq | ⟨other, hother, hne, heq⟩
    · exact ⟨_, List.mem_cons_self, heq.symm⟩
    · exact ⟨other, hfilter other hother hne, heq⟩
  · exact ⟨sidecar, hfilter sidecar hs hoffset, rfl⟩

end Openings

/-! ## 6. The invariant of a run -/

section Run

/-- The audit log of a device verifies, and its state file was saved. -/
def Device.Audited : Device W → Prop
  | .on s => ∃ es, AegisShield.Audited es s
  | .off d _ => StateFile W d.state ∧ ∃ es, d.audit.active.getD [] = chainOf W.R es

/-- Every removed tail is in a sidecar and on record. -/
structure Watched.Kept (y : Watched W) : Prop where
  sidecars : ∀ r ∈ y.removed, ∃ sidecar ∈ y.device.disk.root.torn, sidecar.2 = r.bytes
  noted : ∀ r ∈ y.removed, r.Noted W.R y.device.disk.audit
  due : y.due ⊆ y.removed
  audited : y.device.Audited

theorem Watched.Kept.preserved {y : Watched W} (h : y.Kept) : y.Preserved :=
  ⟨h.sidecars, fun r hr => h.noted r (h.due hr)⟩

theorem Watched.Kept.start {dir : Dir} (ticks : Nat) : (Watched.provisioned W dir ticks).Kept where
  sidecars := fun r hr => by cases hr
  noted := fun r hr => by cases hr
  due := List.Subset.refl _
  audited := ⟨Or.inl rfl, [], rfl⟩

/-- Files that only grow. -/
theorem Watched.Kept.grows {y : Watched W} (h : y.Kept) (device : Device W)
    (hgrows : Grows y.device.disk device.disk) (haudited : device.Audited) :
    ({ y with device := device } : Watched W).Kept where
  sidecars := fun r hr => by
    have hs := h.sidecars r hr
    rw [← hgrows.torn] at hs
    exact hs
  noted := fun r hr => hgrows.noted (h.noted r hr)
  due := h.due
  audited := haudited

theorem Audited.off {es : List (AuditEntry W.R)} {s : Sys W} (h : Audited es s) {d : Disk}
    (hstate : d.state = s.disk.state) (haudit : d.audit = s.disk.audit) (ticks : Nat) :
    (Device.off d ticks : Device W).Audited := by
  refine ⟨?_, es, ?_⟩
  · rw [hstate]
    exact h.file
  · rw [haudit, h.chained.active]
    rfl

/-- **The engine is constructed.** -/
theorem Watched.Kept.construct {d : Disk} {ticks : Nat} {removed due : List Removed}
    (h : (⟨.off d ticks, removed, due⟩ : Watched W).Kept)
    (hsafe : TailOp.Safe (⟨.off d ticks, removed, due⟩ : Watched W) .start) :
    (TailOp.step (⟨.off d ticks, removed, due⟩ : Watched W) .start).Kept := by
  obtain ⟨hfile, es, hchain⟩ := h.audited
  simp only [TailOp.step]
  cases hinit : DurableJournal.init W.R d.root.toDir with
  | error e => exact h
  | ok r =>
    obtain ⟨j, dir⟩ := r
    obtain ⟨s, hs, haudited, hgrows, hnoted⟩ :=
      init_audited (d := d.withDir dir) hchain hfile ticks j
    have htorn : s.disk.root.torn = dir.torn := hgrows.torn
    have hold : ∀ r ∈ removed, r.Noted W.R s.disk.audit :=
      fun r hr => hgrows.noted (h.noted r hr)
    simp only [hs]
    rcases init_tail hinit with ⟨hnone, rfl⟩ | ⟨r, hat, hsome, hremoved, htorn'⟩
    · rw [removedBy_of_none hnone, List.append_nil]
      refine ⟨fun r hr => ?_, hold, List.Subset.refl _, haudited⟩
      have hsidecar := h.sidecars r hr
      exact htorn ▸ hsidecar
    · rw [hremoved]
      refine ⟨fun r' hr' => ?_, fun r' hr' => ?_, List.Subset.refl _, haudited⟩
      · change ∃ sidecar ∈ s.disk.root.torn, sidecar.2 = r'.bytes
        rw [htorn, htorn']
        rcases List.mem_append.mp hr' with hr' | hr'
        · obtain ⟨sidecar, hmem, heq⟩ := h.sidecars r' hr'
          obtain ⟨kept, hkept, hsame⟩ := (hsafe _ _ hat).kept hmem
          exact ⟨kept, hkept, hsame.trans heq⟩
        · obtain rfl := List.mem_singleton.mp hr'
          exact ⟨_, List.mem_cons_self, rfl⟩
      · rcases List.mem_append.mp hr' with hr' | hr'
        · exact hold r' hr'
        · obtain rfl := List.mem_singleton.mp hr'
          exact hnoted r' hsome

/-- A device whose directory is as it was. -/
theorem Device.withDir_self (device : Device W) : device.withDir device.disk.root.toDir = device := by
  cases device with
  | on s => rfl
  | off d ticks => rfl

/-- **Every safe operation keeps the invariant.** -/
theorem Watched.Kept.step (y : Watched W) (o : TailOp) (hsafe : TailOp.Safe y o) (h : y.Kept) :
    (TailOp.step y o).Kept := by
  obtain ⟨device, removed, due⟩ := y
  cases o with
  | call c =>
    cases device with
    | on s =>
      obtain ⟨es, hs⟩ := h.audited
      obtain ⟨haudited, hgrows⟩ := c.audited hs
      exact h.grows (.on (c.run s).2) hgrows haudited
    | off d ticks => exact h
  | crash lba payload k ticks =>
    cases device with
    | on s =>
      obtain ⟨es, hs⟩ := h.audited
      simp only [TailOp.step]
      cases s.inFlight lba payload with
      | some line =>
        exact h.grows (.off (s.disk.step (.journal (line.take k))) ticks)
          (Grows.of_effect (.journal (line.take k)) s.disk) (hs.off rfl rfl ticks)
      | none => exact h.grows (.off s.disk ticks) (.refl _) (hs.off rfl rfl ticks)
    | off d ticks => exact h
  | stop ticks =>
    cases device with
    | on s =>
      obtain ⟨es, hs⟩ := h.audited
      exact h.grows (.off s.disk ticks) (.refl _) (hs.off rfl rfl ticks)
    | off d ticks => exact h
  | start =>
    cases device with
    | on s => exact h
    | off d ticks => exact h.construct hsafe
  | tool =>
    simp only [TailOp.step]
    cases hinit : DurableJournal.init W.R device.disk.root.toDir with
    | error e => exact h
    | ok r =>
      obtain ⟨j, dir⟩ := r
      -- the command constructs a journal too, and what it discards is at an offset that is safe
      rcases init_tail hinit with ⟨hnone, rfl⟩ | ⟨r, hat, -⟩
      · simp only [removedBy_of_none hnone, List.append_nil, Device.withDir_self]
        exact h
      · exact absurd hat (hsafe r.offset r.bytes)

/-- **Discarded bytes are preserved and audited** in every run whose torn tails are found by
constructors, at offsets whose sidecars they spare. -/
theorem discarded_tails_kept (dir : Dir) (ticks : Nat) {ops : List TailOp}
    (hsafe : Along TailOp.step TailOp.Safe (Watched.provisioned W dir ticks) ops)
    {pre : List TailOp} (hpre : pre <+: ops) :
    (pre.foldl TailOp.step (Watched.provisioned W dir ticks)).Preserved :=
  (run_along_initial Watched.Kept.step (Watched.Kept.start ticks) hsafe hpre).preserved

end Run

/-! ## 7. Two tails at one offset -/

section TwoTails

/-- A constructor on files that open without a recovery. -/
theorem step_start {d : Disk} {ticks : Nat} {j : DurableJournal} {s : Sys W}
    (removed due : List Removed)
    (hinit : DurableJournal.init W.R d.root.toDir = .ok (j, d.root.toDir))
    (hnone : j.recoveredTail = none) (hs : reopen W ticks d = .ok s) :
    TailOp.step (⟨.off d ticks, removed, due⟩ : Watched W) .start = ⟨.on s, removed, removed⟩ := by
  have hengine : AegisEngine.init W ticks j (d.withDir d.root.toDir) = .ok s := by
    unfold reopen at hs
    rw [bind_of_ok hinit] at hs
    exact hs
  simp only [TailOp.step, hinit, hengine, removedBy_of_none hnone, List.append_nil]

/-- An object with a member is longer than three bytes. -/
theorem length_canonicalBytes_obj {R : Runtime} (k : String) (v : R.Value) (kvs : Dict R.Value) :
    3 < (R.canonicalBytes (.obj ((k, v) :: kvs))).length := by
  have hascii : ∀ c ∈ (Json.obj ((k, v) :: kvs) : R.Value).canonical, IsAscii c :=
    fun c hc => (Json.canonical_printable _ c hc).isAscii
  rw [Runtime.canonicalBytes, length_utf8 hascii, Json.canonical, Json.dump, Json.quote]
  simp only [List.length_cons, List.length_append, List.length_nil]
  omega

/-- The first record of the concrete device. -/
def sevensLine : Bytes := sevens.line World.quiet.R Cursor.empty

theorem length_sevensLine : 3 < sevensLine.length - 1 := by
  have hline : sevensLine.length = _ := length_sealedLine (R := World.quiet.R) "record_hash" _
  rw [hline, Nat.add_sub_cancel]
  exact length_canonicalBytes_obj "block" _ _

/-- A prefix of it is torn. -/
theorem replayLines_sevensLine {k : Nat} (hpos : 0 < k) (hk : k < sevensLine.length - 1) :
    replayLines World.quiet.R .off ⟨"dev", 4, 512⟩ k Cursor.empty 1 (splitLines (sevensLine.take k)) =
      .ok (Cursor.empty, some 0) := by
  have htorn := @replayLines_torn World.quiet.R ⟨"dev", 4, 512⟩ Cursor.empty sevens k hpos
  rw [← sevensLine] at htorn
  have hsize : Cursor.empty.logSize + k = k := Nat.zero_add k
  rw [hsize] at htorn
  exact htorn hk 1

/-- The directory behind a tail that was moved aside at offset 0. -/
def Dir.setAside (d : Dir) (tail : Bytes) : Dir :=
  { d with torn := (0, tail) :: d.torn.filter fun sidecar => sidecar.1 ≠ 0 }

variable {es : List (AuditEntry World.quiet.R)} {p : Saved World.quiet.R} {s : Sys World.quiet}

theorem inFlight_sevens (h : Good ([] : List (Write ⟨"dev", 4, 512⟩)) es p s)
    (hstate : s.engine.state = .normal) :
    s.inFlight 1 (List.replicate 512 7) = some sevensLine := by
  have hj := h.journal_eq
  have hread : s.engine.journal.read World.quiet.R s.disk.root.toDir (1 : Nat) (1 : Nat) none =
      .ok _ := h.journal.backed.read_current h.journal.metadata (by decide) (by decide)
  have hprepare := h.journal.prepare sevens
  have hlength : (List.replicate 512 (7 : UInt8)).length = 512 := List.length_replicate
  have hsize : s.engine.journal.blockSize = 512 := by rw [hj]
  unfold Sys.inFlight
  rw [hstate, if_neg (by decide), hlength, hsize, if_neg (by decide)]
  simp only [Nat.div_self (show 0 < 512 by decide)]
  rw [show ((1 : Int)) = ((1 : Nat) : Int) from rfl, hread]
  have hprepare' : s.engine.journal.prepare World.quiet.R (1 : Nat) (List.replicate 512 7) = .ok _ :=
    hprepare
  simp only [hprepare']
  rfl

/-- **What an opening makes of a cut after `k` bytes.** -/
theorem init_after_cut (h : Good ([] : List (Write ⟨"dev", 4, 512⟩)) es p s) {k : Nat} (hpos : 0 < k)
    (hk : k ≤ 3) :
    ∃ j, DurableJournal.init World.quiet.R
        (s.disk.step (.journal (sevensLine.take k))).root.toDir =
          .ok (j, s.disk.root.toDir.setAside (sevensLine.take k)) ∧
      removedBy (s.disk.step (.journal (sevensLine.take k))).root.toDir j
        (s.disk.root.toDir.setAside (sevensLine.take k)) = [⟨0, sevensLine.take k⟩] := by
  have hlog : s.disk.root.log = [] := h.journal.log
  have hshort := length_sevensLine
  have hlen : (sevensLine.take k).length = k := by
    rw [List.length_take]
    omega
  let d : Dir := { s.disk.root.toDir with log := sevensLine.take k }
  have hdir : (s.disk.step (.journal (sevensLine.take k))).root.toDir = d := by
    simp only [Disk.step, Effect.apply, hlog, List.nil_append, d]
  have hreplay : replayLines World.quiet.R .off ⟨"dev", 4, 512⟩ d.log.length Cursor.empty 1
      (splitLines d.log) = .ok (Cursor.empty, some 0) := by
    have hlog' : d.log = sevensLine.take k := rfl
    rw [hlog', hlen]
    exact replayLines_sevensLine hpos (by omega)
  have hinit := init_torn (R := World.quiet.R) (d := d) h.journal.file h.journal.size hreplay
  have hdiscard : (discardTornTail d 0 "incomplete final record").2 =
      s.disk.root.toDir.setAside (sevensLine.take k) := by
    simp only [discardTornTail, Dir.setAside, List.take_zero, List.drop_zero, d, hlog]
  rw [hdiscard] at hinit
  rw [hdir]
  refine ⟨_, hinit, ?_⟩
  simp only [removedBy, Option.isSome_some, if_true, Dir.setAside, hlog, List.length_nil,
    List.drop_zero, d]

/-- A cut after `k` bytes, and a tool. -/
theorem crash_then_tool (h : Good ([] : List (Write ⟨"dev", 4, 512⟩)) es p s)
    (hstate : s.engine.state = .normal) {k : Nat} (hpos : 0 < k) (hk : k ≤ 3)
    (removed due : List Removed) :
    [.crash 1 (List.replicate 512 7) k 0, .tool].foldl TailOp.step
        (⟨.on s, removed, due⟩ : Watched World.quiet) =
      ⟨.off (s.disk.withDir (s.disk.root.toDir.setAside (sevensLine.take k))) 0,
        removed ++ [⟨0, sevensLine.take k⟩], due⟩ := by
  obtain ⟨j, hinit, hremoved⟩ := init_after_cut h hpos hk
  rw [List.foldl_cons, List.foldl_cons, List.foldl_nil]
  simp only [TailOp.step, inFlight_sevens h hstate, Device.disk, hinit, hremoved, Device.withDir]
  rfl

/-- The concrete device, started for the first time. -/
theorem first_start : ∃ dir es p s, provision World.quiet.R 4 512 "dev" = .ok dir ∧ dir.torn = [] ∧
    TailOp.step (Watched.provisioned World.quiet dir 0) .start = ⟨.on s, [], []⟩ ∧
    JustSaved ([] : List (Write ⟨"dev", 4, 512⟩)) es p s ∧ s.engine.state = .normal ∧
    s.disk.root.torn = [] := by
  obtain ⟨dir, hdir⟩ := provision_four_blocks
  obtain ⟨hopen, es, p, hsaved⟩ := reopen_fresh (W := World.quiet) hdir 0
  have hnone : dir.torn = [] := by
    have hdir' := hdir
    rw [provision, if_neg (by decide)] at hdir'
    rw [← Except.ok.inj hdir']
  have hroot : (Sys.firstBoot World.quiet ⟨"dev", 4, 512⟩ 0 dir).disk.root = ⟨dir, []⟩ := rfl
  have hstart := step_start (d := Disk.fresh dir) [] [] (provision_canonical hdir).init rfl hopen
  exact ⟨dir, es, p, _, hdir, hnone, hstart, hsaved, rfl, by rw [hroot]; exact hnone⟩

/-- A cut after `k` bytes, and a constructor. -/
theorem crash_then_start (h : Good ([] : List (Write ⟨"dev", 4, 512⟩)) es p s) {k : Nat}
    (hpos : 0 < k) (hk : k ≤ 3) (removed due : List Removed) :
    (TailOp.step (⟨.off (s.disk.step (.journal (sevensLine.take k))) 0, removed, due⟩ :
      Watched World.quiet) .start).due = removed ++ [⟨0, sevensLine.take k⟩] := by
  obtain ⟨j, hinit, hremoved⟩ := init_after_cut h hpos hk
  have hchain : s.disk.audit.active.getD [] = chainOf World.quiet.R es :=
    congrArg (fun f => f.getD []) h.chain
  generalize hcut : s.disk.step (.journal (sevensLine.take k)) = d at hinit hremoved
  have haudit : d.audit = s.disk.audit := by
    rw [← hcut]
    rfl
  have hstate : d.state = some p.bytes := by
    rw [← h.file, ← hcut]
    rfl
  rw [← haudit] at hchain
  obtain ⟨s', hs', -⟩ := init_audited (W := World.quiet)
    (d := d.withDir (s.disk.root.toDir.setAside (sevensLine.take k))) hchain
    (Or.inr ⟨p, hstate⟩) 0 j
  simp only [TailOp.step, hinit, hs', hremoved]

/-- The engine removes the tail, keeps it and notes it. -/
theorem discarded_tails_kept_one_byte : ∃ dir, provision World.quiet.R 4 512 "dev" = .ok dir ∧
    let y := [.start, .crash 1 (List.replicate 512 7) 1 0, .start].foldl TailOp.step
      (Watched.provisioned World.quiet dir 0)
    y.due = [⟨0, sevensLine.take 1⟩] ∧ y.Preserved := by
  obtain ⟨dir, es, p, s, hdir, hnone, h1, hsaved, hnormal, htorn⟩ := first_start
  have h2 : TailOp.step (⟨.on s, [], []⟩ : Watched World.quiet)
      (.crash 1 (List.replicate 512 7) 1 0) =
        ⟨.off (s.disk.step (.journal (sevensLine.take 1))) 0, [], []⟩ := by
    simp only [TailOp.step, inFlight_sevens hsaved.toGood hnormal]
  have hsafe : Along TailOp.step TailOp.Safe (Watched.provisioned World.quiet dir 0)
      [.start, .crash 1 (List.replicate 512 7) 1 0, .start] := by
    refine ⟨fun offset tail _ sidecar hmem _ => ?_, ?_⟩
    · have hmem' : sidecar ∈ dir.torn := hmem
      rw [hnone] at hmem'
      cases hmem'
    · rw [h1]
      refine ⟨trivial, ?_⟩
      rw [h2]
      refine ⟨fun offset tail _ sidecar hmem _ => ?_, trivial⟩
      have hmem' : sidecar ∈ s.disk.root.torn := hmem
      rw [htorn] at hmem'
      cases hmem'
  refine ⟨dir, hdir, ?_, discarded_tails_kept dir 0 hsafe List.prefix_rfl⟩
  rw [List.foldl_cons, List.foldl_cons, List.foldl_cons, List.foldl_nil, h1, h2]
  exact crash_then_start hsaved.toGood (by decide) (by decide) [] []

/-- The failing run. -/
abbrev twoTails : List TailOp :=
  [.start, .crash 1 (List.replicate 512 7) 1 0, .tool, .start,
    .crash 1 (List.replicate 512 7) 2 0, .tool]

/-- **A second tail at the same offset replaces the first.** -/
theorem second_tail_replaces_first : ∃ dir, provision World.quiet.R 4 512 "dev" = .ok dir ∧
    let y := twoTails.foldl TailOp.step (Watched.provisioned World.quiet dir 0)
    y.removed = [⟨0, sevensLine.take 1⟩, ⟨0, sevensLine.take 2⟩] ∧
      y.device.disk.root.torn = [(0, sevensLine.take 2)] ∧ ¬ y.Preserved := by
  obtain ⟨dir, es₀, p₀, s, hdir, hnone, h1, hsaved, hnormal, htorn⟩ := first_start
  have h2 := crash_then_tool hsaved.toGood hnormal (k := 1) (by decide) (by decide) [] []
  -- the second engine comes up on an empty log and the saved state
  let d : Disk := s.disk.withDir (s.disk.root.toDir.setAside (sevensLine.take 1))
  have hrested : Rested World.quiet ([] : List (Write ⟨"dev", 4, 512⟩)) es₀ d :=
    ⟨⟨rfl, rfl, hsaved.journal.file, hsaved.journal.size, hsaved.journal.log⟩, hsaved.reads⟩
  have hload := loadState_recorded p₀ hsaved.recorded
  have hfile : d.audit.active.getD [] = chainOf World.quiet.R es₀ :=
    congrArg (fun f => f.getD []) hsaved.chain
  rw [← hsaved.file, ← hfile] at hload
  have hagain : reopen World.quiet 0 d = .ok (Sys.restoredOn World.quiet
      ([] : List (Write ⟨"dev", 4, 512⟩)) es₀ p₀ 0 d) :=
    hrested.reopen_accepted (p := p₀) hload 0
  obtain ⟨⟨es₂, hgood₂⟩, -⟩ := hrested.good_restored hsaved.file (Or.inr hsaved.recorded) 0
  have hstate₂ : (Sys.restoredOn World.quiet ([] : List (Write ⟨"dev", 4, 512⟩)) es₀ p₀ 0
      d).engine.state = .normal := hsaved.state.trans hnormal
  have hroot₂ : (Sys.restoredOn World.quiet ([] : List (Write ⟨"dev", 4, 512⟩)) es₀ p₀ 0
      d).disk.root = d.root := rfl
  have h3 := step_start (d := d) [⟨0, sevensLine.take 1⟩] [] hrested.journal.init rfl hagain
  generalize Sys.restoredOn World.quiet ([] : List (Write ⟨"dev", 4, 512⟩)) es₀ p₀ 0 d = s₂ at *
  have h4 := crash_then_tool hgood₂ hstate₂ (k := 2) (by decide) (by decide)
    [⟨0, sevensLine.take 1⟩] [⟨0, sevensLine.take 1⟩]
  have hrun : twoTails.foldl TailOp.step (Watched.provisioned World.quiet dir 0) =
      ⟨.off (s₂.disk.withDir (s₂.disk.root.toDir.setAside (sevensLine.take 2))) 0,
        [⟨0, sevensLine.take 1⟩] ++ [⟨0, sevensLine.take 2⟩], [⟨0, sevensLine.take 1⟩]⟩ := by
    have hsplit : twoTails = .start :: ([.crash 1 (List.replicate 512 7) 1 0, .tool] ++
        .start :: [.crash 1 (List.replicate 512 7) 2 0, .tool]) := rfl
    rw [hsplit, List.foldl_cons, h1, List.foldl_append, h2, List.foldl_cons]
    exact (congrArg (fun y => List.foldl TailOp.step y _) h3).trans h4
  have htorn₂ : (s₂.disk.root.toDir.setAside (sevensLine.take 2)).torn =
      [(0, sevensLine.take 2)] := by
    have hs₂ : s₂.disk.root.torn = [(0, sevensLine.take 1)] := by
      rw [hroot₂]
      simp only [d, Disk.withDir, Dir.setAside, htorn, List.filter_nil]
    simp [Dir.setAside, hs₂]
  refine ⟨dir, hdir, ?_⟩
  rw [hrun]
  refine ⟨rfl, htorn₂, ?_⟩
  -- the one sidecar that is left holds two bytes, the first tail had one
  rintro ⟨hsidecars, -⟩
  obtain ⟨sidecar, hmem, heq⟩ := hsidecars ⟨0, sevensLine.take 1⟩ List.mem_cons_self
  have hmem' : sidecar ∈ (s₂.disk.root.toDir.setAside (sevensLine.take 2)).torn := hmem
  rw [htorn₂, List.mem_singleton] at hmem'
  rw [hmem'] at heq
  have hlen := congrArg List.length heq
  have hshort := length_sevensLine
  simp only [List.length_take] at hlen
  omega

end TwoTails

end AegisShield
