/-
# What a restart makes of the state file

A new engine authenticates the state file against the newest `state_persisted` entry of the active
audit file.  As long as that file has such an entry, a clean restart is transparent and a replaced
state file is detected.  A rotation archives the entry, and nothing writes another one before the
next save: from then on

* a clean restart falls into FAULT (`restart_transparent_iff`), and
* a deleted state file is taken for a first boot, also while the device is contained
  (`tampering_detected_iff`).

Flushing alone gets there (`flushes_rotate`).
-/
import AegisShield.Engine.Runs

namespace AegisShield

open Lib Relation

variable {W : World} {md : Metadata}

/-! ## 1. The file holds what the object holds -/

/-- The state file is a save of the object as it is. -/
def Persisted (s : Sys W) : Prop :=
  ∃ hs : s.engine.Sound, s.disk.state = some (s.engine.saved hs).bytes

theorem Persisted.save {s : Sys W} (hs : s.engine.Sound) : Persisted s.saveState :=
  ⟨Sys.saveState_sound hs, Sys.saveState_file hs⟩

theorem Part.persisted {s s' : Sys W} (hpart : Part s s') (h : Persisted s) : Persisted s' := by
  obtain ⟨hs, hfile⟩ := h
  cases hpart with
  | observe analyzer readings => exact ⟨⟨hs.1, hs.2, hs.3⟩, hfile⟩
  | audit hevent hwf => exact ⟨⟨hs.1, hs.2, hs.3⟩, hfile⟩
  | journal hstate hprepare => exact ⟨⟨hs.1, hs.2, hs.3⟩, hfile⟩
  | compact name hstate =>
    obtain ⟨⟨journal, heq⟩, hsame, -⟩ := s.compactFiles_frame name
    unfold Persisted
    rw [heq, hsame]
    exact ⟨⟨hs.1, hs.2, hs.3⟩, hfile⟩
  | save ha => exact Persisted.save (ha.sound hs)

theorem Parts.persisted {s m : Sys W} (hparts : Parts s m) (h : Persisted s) : Persisted m := by
  induction hparts with
  | refl => exact h
  | tail _ hpart ih => exact hpart.persisted ih

theorem Sys.transition_persisted {s : Sys W} (hs : s.engine.Sound) {target : AegisState}
    (hallowed : target ∈ s.engine.state.allowed) (reason : String) :
    Persisted (s.transition target reason).2 := by
  rw [Sys.transition_eq hallowed]
  exact Persisted.save ⟨hs.1, hs.2, hs.3⟩

/-- **Calls keep the file up to date**, and none of them leads to FAULT. -/
theorem EngineCall.persisted {s : Sys W} (c : EngineCall) (h : Persisted s)
    (hstate : s.engine.state ≠ .fault) :
    Persisted (c.run s).2 ∧ (c.run s).2.engine.state ≠ .fault := by
  obtain ⟨m, hparts, hends⟩ := c.parts s
  have hm := hparts.persisted h
  generalize (c.run s).2 = s' at hends ⊢
  cases hends with
  | here =>
    rw [hparts.same_state.1]
    exact ⟨hm, hstate⟩
  | transition reason ha hallowed hfault hmaintenance =>
    rename_i e target
    have hallowed' := ha.allowed hallowed
    obtain ⟨hs, -⟩ := hm
    refine ⟨Sys.transition_persisted (ha.sound hs) hallowed' reason, ?_⟩
    rw [Sys.transition_eq hallowed']
    exact hfault

theorem runCalls_persisted {s : Sys W} (h : Persisted s) (hstate : s.engine.state ≠ .fault)
    (calls : List EngineCall) :
    Persisted (runCalls s calls) ∧ (runCalls s calls).engine.state ≠ .fault :=
  run_invariant (I := fun s => Persisted s ∧ s.engine.state ≠ .fault) ⟨h, hstate⟩ calls
    fun _ c _ h => c.persisted h.1 h.2

/-! ## 2. Clean restarts -/

/-- The active audit file. -/
abbrev Disk.auditFile (d : Disk) : Bytes := d.audit.active.getD []

/-- A new engine on the same files comes up as the old one was: the same state, version and
anchors, and the nonces that have not expired. -/
def RestartsAs (s : Sys W) : Prop :=
  ∃ s', reopen W s.ticks s.disk = .ok s' ∧ s'.engine.state = s.engine.state ∧
    s'.engine.stateVersion = s.engine.stateVersion ∧
    s'.engine.containmentSequence = s.engine.containmentSequence ∧
    s'.engine.recoverySequence = s.engine.recoverySequence ∧
    s'.engine.usedNonces = pruneDict (W.clock.time s.ticks) s.engine.usedNonces

theorem Good.auditFile {ws : List (Write md)} {es : List (AuditEntry W.R)} {p : Saved W.R}
    {s : Sys W} (h : Good ws es p s) : s.disk.auditFile = chainOf W.R es := by
  rw [Disk.auditFile, h.chain]
  rfl

/-- A chain that records a state records the saved one last. -/
theorem Good.recorded {ws : List (Write md)} {es : List (AuditEntry W.R)} {p : Saved W.R}
    {s : Sys W} (h : Good ws es p s) (hr : RecordsState W.R s.disk.auditFile) :
    digestIn es = .str p.digest := by
  rw [h.auditFile, recordsState_chainOf] at hr
  exact h.record.resolve_left hr

theorem Good.unrecorded {ws : List (Write md)} {es : List (AuditEntry W.R)} {p : Saved W.R}
    {s : Sys W} (h : Good ws es p s) (hr : ¬ RecordsState W.R s.disk.auditFile) :
    Unrecorded es := by
  rw [h.auditFile, recordsState_chainOf, not_not] at hr
  exact hr

/-- **A clean restart is transparent exactly as long as the active audit file records a state.** -/
theorem restart_transparent_iff {blocks blockSize : Nat} {deviceId : String} {dir : Dir}
    (hprovision : provision W.R blocks blockSize deviceId = .ok dir) {ticks : Nat} {s : Sys W}
    (hboot : reopen W ticks (Disk.fresh dir) = .ok s) (calls : List EngineCall) :
    RestartsAs (runCalls s calls) ↔ RecordsState W.R (runCalls s calls).disk.auditFile := by
  obtain ⟨heq, es₀, p₀, hsaved⟩ := reopen_fresh (W := W) hprovision ticks
  rw [heq] at hboot
  cases hboot
  have hpersisted₀ : Persisted (Sys.firstBoot W ⟨deviceId, blocks, blockSize⟩ ticks dir) :=
    Sys.transition_persisted (Engine.initial_sound _ _)
      (by exact (by decide : AegisState.normal ∈ AegisState.bootSelftest.allowed)) _
  have hnormal : (Sys.firstBoot W ⟨deviceId, blocks, blockSize⟩ ticks dir).engine.state ≠ .fault := by
    exact (by decide : AegisState.normal ≠ AegisState.fault)
  obtain ⟨ws, es, p, hgood⟩ := runCalls_good hsaved.toGood calls
  obtain ⟨⟨hs, hfile⟩, hstate⟩ := runCalls_persisted hpersisted₀ hnormal calls
  generalize runCalls (Sys.firstBoot W ⟨deviceId, blocks, blockSize⟩ ticks dir) calls = s at *
  constructor
  · rintro ⟨s', hopen, hsame, -⟩
    by_contra hr
    obtain ⟨err, hload⟩ := loadState_unrecorded p.bytes hgood.nonempty (hgood.unrecorded hr)
    rw [← hgood.file, ← hgood.auditFile] at hload
    obtain ⟨reason, hfault⟩ := hgood.rested.reopen_refused hload s.ticks
    rw [hfault] at hopen
    cases hopen
    exact hstate hsame.symm
  · intro hr
    -- the file is also a save of the object as it is
    have hbytes : p.bytes = (s.engine.saved hs).bytes :=
      Option.some.inj (hgood.file.symm.trans hfile)
    have hdigest : digestIn es = .str (s.engine.saved hs).digest := by
      have h1 : p.digest = W.R.hexdigest p.bytes := rfl
      have h2 : (s.engine.saved hs).digest = W.R.hexdigest (s.engine.saved hs).bytes := rfl
      rw [hgood.recorded hr, h1, hbytes, ← h2]
    have hload := loadState_recorded _ hdigest
    rw [← hfile, ← hgood.auditFile] at hload
    exact ⟨_, hgood.rested.reopen_accepted hload s.ticks, rfl, rfl, rfl, rfl, rfl⟩

theorem restart_transparent_iff_two_calls : ∃ (dir : Dir) (s : Sys World.quiet),
    reopen World.quiet 0 (Disk.fresh dir) = .ok s ∧
      (RestartsAs (runCalls s [.flush, .rejectDestructiveCommand 128 "format"]) ↔
        RecordsState World.quiet.R
          (runCalls s [.flush, .rejectDestructiveCommand 128 "format"]).disk.auditFile) := by
  obtain ⟨dir, hdir⟩ := provision_four_blocks
  have hopen := (reopen_fresh (W := World.quiet) hdir 0).1
  exact ⟨dir, _, hopen, restart_transparent_iff hdir hopen _⟩

/-! ## 3. Flushing until the log rotates -/

theorem full_iff {log : AuditLog} {files : AuditFiles} (h : log.maxBytes = defaultMaxBytes) :
    log.full files = true ↔ defaultMaxBytes ≤ files.size := by
  rw [AuditLog.full, h, Bool.and_eq_true, decide_eq_true_eq, decide_eq_true_eq]
  exact ⟨fun hf => hf.2, fun hf => ⟨by decide, hf⟩⟩

/-- **One flush**: it starts a new file, which records nothing, or it lengthens the file. -/
theorem Good.flush {ws : List (Write md)} {es : List (AuditEntry W.R)} {p : Saved W.R} {s : Sys W}
    (h : Good ws es p s) :
    ∃ es', Good ws es' p s.flush.2 ∧ (Unrecorded es → Unrecorded es') ∧
      (defaultMaxBytes ≤ s.disk.audit.size → Unrecorded es') ∧
      (Unrecorded es' ∨ s.disk.audit.size < s.flush.2.disk.audit.size) := by
  have hwf : (Json.obj [("sequence", .int s.engine.journal.lastSequence)] : W.R.Value).Wf :=
    ⟨Dict.sorted_of_keys (rfl : _ = ["sequence"]) (by decide), trivial, trivial⟩
  have hevent : "flush_complete" ≠ "state_persisted" := by decide
  obtain ⟨h1, -⟩ := h.toOpened.audit "flush_complete" hwf
  refine ⟨_, ⟨h1, entriesAfter_ne_nil, h.file, h.record.entriesAfter hevent, h.state, h.version,
    ⟨h.sound.1, h.sound.2, h.sound.3⟩⟩, fun hu => hu.entriesAfter hevent, ?_, ?_⟩
  · intro hsize
    rw [Sys.entriesAfter, entriesAfter, if_pos ((full_iff h.limit).mpr hsize)]
    exact unrecorded_rotated _ hevent
  · have hchain := h1.chain
    rw [Sys.entriesAfter, entriesAfter] at hchain ⊢
    split
    · exact Or.inl (unrecorded_rotated _ hevent)
    · rename_i hfull
      right
      rw [if_neg hfull, chainOf_concat] at hchain
      have hne := (AuditEntry.isLine (hashOf W.R es)
        (⟨"flush_complete", _, W.clock.timeNs (s.ticks + 0), hwf⟩ : AuditEntry W.R)).ne_nil
      have hpos := List.length_pos_of_ne_nil hne
      have hsize : s.flush.2.disk.audit.active = _ := hchain
      rw [AuditFiles.size, AuditFiles.size, hsize, h.chain, Option.getD_some, Option.getD_some,
        List.length_append]
      omega

/-- A number of flushes. -/
abbrev flushes (n : Nat) : List EngineCall := List.replicate n .flush

theorem Good.flushes {ws : List (Write md)} {es : List (AuditEntry W.R)} {p : Saved W.R} {s : Sys W}
    (h : Good ws es p s) : ∀ n : Nat, ∃ es', Good ws es' p (runCalls s (flushes n)) ∧
      (Unrecorded es' ∨ n ≤ (runCalls s (flushes n)).disk.audit.size)
  | 0 => ⟨es, h, Or.inr (Nat.zero_le _)⟩
  | n + 1 => by
    obtain ⟨es₁, h1, hn⟩ := h.flushes n
    obtain ⟨es₂, h2, hkeep, -, hgrow⟩ := h1.flush
    rw [AegisShield.flushes, List.replicate_succ', runCalls_concat]
    refine ⟨es₂, h2, ?_⟩
    rcases hn with hn | hn
    · exact Or.inl (hkeep hn)
    · rcases hgrow with hgrow | hgrow
      · exact Or.inl hgrow
      · exact Or.inr (Nat.lt_of_le_of_lt hn hgrow)

/-- **Enough flushes rotate the record away.** -/
theorem Good.flushes_rotate {ws : List (Write md)} {es : List (AuditEntry W.R)} {p : Saved W.R}
    {s : Sys W} (h : Good ws es p s) :
    ∃ es', Good ws es' p (runCalls s (AegisShield.flushes (defaultMaxBytes + 1))) ∧
      Unrecorded es' := by
  obtain ⟨es₁, h1, hn⟩ := h.flushes defaultMaxBytes
  obtain ⟨es₂, h2, hkeep, hfull, -⟩ := h1.flush
  rw [AegisShield.flushes, List.replicate_succ', runCalls_concat]
  refine ⟨es₂, h2, ?_⟩
  rcases hn with hn | hn
  · exact hkeep hn
  · exact hfull hn

/-- Without a record, a clean restart ends in FAULT. -/
theorem Good.reopen_unrecorded {ws : List (Write md)} {es : List (AuditEntry W.R)} {p : Saved W.R}
    {s : Sys W} (h : Good ws es p s) (hu : Unrecorded es) :
    ∃ s', reopen W s.ticks s.disk = .ok s' ∧ s'.engine.state = .fault := by
  obtain ⟨err, hload⟩ := loadState_unrecorded p.bytes h.nonempty hu
  rw [← h.file, ← h.auditFile] at hload
  obtain ⟨reason, hfault⟩ := h.rested.reopen_refused hload s.ticks
  exact ⟨_, hfault, rfl⟩

/-- **A clean restart after enough flushes does not bring the state back.** -/
theorem restart_after_rotation_faults : ∃ (dir : Dir) (s s' : Sys World.quiet),
    provision World.quiet.R 4 512 "dev" = .ok dir ∧
      reopen World.quiet 0 (Disk.fresh dir) = .ok (quietBoot dir) ∧
      s = runCalls (quietBoot dir) (flushes (defaultMaxBytes + 1)) ∧ s.engine.state = .normal ∧
      reopen World.quiet s.ticks s.disk = .ok s' ∧ s'.engine.state = .fault ∧ ¬ RestartsAs s := by
  obtain ⟨dir, hdir⟩ := provision_four_blocks
  obtain ⟨hopen, es₀, p₀, hsaved⟩ := reopen_fresh (W := World.quiet) hdir 0
  have hnormal : p₀.state = .normal := hsaved.state
  obtain ⟨es, hgood, hunrecorded⟩ := hsaved.toGood.flushes_rotate
  generalize hs : runCalls _ (flushes (defaultMaxBytes + 1)) = s at hgood
  obtain ⟨s', hopen', hfault⟩ := hgood.reopen_unrecorded hunrecorded
  have hstate : s.engine.state = .normal := hgood.state.symm.trans hnormal
  refine ⟨dir, s, s', hdir, hopen, hs.symm, hstate, hopen', hfault, ?_⟩
  rintro ⟨s'', hopen'', hsame, -⟩
  rw [hopen'] at hopen''
  cases hopen''
  rw [hstate, hfault] at hsame
  cases hsame

/-! ## 4. Replaced state files -/

section Tampering

variable (R : Runtime)

/-- The state file is deleted, or replaced by bytes that do not parse to the same value. -/
def Replaces (current replacement : Option Bytes) : Prop :=
  ∀ raw cur v, replacement = some raw → current = some cur → R.loads raw = .ok v →
    R.loads cur ≠ .ok v

/-- SHA-256 tells the payload of the one file from that of the other. -/
def NoCollision (current replacement : Option Bytes) : Prop :=
  ∀ raw cur v w, replacement = some raw → current = some cur → R.loads raw = .ok v →
    R.loads cur = .ok w → R.sha256 (statePayloadBytes R v) = R.sha256 (statePayloadBytes R w) →
    statePayloadBytes R v = statePayloadBytes R w

end Tampering

/-- A new engine over the files with another state file is in FAULT and denies every write. -/
def FaultsWith (s : Sys W) (replacement : Option Bytes) : Prop :=
  ∃ s', reopen W s.ticks { s.disk with state := replacement } = .ok s' ∧
    s'.engine.state = .fault ∧
    ∀ lba payload, ∃ message, (s'.write lba payload).1 = .error (.permissionError message)

/-- A file with another value has another digest. -/
theorem stateDigest_ne {R : Runtime} {p : Saved R} {raw : Bytes} {kvs : Dict R.Value}
    (hr : Replaces R (some p.bytes) (some raw)) (hc : NoCollision R (some p.bytes) (some raw))
    (hkvs : readState R raw = .ok kvs) : stateDigest R (.obj kvs) ≠ p.digest := by
  intro heq
  obtain ⟨hload, hwf⟩ := readState_wf hkvs
  have hbytes := hc raw p.bytes _ _ rfl rfl hload p.loads_bytes (hexdigest_injective heq)
  have hvalue := statePayloadBytes_injective hwf p.payload_wf hbytes
  rw [hvalue] at hload
  exact hr raw p.bytes _ rfl rfl hload p.loads_bytes

/-- **A replaced state file is detected exactly if it was not deleted or the active audit file
records a state.** -/
theorem tampering_detected_iff {s : Sys W} (h : Reachable W (.on s)) {replacement : Option Bytes}
    (hr : Replaces W.R s.disk.state replacement) (hc : NoCollision W.R s.disk.state replacement) :
    FaultsWith s replacement ↔
      (replacement ≠ none ∨ RecordsState W.R s.disk.auditFile) := by
  obtain ⟨md, ws, es, p, hgood⟩ := h.good
  have hrested := hgood.rested.withState replacement
  -- refused by the loader, the engine is in FAULT
  have hrefused : ∀ err, loadState W.R replacement (chainOf W.R es) = .ok (none, some err) →
      FaultsWith s replacement := by
    intro err hload
    rw [← hgood.auditFile] at hload
    obtain ⟨reason, hfault⟩ := hrested.reopen_refused hload s.ticks
    refine ⟨_, hfault, rfl, ?_⟩
    intro lba payload
    rw [Sys.write_denied _ (by exact (by decide : AegisState.fault ∉ AegisState.writable))]
    exact ⟨_, rfl⟩
  constructor
  · rintro ⟨s', hopen, hfault, -⟩
    by_contra hnot
    rw [not_or, ne_eq, not_not] at hnot
    obtain ⟨rfl, hunrecorded⟩ := hnot
    have hload := loadState_first_boot (hgood.unrecorded hunrecorded)
    rw [← hgood.auditFile] at hload
    rw [hrested.reopen_first hload s.ticks] at hopen
    cases hopen
    cases hfault
  · intro hcase
    cases replacement with
    | none =>
      have hrecords := hcase.resolve_left (fun hne => hne rfl)
      exact hrefused _ (loadState_missing (hgood.recorded hrecords))
    | some raw =>
      rw [hgood.file] at hr hc
      by_cases hrecords : RecordsState W.R s.disk.auditFile
      · obtain ⟨err, hload⟩ := loadState_mismatch raw (hgood.recorded hrecords)
          fun kvs hkvs => stateDigest_ne hr hc hkvs
        exact hrefused err hload
      · obtain ⟨err, hload⟩ := loadState_unrecorded raw hgood.nonempty (hgood.unrecorded hrecords)
        exact hrefused err hload

/-- What the first boot saves. -/
def bootSaved : Saved Runtime.reference :=
  ⟨.normal, 1, .null, .null, [], trivial, trivial, List.Pairwise.nil⟩

/-- What is saved after a rejected command. -/
def containedSaved : Saved Runtime.reference :=
  ⟨.contained, 2, .int 0, .null, [], trivial, trivial, List.Pairwise.nil⟩

theorem bootSaved_digest :
    World.quiet.R.sha256 (statePayloadBytes World.quiet.R (.obj bootSaved.payload)) ≠
      World.quiet.R.sha256 (statePayloadBytes World.quiet.R (.obj containedSaved.payload)) := by
  decide +kernel

/-- A contained device gets the state file of its first boot back. -/
theorem tampering_detected_iff_rolled_back : ∃ dir : Dir,
    provision World.quiet.R 4 512 "dev" = .ok dir ∧
      (quietBoot dir).disk.state = some bootSaved.bytes ∧
      (quietContained dir).engine.state = .contained ∧
      FaultsWith (quietContained dir) (some bootSaved.bytes) := by
  obtain ⟨dir, hdir⟩ := provision_four_blocks
  obtain ⟨hreachable, hstate⟩ := reachable_quietContained hdir
  have hfile : (quietContained dir).disk.state = some containedSaved.bytes := rfl
  have hr : Replaces World.quiet.R (some containedSaved.bytes) (some bootSaved.bytes) := by
    intro raw cur v hraw hcur hv hsame
    cases hraw
    cases hcur
    cases bootSaved.loads_bytes.symm.trans hv
    have hvalue := Except.ok.inj (hsame.symm.trans containedSaved.loads_bytes)
    exact bootSaved_digest
      (congrArg (fun v => World.quiet.R.sha256 (statePayloadBytes World.quiet.R v)) hvalue)
  have hc : NoCollision World.quiet.R (some containedSaved.bytes) (some bootSaved.bytes) := by
    intro raw cur v w hraw hcur hv hw hdigest
    cases hraw
    cases hcur
    cases bootSaved.loads_bytes.symm.trans hv
    cases containedSaved.loads_bytes.symm.trans hw
    exact absurd hdigest bootSaved_digest
  rw [← hfile] at hr hc
  exact ⟨dir, hdir, rfl, hstate, (tampering_detected_iff hreachable hr hc).mpr (Or.inl nofun)⟩

/-- Without a record, a deleted state file is a first boot. -/
theorem Good.reopen_deleted {ws : List (Write md)} {es : List (AuditEntry W.R)} {p : Saved W.R}
    {s : Sys W} (h : Good ws es p s) (hu : Unrecorded es) :
    ∃ s', reopen W s.ticks { s.disk with state := none } = .ok s' ∧ s'.engine.state = .normal := by
  have hload := loadState_first_boot hu
  rw [← h.auditFile] at hload
  exact ⟨_, (h.rested.withState none).reopen_first hload s.ticks, rfl⟩

/-- **After a rotation, deleting the state file releases a contained device.** -/
theorem deletion_releases_containment : ∃ (dir : Dir) (s s' : Sys World.quiet),
    provision World.quiet.R 4 512 "dev" = .ok dir ∧
      reopen World.quiet 0 (Disk.fresh dir) = .ok (quietBoot dir) ∧
      s = runCalls (quietContained dir) (flushes (defaultMaxBytes + 1)) ∧
      Reachable World.quiet (.on s) ∧ s.engine.state = .contained ∧
      Replaces World.quiet.R s.disk.state none ∧ NoCollision World.quiet.R s.disk.state none ∧
      reopen World.quiet s.ticks { s.disk with state := none } = .ok s' ∧
      s'.engine.state = .normal ∧ ¬ FaultsWith s none := by
  obtain ⟨dir, hdir⟩ := provision_four_blocks
  have hopen := (reopen_fresh (W := World.quiet) hdir 0).1
  obtain ⟨hreachable₀, hstate₀⟩ := reachable_quietContained hdir
  obtain ⟨md, ws, es₀, p, hgood₀⟩ := hreachable₀.good
  obtain ⟨es, hgood, hunrecorded⟩ := hgood₀.flushes_rotate
  have hreachable := hreachable₀.runCalls (flushes (defaultMaxBytes + 1))
  generalize hs : runCalls _ (flushes (defaultMaxBytes + 1)) = s at hgood hreachable
  obtain ⟨s', hopen', hnormal⟩ := hgood.reopen_deleted hunrecorded
  have hstate : s.engine.state = .contained := by
    rw [← hgood.state, hgood₀.state, hstate₀]
  refine ⟨dir, s, s', hdir, hopen, hs.symm, hreachable, hstate, nofun, nofun, hopen', hnormal, ?_⟩
  rintro ⟨s'', hopen'', hfault, -⟩
  rw [hopen'] at hopen''
  cases hopen''
  rw [hnormal] at hfault
  cases hfault

end AegisShield
