/-
# What a call does to the journal

Of the engine's operations only `write` adds to the journal, and only `compact_journal`, by itself
or at the end of a maintenance, replaces its two files.  `EngineCall.journal_cases` says so for all
of them at once: a call compacts the journal, which its gates decide beforehand
(`EngineCall.Compacts`), or the journal grows at most (`Extended`).
-/
import AegisShield.Engine.Runs
import AegisShield.Journal.Compaction

namespace AegisShield

open Lib

/-! ## 1. Calls that leave the journal alone -/

variable {W : World}

/-- The journal and its directory are the same. -/
structure SameJournal (s s' : Sys W) : Prop where
  journal : s'.engine.journal = s.engine.journal
  root : s'.disk.root = s.disk.root

namespace SameJournal

variable {s s' s'' : Sys W}

theorem trans (h : SameJournal s s') (h' : SameJournal s' s'') : SameJournal s s'' :=
  ⟨h'.journal.trans h.journal, h'.root.trans h.root⟩

theorem audit {s m : Sys W} (h : SameJournal s m) (event : String) (details : Dict W.R.Value) :
    SameJournal s (m.audit event details) :=
  ⟨h.journal, h.root⟩

theorem saveState {s m : Sys W} (h : SameJournal s m) : SameJournal s m.saveState := by
  unfold Sys.saveState
  exact ⟨h.journal, h.root⟩

theorem transition {s m : Sys W} (h : SameJournal s m) (target : AegisState) (reason : String) :
    SameJournal s (m.transition target reason).2 := by
  unfold Sys.transition
  split
  · exact h
  · extract_lets previous m1 m2
    have hsame : SameJournal m m2 := ⟨rfl, rfl⟩
    exact (h.trans hsame).saveState

theorem rejectDestructiveCommand (s : Sys W) (opcode : Int) (name : String) :
    SameJournal s (s.rejectDestructiveCommand opcode name).2 := by
  unfold Sys.rejectDestructiveCommand
  extract_lets event s1 decision s2
  split
  · refine SameJournal.transition ?_ _ _
    exact ⟨rfl, rfl⟩
  · exact ⟨rfl, rfl⟩

theorem authorizeRecovery (s : Sys W) (token : String) (verifier : TokenVerifier)
    (presence : Bool) (now : Option Int) :
    SameJournal s (s.authorizeRecovery token verifier presence now).2 := by
  unfold Sys.authorizeRecovery
  split
  · exact ⟨rfl, rfl⟩
  split
  · exact ⟨rfl, rfl⟩
  split
  · exact ⟨rfl, rfl⟩
  split
  · exact ⟨rfl, rfl⟩
  split
  · exact ⟨rfl, rfl⟩
  split
  · exact ⟨rfl, rfl⟩
  · refine SameJournal.transition ?_ _ _
    exact ⟨rfl, rfl⟩

theorem enterMaintenance (s : Sys W) (token : String) (verifier : TokenVerifier)
    (presence : Bool) (now : Option Int) :
    SameJournal s (s.enterMaintenance token verifier presence now).2 := by
  unfold Sys.enterMaintenance
  split
  · exact ⟨rfl, rfl⟩
  split
  · exact ⟨rfl, rfl⟩
  split
  · exact ⟨rfl, rfl⟩
  split
  · exact ⟨rfl, rfl⟩
  · refine SameJournal.transition ?_ _ _
    exact ⟨rfl, rfl⟩

theorem leaveMaintenance (s : Sys W) (name : Option String) :
    SameJournal s (s.leaveMaintenance name).2 := by
  refine SameJournal.transition ?_ _ _
  exact ⟨rfl, rfl⟩

/-- Everything of `write` behind the record. -/
theorem writeRecorded (s : Sys W) (lba : Int) (payload before line : Bytes)
    (journal : DurableJournal) :
    SameJournal ((s.emit (.journal line)).withEngine fun e => { e with journal := journal })
      (s.writeRecorded lba payload before line journal).2 := by
  unfold Sys.writeRecorded
  extract_lets blocks sequence event s1 s2 decision s3
  split
  · refine SameJournal.transition ?_ _ _
    exact ⟨rfl, rfl⟩
  · split
    · refine SameJournal.transition ?_ _ _
      exact ⟨rfl, rfl⟩
    · exact ⟨rfl, rfl⟩

end SameJournal

/-! ## 2. Compactions -/

/-- The name `compact_journal` takes for its snapshot. -/
def Sys.compactionName (s : Sys W) (label : String) : String := s!"{label}-{W.clock.timeNs s.ticks}"

/-- Whether `compact_journal` passes its gate and its snapshot's checks of the name. -/
def Sys.Compacts (s : Sys W) (label : String) : Prop :=
  s.engine.state ∈ AegisState.compaction ∧ ValidName (s.compactionName label) ∧
    s.compactionName label ∉ s.disk.root.snapshots.map Prod.fst

/-- Whether a call compacts the journal. -/
def EngineCall.Compacts (s : Sys W) : EngineCall → Prop
  | .compactJournal label => s.Compacts label
  | .exitMaintenance compact =>
    s.engine.state = .maintenance ∧ compact = true ∧ s.Compacts "pre-maintenance"
  | _ => False

variable {md : Metadata}

/-- The journal, which held the writes `ws`, has at most grown. -/
structure Extended (ws : List (Write md)) (s s' : Sys W) : Prop where
  journal : ∃ more, Canonical W.R (ws ++ more) s'.engine.journal s'.disk.root.toDir
  base : s'.disk.root.base = s.disk.root.base
  snapshots : s'.disk.root.snapshots = s.disk.root.snapshots

/-- The journal, which held the writes `ws`, is compacted. -/
structure Compacted (ws : List (Write md)) (s s' : Sys W) : Prop where
  journal : Canonical W.R ([] : List (Write md)) s'.engine.journal s'.disk.root.toDir
  base : s'.disk.root.base = newBase s.disk.root.base ws
  snapshots : ∃ bundle : String × Dir, bundle.1 ∉ s.disk.root.snapshots.map Prod.fst ∧
    s'.disk.root.snapshots = bundle :: s.disk.root.snapshots

/-! ## 3. The cases -/

section Good

variable {ws : List (Write md)} {es : List (AuditEntry W.R)} {s s' s'' : Sys W}

theorem Extended.of_same (h : Opened ws es s) (hs : SameJournal s s') : Extended ws s s' := by
  refine ⟨⟨[], ?_⟩, ?_, ?_⟩
  · rw [List.append_nil, hs.journal, hs.root]
    exact h.journal
  · rw [hs.root]
  · rw [hs.root]

theorem Compacted.same (h : Compacted ws s s') (hs : SameJournal s' s'') : Compacted ws s s'' :=
  ⟨by rw [hs.journal, hs.root]; exact h.journal, by rw [hs.root]; exact h.base,
    by rw [hs.root]; exact h.snapshots⟩

theorem write_extends (h : Ledgers ws es s) (lba : Int) (payload : Bytes) :
    Extended ws s (s.write lba payload).2 := by
  unfold Sys.write
  split
  · exact .of_same h.toOpened ⟨rfl, rfl⟩
  split
  · exact .of_same h.toOpened ⟨rfl, rfl⟩
  extract_lets blocks
  split
  · exact .of_same h.toOpened ⟨rfl, rfl⟩
  split
  · exact .of_same h.toOpened ⟨rfl, rfl⟩
  · rename_i before hread _ line journal hprepare
    obtain ⟨w, hw, -⟩ := h.record hprepare
    have hsame := SameJournal.writeRecorded s lba payload before line journal
    refine ⟨⟨[w], ?_⟩, ?_, ?_⟩
    · rw [hsame.journal, hsame.root]
      exact hw.journal
    · rw [hsame.root]
      rfl
    · rw [hsame.root]
      rfl

/-- **A compaction of the files**, or an attempt at one. -/
theorem compactFiles_cases (h : Opened ws es s) (name : String) :
    ¬ (ValidName name ∧ name ∉ s.disk.root.snapshots.map Prod.fst) ∧
        SameJournal s (s.compactFiles name).2 ∨
      (ValidName name ∧ name ∉ s.disk.root.snapshots.map Prod.fst) ∧
        Compacted ws s (s.compactFiles name).2 := by
  by_cases hname : ValidName name ∧ name ∉ s.disk.root.snapshots.map Prod.fst
  · right
    refine ⟨hname, ?_⟩
    have hm : s.engine.journal.materialise W.R s.disk.root.toDir =
        .ok (newBase s.disk.root.base ws) := h.journal.materialise
    rw [Sys.compactFiles, h.journal.snapshot hname.1 hname.2]
    dsimp only
    split
    · rename_i e he
      cases hm.symm.trans he
    · rename_i image himage
      obtain rfl := Except.ok.inj (hm.symm.trans himage)
      exact ⟨⟨h.journal.metadata, rfl, h.journal.file, length_newBase h.journal, rfl⟩, rfl, _,
        hname.2, rfl⟩
  · left
    refine ⟨hname, ?_⟩
    cases hr : s.engine.journal.snapshot W.R s.disk.root name none with
    | error e =>
      rw [Sys.compactFiles, hr]
      exact ⟨rfl, rfl⟩
    | ok r => exact absurd (snapshot_inv hr) hname

theorem Extended.same (h : Extended ws s s') (hs : SameJournal s' s'') : Extended ws s s'' := by
  obtain ⟨⟨more, hmore⟩, hbase, hsnapshots⟩ := h
  refine ⟨⟨more, ?_⟩, ?_, ?_⟩
  · rw [hs.journal, hs.root]
    exact hmore
  · rw [hs.root, hbase]
  · rw [hs.root, hsnapshots]

theorem compactJournal_cases (h : Opened ws es s) (label : String) :
    ¬ s.Compacts label ∧ Extended ws s (s.compactJournal label).2 ∨
      s.Compacts label ∧ Compacted ws s (s.compactJournal label).2 := by
  unfold Sys.compactJournal
  split
  · rename_i hstate
    exact Or.inl ⟨fun hc => hstate hc.1, .of_same h ⟨rfl, rfl⟩⟩
  · rename_i hstate
    extract_lets name
    have htick : SameJournal s s.tick := ⟨rfl, rfl⟩
    have hticked : Opened ws es s.tick := h.congr rfl rfl rfl rfl
    have hkept : ¬ s.Compacts label ∧ Extended ws s (s.tick.compactFiles name).2 ∨
        s.Compacts label ∧ Compacted ws s (s.tick.compactFiles name).2 := by
      rcases compactFiles_cases hticked name with ⟨hname, hsame⟩ | ⟨hname, hcompacted⟩
      · exact Or.inl ⟨fun hc => hname hc.2, .of_same h (htick.trans hsame)⟩
      · exact Or.inr ⟨⟨not_not.mp hstate, hname⟩, hcompacted.journal, hcompacted.base,
          hcompacted.snapshots⟩
    split
    · rename_i e s1 hs1
      rw [hs1] at hkept
      exact hkept
    · rename_i s1 hs1
      rw [hs1] at hkept
      have hsame : SameJournal s1 ((s1.withEngine fun e =>
          { e with containmentSequence := .null, recoverySequence := .null }).saveState.audit
            "journal_compacted" [("snapshot_name", .str name)]) := by
        refine SameJournal.audit (SameJournal.saveState ?_) _ _
        exact ⟨rfl, rfl⟩
      exact hkept.imp (fun hk => ⟨hk.1, hk.2.same hsame⟩) fun hc => ⟨hc.1, hc.2.same hsame⟩

theorem exitMaintenance_cases (h : Opened ws es s) (compact : Bool) :
    ¬ EngineCall.Compacts s (.exitMaintenance compact) ∧
        Extended ws s (s.exitMaintenance compact).2 ∨
      EngineCall.Compacts s (.exitMaintenance compact) ∧
        Compacted ws s (s.exitMaintenance compact).2 := by
  unfold Sys.exitMaintenance
  split
  · rename_i hstate
    exact Or.inl ⟨fun hc => hstate hc.1, .of_same h ⟨rfl, rfl⟩⟩
  rename_i hstate
  split
  · rename_i hcompact
    have hcases := compactJournal_cases h "pre-maintenance"
    split
    · rename_i e s1 hs1
      rw [hs1] at hcases
      exact hcases.imp (fun hk => ⟨fun hc => hk.1 hc.2.2, hk.2⟩)
        fun hc => ⟨⟨not_not.mp hstate, hcompact, hc.1⟩, hc.2⟩
    · rename_i name s1 hs1
      rw [hs1] at hcases
      have hsame := SameJournal.leaveMaintenance s1 (some name)
      exact hcases.imp (fun hk => ⟨fun hc => hk.1 hc.2.2, hk.2.same hsame⟩)
        fun hc => ⟨⟨not_not.mp hstate, hcompact, hc.1⟩, hc.2.same hsame⟩
  · rename_i hcompact
    exact Or.inl ⟨fun hc => hcompact hc.2.1, .of_same h (.leaveMaintenance s none)⟩

/-- **What a call does to the journal**: it compacts it, or the journal grows at most. -/
theorem EngineCall.journal_cases (h : Ledgers ws es s) (c : EngineCall) :
    ¬ c.Compacts s ∧ Extended ws s (c.run s).2 ∨ c.Compacts s ∧ Compacted ws s (c.run s).2 := by
  cases c with
  | read lba blocks => exact Or.inl ⟨id, .of_same h.toOpened ⟨rfl, rfl⟩⟩
  | write lba payload => exact Or.inl ⟨id, write_extends h lba payload⟩
  | flush => exact Or.inl ⟨id, .of_same h.toOpened ⟨rfl, rfl⟩⟩
  | rejectDestructiveCommand opcode name =>
    exact Or.inl ⟨id, .of_same h.toOpened (.rejectDestructiveCommand s opcode name)⟩
  | authorizeRecovery token verifier presence now =>
    exact Or.inl ⟨id, .of_same h.toOpened (.authorizeRecovery s token verifier presence now)⟩
  | enterMaintenance token verifier presence now =>
    exact Or.inl ⟨id, .of_same h.toOpened (.enterMaintenance s token verifier presence now)⟩
  | exitMaintenance compact => exact exitMaintenance_cases h.toOpened compact
  | compactJournal label => exact compactJournal_cases h.toOpened label

/-- The writes of a journal that the ledgers hold under another list. -/
theorem Ledgers.of_canonical (h : Ledgers ws es s) {ws' : List (Write md)}
    (hcanon : Canonical W.R ws' s.engine.journal s.disk.root.toDir) : Ledgers ws' es s :=
  ⟨⟨hcanon, h.tail, h.limit, h.hash, h.active, h.reads⟩, h.chain⟩

theorem Good.of_canonical {p : Saved W.R} (h : Good ws es p s) {ws' : List (Write md)}
    (hcanon : Canonical W.R ws' s.engine.journal s.disk.root.toDir) : Good ws' es p s :=
  ⟨h.toLedgers.of_canonical hcanon, h.nonempty, h.file, h.record, h.state, h.version, h.sound⟩

theorem Good.tick {p : Saved W.R} (h : Good ws es p s) : Good ws es p s.tick :=
  ⟨h.toLedgers.congr rfl rfl rfl rfl, h.nonempty, h.file, h.record, h.state, h.version, h.sound⟩

/-- The journal after a write. -/
abbrev Sys.journalWith (s : Sys W) (ws : List (Write md)) (w : Write md) : DurableJournal :=
  ⟨md, (cursorOf W.R ws).advance W.R w, s.engine.journal.recoveredTail⟩

/-- **A write that passes the gate** is recorded, with the image before it for the analyzer. -/
theorem write_eq (h : Ledgers ws es s) (hstate : s.engine.state ∈ AegisState.writable)
    (w : Write md) :
    s.write w.start w.data =
      s.writeRecorded w.start w.data (blocksOf (imageOf s.disk.root.base ws) w.start w.count)
        (w.line W.R (cursorOf W.R ws)) (s.journalWith ws w) := by
  have hsize : s.engine.journal.blockSize = md.blockSize :=
    congrArg Metadata.blockSize h.journal.metadata
  have hread : s.engine.journal.read W.R s.disk.root.toDir w.start w.count none = .ok _ :=
    h.journal.read_current w.count_pos w.inRange
  have hprepare := h.journal.prepare w
  unfold Sys.write
  rw [if_neg (not_not.mpr hstate), hsize, if_neg (not_not.mpr w.aligned)]
  extract_lets blocks
  have hblocks : blocks = w.count := rfl
  rw [hblocks, hread]
  dsimp only
  rw [hprepare]

theorem write_records (h : Ledgers ws es s) (hstate : s.engine.state ∈ AegisState.writable)
    (w : Write md) :
    Canonical W.R (ws ++ [w]) (s.write w.start w.data).2.engine.journal
      (s.write w.start w.data).2.disk.root.toDir := by
  have hcanon : Canonical W.R (ws ++ [w]) (s.journalWith ws w)
      (s.disk.root.toDir.extend (w.line W.R (cursorOf W.R ws))) := by
    refine ⟨rfl, (cursorOf_concat ws w).symm, h.journal.file, h.journal.size, ?_⟩
    rw [Dir.extend, logOf_concat, ← h.journal.log]
  have hsame := SameJournal.writeRecorded s w.start w.data
    (blocksOf (imageOf s.disk.root.base ws) w.start w.count) (w.line W.R (cursorOf W.R ws))
    (s.journalWith ws w)
  rw [write_eq h hstate w, hsame.journal, hsame.root]
  exact hcanon

end Good

end AegisShield
