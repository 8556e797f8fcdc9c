/-
# The two ledgers under an engine

`Ledgers ws es s`: the journal is that of the writes `ws`, and the active audit file is the chain
of the entries `es`.  Every part of a call keeps this with other lists, and so does the
construction of an engine from files that an earlier one left behind.

A crash can leave an active file behind that is no chain: one whose last line lacks its newline.
The next engine accepts it, and whether its first append makes a chain of it depends on the size:
only a rotation does.  `Reads` covers both kinds of file; `Orderly` says that the files a step is
taken on are of this kind.
-/
import AegisShield.Engine.Effects
import AegisShield.Journal.CleanRun

namespace AegisShield

open Lib Relation

/-! ## 1. Audit files that can be continued -/

section Audit

variable {R : Runtime}

variable (R) in
/-- The active file reads as the entries `es`, and an append leaves a chain. -/
structure Reads (es : List (AuditEntry R)) (files : AuditFiles) : Prop where
  verify : verifyFile R (files.active.getD []) = .ok (hashOf R es)
  recorded : recordedStateDigest R (files.active.getD []) = .ok (digestIn es)
  ready : files.active.getD [] = chainOf R es ∨ defaultMaxBytes ≤ files.size

theorem Reads.of_chain {es : List (AuditEntry R)} {files : AuditFiles}
    (h : files.active.getD [] = chainOf R es) : Reads R es files where
  verify := by rw [h]; exact verifyFile_chainOf es
  recorded := by rw [h]; exact recordedStateDigest_chainOf es
  ready := Or.inl h

/-- A long file may lack its last newline. -/
theorem Reads.of_unterminated {es : List (AuditEntry R)} {e : AuditEntry R} {files : AuditFiles}
    (h : files.active.getD [] = chainOf R es ++ e.text (hashOf R es))
    (hsize : defaultMaxBytes ≤ files.size) : Reads R (es ++ [e]) files where
  verify := by rw [h]; exact verifyFile_unterminated es e
  recorded := by rw [h]; exact recordedStateDigest_unterminated es e
  ready := Or.inr hsize

theorem Chained.reads {es : List (AuditEntry R)} {log : AuditLog} {files : AuditFiles}
    (h : Chained R es log files) : Reads R es files :=
  Reads.of_chain (by rw [h.active]; rfl)

variable (R) in
/-- A step is taken on a file that reads, and what it writes is the next entry of a chain. -/
def ChainStep (files : AuditFiles) (step : AuditEffect) : Prop :=
  ∃ es, Reads R es files ∧ ∀ line, step = .write line →
    files.active.getD [] = chainOf R es ∧ ∃ e : AuditEntry R, line = e.line (hashOf R es)

theorem Chained.record_step {es : List (AuditEntry R)} {log : AuditLog} {files : AuditFiles}
    (h : Chained R es log files) (e : AuditEntry R) :
    ChainStep R files (log.record R e.event e.details e.timestampNs).1 := by
  refine ⟨es, h.reads, ?_⟩
  intro line hline
  refine ⟨by rw [h.active]; rfl, e, ?_⟩
  rw [AuditLog.record, AuditEffect.write.injEq, h.hash] at hline
  exact hline.symm

theorem rotate_steps {es : List (AuditEntry R)} {log : AuditLog} {files : AuditFiles} {bs : Bytes}
    (h : Reads R es files) (hactive : files.active = some bs) (timestampNs : Nat) :
    Along (fun f s => AuditEffect.apply s f) (ChainStep R) files
      (log.rotate R files timestampNs).1 := by
  have hnil : Reads R [] ((AuditEffect.rename (AuditLog.nextArchive files.archives)).apply files) :=
    Reads.of_chain (by simp only [AuditEffect.apply, hactive]; rfl)
  have hempty : Reads R [] (AuditEffect.create.apply
      ((AuditEffect.rename (AuditLog.nextArchive files.archives)).apply files)) :=
    Reads.of_chain (by simp only [AuditEffect.apply, hactive]; rfl)
  refine ⟨⟨es, h, ?_⟩, ⟨[], hnil, ?_⟩, ⟨[], hempty, ?_⟩, trivial⟩
  · intro line hline
    cases hline
  · intro line hline
    cases hline
  · intro line hline
    refine ⟨by simp only [AuditEffect.apply, hactive]; rfl, boundary log files timestampNs, ?_⟩
    rw [AuditEffect.write.injEq] at hline
    exact hline.symm

/-- The entries of the active file after an append. -/
def entriesAfter (log : AuditLog) (files : AuditFiles) (clock : Nat → Nat)
    (es : List (AuditEntry R)) (event : String) (details : Dict R.Value)
    (hwf : (Json.obj details).Wf) : List (AuditEntry R) :=
  if log.full files then [boundary log files (clock 0), ⟨event, details, clock 1, hwf⟩]
  else es ++ [⟨event, details, clock 0, hwf⟩]

/-- **An append leaves a chain**, and each of its steps is taken on a file that reads. -/
theorem Reads.append {es : List (AuditEntry R)} {log : AuditLog} {files : AuditFiles} {bs : Bytes}
    (h : Reads R es files) (hactive : files.active = some bs) (hhash : log.lastHash = hashOf R es)
    (hlimit : log.maxBytes = defaultMaxBytes) (clock : Nat → Nat) (event : String)
    {details : Dict R.Value} (hwf : (Json.obj details).Wf) :
    Chained R (entriesAfter log files clock es event details hwf)
        (log.append R files clock event details).2.1
        (applyAudit (log.append R files clock event details).1 files) ∧
      Along (fun f s => AuditEffect.apply s f) (ChainStep R) files
        (log.append R files clock event details).1 := by
  by_cases hf : log.full files
  · simp only [AuditLog.append, entriesAfter, hf, if_true]
    have hrotated : Chained R _ _ _ := rotate_chained log hactive (clock 0)
    constructor
    · rw [applyAudit, List.foldl_append]
      exact hrotated.record ⟨event, details, clock 1, hwf⟩
    · exact (rotate_steps h hactive (clock 0)).append
        ⟨hrotated.record_step ⟨event, details, clock 1, hwf⟩, trivial⟩
  · simp only [AuditLog.append, entriesAfter, hf]
    -- a file below the limit is a chain
    have hsmall : ¬ defaultMaxBytes ≤ files.size := by
      intro hsize
      apply hf
      rw [AuditLog.full, hlimit, Bool.and_eq_true, decide_eq_true_eq, decide_eq_true_eq]
      exact ⟨by decide, hsize⟩
    have hchain : files.active = some (chainOf R es) := by
      have hget := h.ready.resolve_right hsmall
      rw [hactive] at hget ⊢
      exact congrArg some hget
    have hchained : Chained R es log files := ⟨hchain, hhash⟩
    exact ⟨hchained.record ⟨event, details, clock 0, hwf⟩,
      hchained.record_step ⟨event, details, clock 0, hwf⟩, trivial⟩

section Entries

variable {log : AuditLog} {files : AuditFiles} {clock : Nat → Nat} {es : List (AuditEntry R)}
  {event : String} {details : Dict R.Value} {hwf : (Json.obj details).Wf}

theorem entriesAfter_ne_nil : entriesAfter log files clock es event details hwf ≠ [] := by
  unfold entriesAfter
  split <;> simp

/-- A new file starts without a record. -/
theorem unrecorded_rotated {e : AuditEntry R} (timestampNs : Nat)
    (he : e.event ≠ "state_persisted") : Unrecorded [boundary log files timestampNs, e] := by
  intro f hf
  simp only [List.mem_cons, List.not_mem_nil, or_false] at hf
  rcases hf with rfl | rfl
  · exact (by decide : "rotation_boundary" ≠ "state_persisted")
  · exact he

/-- An entry that records no state leaves a chain without a record without one. -/
theorem Unrecorded.entriesAfter (h : Unrecorded es) (hevent : event ≠ "state_persisted") :
    Unrecorded (entriesAfter log files clock es event details hwf) := by
  unfold AegisShield.entriesAfter
  split
  · exact unrecorded_rotated _ hevent
  · intro e he
    rcases List.mem_append.mp he with he | he
    · exact h e he
    · rw [List.mem_singleton] at he
      rw [he]
      exact hevent

/-- The chain records nothing, or this digest last. -/
def Records (digest : String) (es : List (AuditEntry R)) : Prop :=
  Unrecorded es ∨ digestIn es = .str digest

/-- **A rotation is the only way to lose the record.** -/
theorem Records.entriesAfter {digest : String} (h : Records digest es)
    (hevent : event ≠ "state_persisted") :
    Records digest (entriesAfter log files clock es event details hwf) := by
  rcases h with h | h
  · exact Or.inl (h.entriesAfter hevent)
  · unfold AegisShield.entriesAfter
    split
    · exact Or.inl (unrecorded_rotated _ hevent)
    · right
      rw [digestIn_concat, AuditEntry.digestAfter, if_neg hevent, h]

theorem digestIn_entriesAfter {digest : String}
    (hwf : (Json.obj [("digest", .str digest)] : R.Value).Wf) :
    digestIn (AegisShield.entriesAfter log files clock es "state_persisted"
      [("digest", .str digest)] hwf) = .str digest := by
  unfold AegisShield.entriesAfter
  split
  · rfl
  · rw [digestIn_concat]
    rfl

end Entries

theorem append_maxBytes (log : AuditLog) (files : AuditFiles) (clock : Nat → Nat) (event : String)
    (details : Dict R.Value) : (log.append R files clock event details).2.1.maxBytes = log.maxBytes := by
  unfold AuditLog.append
  split <;> rfl

end Audit

/-! ## 2. An engine and its ledgers -/

section Ledgers

variable {W : World} {md : Metadata}

variable (W md) in
/-- The files a durable step is taken on: a journal, and an audit file that reads.  An audit entry
is only ever written behind a chain. -/
def Orderly (d : Disk) (e : Effect) : Prop :=
  (∃ ws : List (Write md), ∃ j, Canonical W.R ws j d.root.toDir) ∧
    ∃ es, Reads W.R es d.audit ∧ ∀ line, e = .audit (.write line) →
      d.audit.active.getD [] = chainOf W.R es ∧ ∃ x : AuditEntry W.R, line = x.line (hashOf W.R es)

/-- A new engine: the audit file reads as `es`. -/
structure Opened (ws : List (Write md)) (es : List (AuditEntry W.R)) (s : Sys W) : Prop where
  journal : Canonical W.R ws s.engine.journal s.disk.root.toDir
  tail : s.engine.journal.recoveredTail = none
  limit : s.engine.audit.maxBytes = defaultMaxBytes
  hash : s.engine.audit.lastHash = hashOf W.R es
  active : ∃ bs, s.disk.audit.active = some bs
  reads : Reads W.R es s.disk.audit

/-- A running engine: the audit file is the chain of `es`. -/
structure Ledgers (ws : List (Write md)) (es : List (AuditEntry W.R)) (s : Sys W) : Prop
    extends Opened ws es s where
  chain : s.disk.audit.active = some (chainOf W.R es)

variable {ws : List (Write md)} {es : List (AuditEntry W.R)} {s s' : Sys W}

/-- The parts of a system the ledgers depend on. -/
theorem Opened.congr (h : Opened ws es s) (hj : s'.engine.journal = s.engine.journal)
    (ha : s'.engine.audit = s.engine.audit) (hroot : s'.disk.root = s.disk.root)
    (hfiles : s'.disk.audit = s.disk.audit) : Opened ws es s' where
  journal := by rw [hj, hroot]; exact h.journal
  tail := by rw [hj]; exact h.tail
  limit := by rw [ha]; exact h.limit
  hash := by rw [ha]; exact h.hash
  active := by rw [hfiles]; exact h.active
  reads := by rw [hfiles]; exact h.reads

theorem Ledgers.congr (h : Ledgers ws es s) (hj : s'.engine.journal = s.engine.journal)
    (ha : s'.engine.audit = s.engine.audit) (hroot : s'.disk.root = s.disk.root)
    (hfiles : s'.disk.audit = s.disk.audit) : Ledgers ws es s' :=
  ⟨h.toOpened.congr hj ha hroot hfiles, by rw [hfiles]; exact h.chain⟩

/-- The object's journal, written out. -/
theorem Opened.journal_eq (h : Opened ws es s) :
    s.engine.journal = ⟨md, cursorOf W.R ws, none⟩ := by
  have hmd := h.journal.metadata
  have hcursor := h.journal.cursor
  have htail := h.tail
  generalize s.engine.journal = j at hmd hcursor htail
  obtain ⟨jmd, cur, tail⟩ := j
  obtain rfl : jmd = md := hmd
  obtain rfl : cur = cursorOf W.R ws := hcursor
  obtain rfl : tail = none := htail
  rfl

theorem Opened.orderly (h : Opened ws es s) {e : Effect} (he : ∀ step, e ≠ .audit step) :
    Orderly W md s.disk e :=
  ⟨⟨ws, _, h.journal⟩, es, h.reads, fun _ hline => absurd hline (he _)⟩

/-- The entries after an audit entry. -/
abbrev Sys.entriesAfter (s : Sys W) (es : List (AuditEntry W.R)) (event : String)
    (details : Dict W.R.Value) (hwf : (Json.obj details).Wf) : List (AuditEntry W.R) :=
  AegisShield.entriesAfter s.engine.audit s.disk.audit (fun i => W.clock.timeNs (s.ticks + i)) es
    event details hwf

/-- **An audit entry.** -/
theorem Opened.audit (h : Opened ws es s) (event : String) {details : Dict W.R.Value}
    (hwf : (Json.obj details).Wf) :
    Ledgers ws (s.entriesAfter es event details hwf) (s.audit event details) ∧
      Emits (Orderly W md) s (s.audit event details) := by
  obtain ⟨bs, hbs⟩ := h.active
  obtain ⟨hchain, hsteps⟩ := h.reads.append hbs h.hash h.limit
    (fun i => W.clock.timeNs (s.ticks + i)) event hwf
  have hlimit := append_maxBytes s.engine.audit s.disk.audit
    (fun i => W.clock.timeNs (s.ticks + i)) event details
  refine ⟨⟨⟨h.journal, h.tail, hlimit.trans h.limit, hchain.hash, ⟨_, hchain.active⟩,
    hchain.reads⟩, hchain.active⟩, Emits.audit (hsteps.mono ?_)⟩
  rintro files step ⟨es', hreads, hwrite⟩
  refine ⟨⟨ws, _, h.journal⟩, es', hreads, ?_⟩
  intro line hline
  exact hwrite line (Effect.audit.inj hline)

/-- **A journal record.** -/
theorem Ledgers.record (h : Ledgers ws es s) {lba : Int} {payload line : Bytes}
    {journal : DurableJournal} (hprepare : s.engine.journal.prepare W.R lba payload =
      .ok (line, journal)) :
    ∃ w : Write md, Ledgers (ws ++ [w]) es ((s.emit (.journal line)).withEngine fun e =>
        { e with journal := journal }) ∧
      Emits (Orderly W md) s ((s.emit (.journal line)).withEngine fun e =>
        { e with journal := journal }) := by
  obtain ⟨w, rfl, rfl⟩ : ∃ w : Write md, lba = w.start ∧ payload = w.data := by
    have hmd := h.journal.metadata
    generalize s.engine.journal = j at hprepare hmd
    obtain ⟨jmd, cur, tail⟩ := j
    obtain rfl : jmd = md := hmd
    exact prepare_inv hprepare
  rw [h.journal.prepare w] at hprepare
  cases hprepare
  have hcanon : Canonical W.R (ws ++ [w])
      ⟨md, (cursorOf W.R ws).advance W.R w, s.engine.journal.recoveredTail⟩
      (s.disk.root.toDir.extend (w.line W.R (cursorOf W.R ws))) := by
    refine ⟨rfl, (cursorOf_concat ws w).symm, h.journal.file, h.journal.size, ?_⟩
    rw [Dir.extend, logOf_concat, ← h.journal.log]
  refine ⟨w, ⟨⟨hcanon, h.tail, h.limit, h.hash, h.active, h.reads⟩, h.chain⟩, ?_⟩
  exact (Emits.emit (h.orderly fun step hstep => by cases hstep)).trans (Emits.of_eq rfl rfl)

/-- **A compaction**, or an attempt at one. -/
theorem Ledgers.compactFiles (h : Ledgers ws es s) (name : String) :
    ∃ ws' : List (Write md), Ledgers ws' es (s.compactFiles name).2 ∧
      Emits (Orderly W md) s (s.compactFiles name).2 := by
  unfold Sys.compactFiles
  split
  · exact ⟨ws, h, Emits.of_eq rfl rfl⟩
  · rename_i r hr
    extract_lets s1
    have hm : s1.engine.journal.materialise W.R s1.disk.root.toDir =
        .ok (blocksOf (imageOf s.disk.root.base ws) 0 md.blocks) := h.journal.materialise
    have hsize : (blocksOf (imageOf s.disk.root.base ws) 0 md.blocks).length =
        md.blocks * md.blockSize :=
      length_flatten_blocks _ 0 md.blocks fun i _ hi => length_imageOf h.journal.size ws (by omega)
    rw [hm]
    generalize blocksOf (imageOf s.disk.root.base ws) 0 md.blocks = image at hsize
    have h1 : Ledgers ws es s1 :=
      ⟨⟨h.journal, h.tail, h.limit, h.hash, h.active, h.reads⟩, h.chain⟩
    have h2 : Ledgers ws es (s1.emit (.base image)) :=
      ⟨⟨⟨h.journal.metadata, h.journal.cursor, h.journal.file, hsize, h.journal.log⟩, h.tail, h.limit,
        h.hash, h.active, h.reads⟩, h.chain⟩
    refine ⟨[], ⟨⟨⟨h.journal.metadata, rfl, h.journal.file, hsize, rfl⟩, h.tail, h.limit, h.hash,
      h.active, h.reads⟩, h.chain⟩, ?_⟩
    have e1 : Emits (Orderly W md) s s1 := Emits.emit (h.orderly fun step hstep => by cases hstep)
    have e2 : Emits (Orderly W md) s1 (s1.emit (.base image)) :=
      Emits.emit (h1.orderly fun step hstep => by cases hstep)
    have e3 : Emits (Orderly W md) (s1.emit (.base image)) ((s1.emit (.base image)).emit .emptyLog) :=
      Emits.emit (h2.orderly fun step hstep => by cases hstep)
    exact ((e1.trans e2).trans e3).trans (Emits.of_eq rfl rfl)

end Ledgers

end AegisShield
