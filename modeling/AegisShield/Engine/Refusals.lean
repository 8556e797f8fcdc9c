/-
# Refused calls

A call that raises has changed nothing: every method checks its arguments and the state before it
touches anything.  The exception is `read`, which shows the event to the analyzer before the journal
checks the range.  A refused read then stands in the window and among the recent reads, where later
writes find it.

So a refused call leaves no trace exactly if it is not a read, or if the window and the queue of
reads are full of this very read already (`refused_calls_leave_no_trace_iff`).
-/
import AegisShield.Engine.Maintenance
import AegisShield.Detection.Census

namespace AegisShield

open Lib

/-- Engine and files are as they were. -/
def Sys.Untouched {W : World} (s s' : Sys W) : Prop := s'.engine = s.engine ∧ s'.disk = s.disk

/-! ## 1. The methods that check first -/

section Checked

variable {W : World} {s : Sys W} {e : Raised}

theorem Sys.Untouched.refl (s : Sys W) : s.Untouched s := ⟨rfl, rfl⟩

theorem Sys.Untouched.tick (s : Sys W) : s.Untouched s.tick := ⟨rfl, rfl⟩

/-- An outcome that is not an error. -/
theorem ok_ne_error {α : Type} {r : Except Raised α} {a : α} (hok : r = .ok a)
    (h : r = .error e) : False := by
  rw [hok] at h
  cases h

theorem authorizeRecovery_refused {token : String} {verifier : TokenVerifier} {presence : Bool}
    {now : Option Int} (h : (s.authorizeRecovery token verifier presence now).1 = .error e) :
    s.Untouched (s.authorizeRecovery token verifier presence now).2 := by
  unfold Sys.authorizeRecovery at h ⊢
  split
  · exact .refl s
  rename_i hstate
  rw [if_neg hstate] at h
  split
  · exact .refl s
  rename_i hpresence
  rw [if_neg hpresence] at h
  split
  · exact .tick s
  rename_i a ha
  rw [ha] at h
  dsimp only at h
  split
  · exact .tick s
  rename_i hnonce
  rw [if_neg hnonce] at h
  split
  · exact .tick s
  rename_i target htarget
  rw [htarget] at h
  dsimp only at h
  split
  · exact .tick s
  · rename_i hrange
    rw [if_neg hrange] at h
    refine (ok_ne_error (Sys.transition_ok ?_ _) h).elim
    change AegisState.recoveryReadOnly ∈ s.engine.state.allowed
    rw [not_not.mp hstate]
    decide

theorem enterMaintenance_refused {token : String} {verifier : TokenVerifier} {presence : Bool}
    {now : Option Int} (h : (s.enterMaintenance token verifier presence now).1 = .error e) :
    s.Untouched (s.enterMaintenance token verifier presence now).2 := by
  unfold Sys.enterMaintenance at h ⊢
  split
  · exact .refl s
  rename_i hstate
  rw [if_neg hstate] at h
  split
  · exact .refl s
  rename_i hpresence
  rw [if_neg hpresence] at h
  split
  · exact .tick s
  rename_i a ha
  rw [ha] at h
  dsimp only at h
  split
  · exact .tick s
  · rename_i hnonce
    rw [if_neg hnonce] at h
    exact (ok_ne_error (Sys.transition_ok (by
      exact AegisState.maintenance_allowed (not_not.mp hstate)) _) h).elim

variable {md : Metadata} {ws : List (Write md)} {es : List (AuditEntry W.R)} {p : Saved W.R}

/-- A write is refused by its checks alone. -/
theorem write_error (hs : Good ws es p s) {lba : Int} {payload : Bytes}
    (htime : W.detector.IgnoresTime) (h : (s.write lba payload).1 = .error e) :
    s.Untouched (s.write lba payload).2 := by
  cases hrefusal : writeRefusal md s.engine.state lba payload with
  | some e' =>
    rw [write_refused hs.toLedgers hrefusal]
    exact .refl s
  | none =>
    obtain ⟨hstate, w, rfl, rfl⟩ := exists_write hrefusal
    obtain ⟨hok, -, -⟩ := writeRecorded_answer htime hstate hs.journal.metadata w
      (imageOf s.disk.root.base ws) (w.line W.R (cursorOf W.R ws)) (s.journalWith ws w)
    rw [← write_eq hs.toLedgers hstate w] at hok
    exact (ok_ne_error hok h).elim

theorem compactFiles_refused (hs : Good ws es p s) {name : String}
    (h : (s.compactFiles name).1 = .error e) : s.Untouched (s.compactFiles name).2 := by
  unfold Sys.compactFiles at h ⊢
  split
  · exact .refl s
  · rename_i r hr
    rw [hr] at h
    dsimp only at h
    -- the image of a journal that is in order can be read
    have hm : s.engine.journal.materialise W.R (s.emit (.snapshots r.snapshots)).disk.root.toDir =
        .ok _ := hs.journal.materialise
    rw [show (s.emit (.snapshots r.snapshots)).engine = s.engine from rfl, hm] at h
    cases h

theorem compactJournal_refused (hs : Good ws es p s) {label : String}
    (h : (s.compactJournal label).1 = .error e) : s.Untouched (s.compactJournal label).2 := by
  unfold Sys.compactJournal at h ⊢
  split
  · exact .refl s
  rename_i hstate
  rw [if_neg hstate] at h
  dsimp only at h ⊢
  cases hfiles : s.tick.compactFiles _ with
  | mk r m =>
    cases r with
    | error e' =>
      have hsame := compactFiles_refused hs.tick (congrArg Prod.fst hfiles)
      rw [hfiles] at hsame
      exact hsame
    | ok _ =>
      rw [hfiles] at h
      cases h

theorem exitMaintenance_refused (hs : Good ws es p s) {compact : Bool}
    (h : (s.exitMaintenance compact).1 = .error e) : s.Untouched (s.exitMaintenance compact).2 := by
  unfold Sys.exitMaintenance at h ⊢
  split
  · exact .refl s
  rename_i hstate
  rw [if_neg hstate] at h
  split
  · rename_i hcompact
    rw [if_pos hcompact] at h
    cases hcompaction : s.compactJournal "pre-maintenance" with
    | mk r m =>
      cases r with
      | error e' =>
        have hsame := compactJournal_refused hs (congrArg Prod.fst hcompaction)
        rw [hcompaction] at hsame
        exact hsame
      | ok name =>
        have hm := (compactJournal_frame s "pre-maintenance").1
        rw [hcompaction] at h hm
        exact (ok_ne_error (leaveMaintenance_ok (hm.trans (not_not.mp hstate)) _) h).elim
  · rename_i hcompact
    rw [if_neg hcompact] at h
    exact (ok_ne_error (leaveMaintenance_ok (not_not.mp hstate) _) h).elim

end Checked

/-! ## 2. Observing a read -/

section Reading

variable {K : Type} [Arith K]

theorem eq_of_rotated {α : Type} {x : α} {xs : List α} (h : (xs ++ [x]).tail = xs) :
    ∀ y ∈ xs, y = x := by
  induction xs using List.reverseRecOn with
  | nil => nofun
  | append_singleton ys z ih =>
    rw [List.append_assoc, List.singleton_append] at h
    cases ys with
    | nil =>
      cases h
      simp
    | cons y ys =>
      have hsplit : (ys ++ [z]) ++ [x] = (y :: ys) ++ [z] := by simpa using h
      obtain ⟨hrest, hlast⟩ := List.append_inj' hsplit rfl
      cases hlast
      intro w hw
      rcases List.mem_append.mp hw with hw | hw
      · exact ih hrest w hw
      · exact List.mem_singleton.mp hw

/-- A bounded queue is the same after `append` if it is full of what is appended. -/
theorem pushBounded_eq_self_iff {α : Type} {n : Nat} {xs : List α} {x : α} :
    pushBounded n xs x = xs ↔ xs.length = n ∧ ∀ y ∈ xs, y = x := by
  rw [pushBounded]
  constructor
  · intro h
    have hlen := congrArg List.length h
    rw [List.length_drop, List.length_append, List.length_singleton] at hlen
    have hn : xs.length = n := by omega
    have hdrop : xs.length + 1 - n = 1 := by omega
    rw [hdrop, List.drop_one] at h
    exact ⟨hn, eq_of_rotated h⟩
  · rintro ⟨hlen, hall⟩
    have hdrop : xs.length + 1 - n = 1 := by omega
    have hxs : xs = List.replicate xs.length x := List.eq_replicate_iff.mpr ⟨rfl, hall⟩
    have hlonger : xs ++ [x] = List.replicate (xs.length + 1) x := by
      rw [List.replicate_succ', ← hxs]
    rw [hdrop, hlonger, List.drop_replicate, Nat.add_sub_cancel, ← hxs]

namespace WindowAnalyzer

/-- The observation of a read. -/
def readObservation (a : WindowAnalyzer K) (lba blocks : Int) : Observation K where
  kind := .read
  lba := lba
  blocks := blocks
  entropy := Arith.ofRat 0
  highEntropy := Arith.le a.config.highEntropyBitsPerByte (Arith.ofRat 0)
  overwrite := false
  changedFraction := Arith.ofRat 0
  sequential := false
  readBeforeWrite := false
  destructive := false

/-- The window and the queue of reads are full of one read. -/
def Saturated (a : WindowAnalyzer K) (lba blocks : Int) : Prop :=
  (a.window.length = a.config.windowOperations ∧
      ∀ o ∈ a.window, o = a.readObservation lba blocks) ∧
    a.recentReads.length = a.config.windowOperations ∧
      ∀ r ∈ a.recentReads, r = (lba, lba + blocks)

/-- **Another read changes nothing** exactly then. -/
theorem record_read_eq_self_iff (a : WindowAnalyzer K) {event : IoEvent} (h : event.kind = .read) :
    a.record event (a.readObservation event.lba event.blocks) = a ↔
      a.Saturated event.lba event.blocks := by
  have hwindow : (a.record event (a.readObservation event.lba event.blocks)).window =
      pushBounded a.config.windowOperations a.window
        (a.readObservation event.lba event.blocks) := rfl
  have hreads : (a.record event (a.readObservation event.lba event.blocks)).recentReads =
      pushBounded a.config.windowOperations a.recentReads
        (event.lba, event.lba + event.blocks) := if_pos h
  constructor
  · intro hsame
    rw [hsame] at hwindow hreads
    exact ⟨pushBounded_eq_self_iff.mp hwindow.symm, pushBounded_eq_self_iff.mp hreads.symm⟩
  · rintro ⟨hfull, hqueue⟩
    rw [pushBounded_eq_self_iff.mpr hfull] at hwindow
    rw [pushBounded_eq_self_iff.mpr hqueue] at hreads
    have hkind : event.kind ≠ .write := by
      rw [h]
      decide
    -- the observation that leaves is a read, too
    have hcensus : (a.record event (a.readObservation event.lba event.blocks)).writtenBlocks =
        a.writtenBlocks := by
      rw [record]
      dsimp only
      rw [if_neg hkind]
      cases hitems : a.window with
      | nil => rfl
      | cons oldest rest =>
        have holdest := hfull.2 oldest (by rw [hitems]; exact List.mem_cons_self)
        have hretire : retire a.writtenBlocks oldest = a.writtenBlocks := by
          have hread : IoKind.read ≠ .write := by decide
          rw [retire, holdest]
          exact if_pos hread
        dsimp only
        rw [hretire, ite_self]
    have hend : (a.record event (a.readObservation event.lba event.blocks)).lastWriteEnd =
        a.lastWriteEnd := if_neg hkind
    obtain ⟨config, window, census, reads, lastEnd⟩ := a
    exact congr (congr (congr (congrArg (mk config) hwindow) hcensus) hreads) hend
end WindowAnalyzer

end Reading

/-! ## 3. Main result -/

section Refused

/-- The calls that leave no trace when they are refused: all but the reads that are news. -/
def EngineCall.Traceless {K : Type} [Arith K] (a : WindowAnalyzer K) : EngineCall → Prop
  | .read lba blocks => a.Saturated lba blocks
  | _ => True

theorem rejectDestructiveCommand_returns {W : World} (s : Sys W) (opcode : Int) (name : String) :
    ∃ decision, (s.rejectDestructiveCommand opcode name).1 = .ok decision := by
  unfold Sys.rejectDestructiveCommand
  extract_lets event s1 decision s2
  split
  · rename_i hwritable
    refine ⟨decision, ?_⟩
    dsimp only
    rw [Sys.transition_ok (by exact AegisState.contained_allowed hwritable)]
    rfl
  · exact ⟨decision, rfl⟩

variable {R : Runtime} [Arith R.Float] {log2 : R.Float → R.Float} {policy : Policy R.Float}
  {clock : Clock}

/-- **A read is observed**, whatever the journal makes of it. -/
theorem read_untouched_iff (s : Sys (World.deployed R log2 policy clock)) (lba blocks : Int)
    {a : WindowAnalyzer R.Float} (ha : s.engine.analyzer = a) :
    s.Untouched (s.read lba blocks).2 ↔ a.Saturated lba blocks := by
  let event : IoEvent :=
    { kind := .read, lba := lba, blocks := blocks, timestampNs := clock.timeNs s.ticks }
  have hanalyzer : (s.read lba blocks).2.engine.analyzer =
      a.record event (a.readObservation lba blocks) := by
    rw [← ha]
    rfl
  have hkind : event.kind = .read := rfl
  have hrecord := a.record_read_eq_self_iff hkind
  constructor
  · intro h
    exact hrecord.mp (hanalyzer.symm.trans ((congrArg Engine.analyzer h.1).trans ha))
  · intro h
    have hsame : (s.read lba blocks).2.engine.analyzer = s.engine.analyzer :=
      hanalyzer.trans ((hrecord.mpr h).trans ha.symm)
    have hengine : (s.read lba blocks).2.engine =
        { s.engine with analyzer := (s.read lba blocks).2.engine.analyzer } := rfl
    rw [hsame] at hengine
    exact ⟨hengine, rfl⟩

/-- **A refused call leaves no trace** exactly if it is not a read, or if the window and the queue of
reads are full of this read. -/
theorem refused_calls_leave_no_trace_iff {s : Sys (World.deployed R log2 policy clock)}
    (h : Reachable _ (.on s)) {c : EngineCall} {e : Raised} (hraised : (c.run s).1 = .error e)
    {a : WindowAnalyzer R.Float} (ha : s.engine.analyzer = a) :
    s.Untouched (c.run s).2 ↔ c.Traceless a := by
  obtain ⟨md, ws, es, p, hgood⟩ := h.good
  have herror : ∀ {α : Type} {r : Except Raised α}, (r.map fun _ => ()) = .error e → r = .error e := by
    intro α r hr
    cases r with
    | error e' =>
      cases hr
      rfl
    | ok x => cases hr
  cases c with
  | read lba blocks => exact read_untouched_iff s lba blocks ha
  | write lba payload =>
    exact iff_of_true (write_error hgood (windowed_ignoresTime R log2 policy) (herror hraised)) trivial
  | flush => cases hraised
  | rejectDestructiveCommand opcode name =>
    obtain ⟨decision, hok⟩ := rejectDestructiveCommand_returns s opcode name
    exact (ok_ne_error hok (herror hraised)).elim
  | authorizeRecovery token verifier presence now =>
    exact iff_of_true (authorizeRecovery_refused hraised) trivial
  | enterMaintenance token verifier presence now =>
    exact iff_of_true (enterMaintenance_refused hraised) trivial
  | exitMaintenance compact =>
    exact iff_of_true (exitMaintenance_refused hgood (herror hraised)) trivial
  | compactJournal label =>
    exact iff_of_true (compactJournal_refused hgood (herror hraised)) trivial

end Refused

/-- A write of one byte. -/
theorem refused_calls_leave_no_trace_iff_one_byte : ∃ dir : Dir,
    provision World.standard.R 4 512 "dev" = .ok dir ∧
    ((standardBoot dir).Untouched (EngineCall.run (standardBoot dir) (.write 0 [7])).2 ↔
      EngineCall.Traceless (WindowAnalyzer.new (AnalyzerConfig.forNamespace 4) :
        WindowAnalyzer Runtime.reference.Float) (.write 0 [7])) := by
  obtain ⟨dir, hdir⟩ := provision_four_blocks
  refine ⟨dir, hdir, ?_⟩
  have hon := reachable_standardBoot hdir
  have hstate : (standardBoot dir).engine.state = .normal := rfl
  have hsize : (standardBoot dir).engine.journal.blockSize = 512 := rfl
  have hanalyzer : (standardBoot dir).engine.analyzer =
    (WindowAnalyzer.new (AnalyzerConfig.forNamespace 4) :
      WindowAnalyzer Runtime.reference.Float) := rfl
  have hraised : (EngineCall.run (standardBoot dir) (.write 0 [7])).1 =
      .error (.valueError "payload must be block aligned") := by
    generalize standardBoot dir = s at hstate hsize ⊢
    have hwritable : ¬ s.engine.state ∉ AegisState.writable := by
      rw [hstate]
      decide
    have hodd : [(7 : UInt8)].length % s.engine.journal.blockSize ≠ 0 := by
      rw [hsize]
      decide
    rw [EngineCall.run, Sys.write, if_neg hwritable, if_pos hodd]
    rfl
  exact refused_calls_leave_no_trace_iff hon hraised hanalyzer

/-- **A refused read is observed.**  Block 4 of a namespace of four blocks is out of range, and
reading it raises; afterwards the analyzer remembers the read. -/
theorem refused_read_is_observed : ∃ dir : Dir, provision World.standard.R 4 512 "dev" = .ok dir ∧
    Reachable World.standard (.on (standardBoot dir)) ∧
    (∃ message, (EngineCall.run (standardBoot dir) (.read 4 1)).1 = .error (.valueError message)) ∧
    ¬ (standardBoot dir).Untouched (EngineCall.run (standardBoot dir) (.read 4 1)).2 := by
  obtain ⟨dir, hdir⟩ := provision_four_blocks
  have hanalyzer : (standardBoot dir).engine.analyzer =
    (WindowAnalyzer.new (AnalyzerConfig.forNamespace 4) :
      WindowAnalyzer Runtime.reference.Float) := rfl
  have hstate : (standardBoot dir).engine.state = .normal := rfl
  have hblocks : (standardBoot dir).engine.journal.blocks = 4 := rfl
  refine ⟨dir, hdir, reachable_standardBoot hdir, ?_, ?_⟩
  · generalize standardBoot dir = s at hstate hblocks ⊢
    have hrange : s.engine.journal.checkRange 4 1 =
        .error (.valueError "block range outside virtual namespace") := by
      rw [Metadata.checkRange, hblocks]
      rfl
    have hread : (s.read 4 1).1 = .error (.valueError "block range outside virtual namespace") := by
      rw [Sys.read, hstate]
      change s.engine.journal.read World.standard.R s.disk.root.toDir 4 1 none = _
      exact bind_of_error hrange
    refine ⟨"block range outside virtual namespace", ?_⟩
    rw [EngineCall.run, hread]
    rfl
  · intro h
    have hsaturated := (read_untouched_iff _ 4 1 hanalyzer).mp h
    exact absurd hsaturated.1.1 (by decide)

end AegisShield
