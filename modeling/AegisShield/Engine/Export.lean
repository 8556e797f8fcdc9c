/-
# The recovery export (`api/routers/recovery.py`, `DurableJournal.snapshot`)

`recovery_export` checks the target sequence, makes `snapshots/<name>`, copies the metadata and the
base image, scans `journal.jsonl` for the records up to the target, writes them, and opens the copy.
It holds no lock: the operations of the engine run between any two of these steps, and a compaction
replaces both files that it reads.

A bundle that mixes the base image before a compaction with the log after it opens without
complaint, since an empty log is a valid chain (`compaction_empties_export`).  As long as no
compaction that matters to the target falls between the making of the directory and the scan, and
none before has changed the history that the range check admitted, a successful export holds
exactly the history up to its target (`export_holds_history`).
-/
import AegisShield.Engine.JournalCalls
import AegisShield.Journal.PointInTime

namespace AegisShield

open Lib

/-! ## 1. The export -/

/-- The response to a request that failed. -/
structure HttpException where
  status : Nat
  detail : String
  deriving DecidableEq, Repr

/-- What `recovery_export` makes of an exception of `snapshot`.  It catches `FileExistsError`,
`OSError` and `ValueError`; the framework answers for the rest. -/
def snapshotFailed : Raised → HttpException
  | .fileExistsError => ⟨409, "snapshot already exists"⟩
  | .valueError _ | .jsonDecodeError | .unicodeDecodeError | .fileNotFoundError
  | .permissionError _ => ⟨500, "snapshot could not be created"⟩
  | _ => ⟨500, "Internal Server Error"⟩

/-- `_MAX_SNAPSHOTS`. -/
def maxSnapshots : Nat := 32

/-- How far a request is. -/
inductive ExportPhase
  | idle
  /-- The target is in range. -/
  | checked (target : Int)
  /-- `snapshots/<name>` is made. -/
  | made (target : Int) (name : String)
  /-- The metadata and the base image are in it. -/
  | copied (target : Int) (name : String)
  /-- The log is scanned. -/
  | scanned (target : Int) (name : String) (kept : List Bytes)
  /-- The kept records are in it. -/
  | saved (target : Int) (name : String)
  /-- The copy opened. -/
  | done (target : Int) (name : String)
  | failed (e : HttpException)

/-- The bundle of a name. -/
def Root.bundle (r : Root) (name : String) : Option Dir :=
  (r.snapshots.find? fun s => s.1 = name).map Prod.snd

/-- An engine and a `recovery_export` request.  `atCheck` is for the record: the engine at the
request's range check. -/
structure Exporting (W : World) where
  sys : Sys W
  phase : ExportPhase
  atCheck : Sys W

/-- A step of either. -/
inductive ExportOp
  /-- An operation of the engine. -/
  | call (c : EngineCall)
  /-- A request comes in, and its target is checked. -/
  | check (targetSequence : Option Int)
  /-- The next step of the request.  `token` is what `secrets.token_hex(3)` returns, should the
  step ask for it. -/
  | next (token : String)

section Export

variable {W : World}

/-- Change the files of a bundle. -/
def Sys.inBundle (s : Sys W) (name : String) (f : Dir → Dir) : Sys W :=
  s.emit (.snapshots (s.disk.root.snapshots.map fun b => if b.1 = name then (b.1, f b.2) else b))

/-- The checks of `snapshot`. -/
def DurableJournal.checkSnapshot (j : DurableJournal) (r : Root) (name : String) (atSequence : Int) :
    Except Raised Unit := do
  if name = "" ∨ name.toList.any (fun c => !DurableJournal.nameChar c) then
    throw (.valueError "snapshot name may contain only letters, digits, dash, and underscore")
  if ¬ (0 ≤ atSequence ∧ atSequence ≤ (j.lastSequence : Int)) then
    throw (.valueError "invalid snapshot sequence")
  if (r.snapshots.any fun s => s.1 = name) then throw .fileExistsError

namespace Exporting

/-- The range check of `recovery_export`. -/
def check (y : Exporting W) (targetSequence : Option Int) : Exporting W :=
  let last : Int := y.sys.engine.journal.lastSequence
  let target := targetSequence.getD last
  { y with
    phase := if 0 ≤ target ∧ target ≤ last then .checked target
      else .failed ⟨400, "Invalid target_sequence"⟩
    atCheck := y.sys }

/-- The limit, the name, the checks of `snapshot`, and `mkdir`. -/
def make (y : Exporting W) (target : Int) (token : String) : Exporting W :=
  let s := y.sys
  if maxSnapshots ≤ s.disk.root.snapshots.length then
    { y with phase := .failed ⟨507, s!"snapshot limit reached ({maxSnapshots}); " ++
      "remove old snapshots under the namespace's snapshots/ directory before exporting again"⟩ }
  else
    let name := s!"export-{W.clock.timeNs s.ticks}-seq{target}-{token}"
    match s.engine.journal.checkSnapshot s.disk.root name target with
    | .error e => { y with sys := s.tick, phase := .failed (snapshotFailed e) }
    | .ok () =>
      { y with sys := s.tick.emit (.snapshots ((name, ⟨[], [], [], []⟩) :: s.disk.root.snapshots))
               phase := .made target name }

/-- `shutil.copy2` of the metadata and the base image. -/
def copy (y : Exporting W) (target : Int) (name : String) : Exporting W :=
  { y with
    sys := y.sys.inBundle name fun d =>
      { d with metadata := y.sys.disk.root.metadata, base := y.sys.disk.root.base }
    phase := .copied target name }

/-- The scan of `journal.jsonl`. -/
def scan (y : Exporting W) (target : Int) (name : String) : Exporting W :=
  { y with
    phase := match DurableJournal.keptLines W.R target (splitLines y.sys.disk.root.log) with
      | .error e => .failed (snapshotFailed e)
      | .ok kept => .scanned target name kept }

/-- The kept records are written. -/
def save (y : Exporting W) (target : Int) (name : String) (kept : List Bytes) : Exporting W :=
  { y with sys := y.sys.inBundle name fun d => { d with log := kept.flatten }
           phase := .saved target name }

/-- The copy is opened. -/
def verify (y : Exporting W) (target : Int) (name : String) : Exporting W :=
  match y.sys.disk.root.bundle name with
  | none => { y with phase := .failed (snapshotFailed .fileNotFoundError) }
  | some bundle =>
    match DurableJournal.init W.R bundle with
    | .error e => { y with phase := .failed (snapshotFailed e) }
    | .ok (_, opened) =>
      { y with sys := y.sys.inBundle name fun _ => opened, phase := .done target name }

/-- The next step of the request. -/
def next (y : Exporting W) (token : String) : Exporting W :=
  match y.phase with
  | .checked target => y.make target token
  | .made target name => y.copy target name
  | .copied target name => y.scan target name
  | .scanned target name kept => y.save target name kept
  | .saved target name => y.verify target name
  | _ => y

end Exporting

/-- One step.  A request comes in once the one before it is answered. -/
def ExportOp.step (y : Exporting W) : ExportOp → Exporting W
  | .call c => { y with sys := (c.run y.sys).2 }
  | .check targetSequence =>
    match y.phase with
    | .idle | .done _ _ | .failed _ => y.check targetSequence
    | _ => y
  | .next token => y.next token

/-- A running engine, and no request. -/
def Exporting.start (s : Sys W) : Exporting W := ⟨s, .idle, s⟩

/-- **A successful export contains exactly the history it claims**: its bundle opens at the target,
and every block of it is what the live journal read at the target when the range was checked. -/
def Exporting.Exact (y : Exporting W) : Prop :=
  ∀ target name, y.phase = .done target name →
    ∃ bundle fresh, y.sys.disk.root.bundle name = some bundle ∧
      DurableJournal.init W.R bundle = .ok (fresh, bundle) ∧ (fresh.lastSequence : Int) = target ∧
      ∀ b < y.atCheck.engine.journal.blocks, ∃ image,
        y.atCheck.engine.journal.read W.R y.atCheck.disk.root.toDir b 1 (some target) = .ok image ∧
          fresh.read W.R bundle b 1 (some target) = .ok image ∧
          fresh.read W.R bundle b 1 none = .ok image

/-- Up to the target, the files are as they were at the range check. -/
def Exporting.Unmoved (y : Exporting W) (target : Int) : Prop :=
  y.sys.disk.root.base = y.atCheck.disk.root.base ∧
    DurableJournal.keptLines W.R target (splitLines y.sys.disk.root.log) =
      DurableJournal.keptLines W.R target (splitLines y.atCheck.disk.root.log)

/-- The condition on a step.  A request whose target is in range when it makes its directory finds
the files as they were at its range check; a target out of range is refused.  From then on to the
scan of the log nothing is compacted, or nothing that matters to target 0, of which the bundle holds
the base image alone. -/
def ExportOp.Harmless (y : Exporting W) : ExportOp → Prop
  | .call c => c.Compacts y.sys →
    match y.phase with
    | .made target _ =>
      target = 0 ∧ ImageIsBase W.R y.sys.engine.journal y.sys.disk.root.toDir
    | .copied target _ => target = 0
    | _ => True
  | .next _ =>
    match y.phase with
    | .checked target => target ≤ (y.sys.engine.journal.lastSequence : Int) → y.Unmoved target
    | _ => True
  | .check _ => True

/-! ## 2. Bundles -/

theorem Root.bundle_congr {r r' : Root} (h : r'.snapshots = r.snapshots) (name : String) :
    r'.bundle name = r.bundle name := by
  rw [Root.bundle, Root.bundle, h]

/-- A bundle stays when another one is added. -/
theorem Root.bundle_cons {r r' : Root} {added : String × Dir} {name : String} {d : Dir}
    (h : r'.snapshots = added :: r.snapshots) (hnew : added.1 ∉ r.snapshots.map Prod.fst)
    (hbundle : r.bundle name = some d) : r'.bundle name = some d := by
  have hne : added.1 ≠ name := by
    rintro rfl
    obtain ⟨b, hb, -⟩ := Option.map_eq_some_iff.mp hbundle
    have hname := List.find?_some hb
    exact hnew (List.mem_map.mpr ⟨b, List.mem_of_find?_eq_some hb, of_decide_eq_true hname⟩)
  rw [Root.bundle, h, List.find?_cons_of_neg (by simpa using hne)]
  exact hbundle

theorem find?_inBundle (name : String) (f : Dir → Dir) : ∀ bundles : List (String × Dir),
    ((bundles.map fun b => if b.1 = name then (b.1, f b.2) else b).find? fun b => b.1 = name).map
        Prod.snd =
      ((bundles.find? fun b => b.1 = name).map Prod.snd).map f
  | [] => rfl
  | b :: bundles => by
    by_cases hb : b.1 = name
    · simp [hb]
    · have ih := find?_inBundle name f bundles
      simpa [hb] using ih

theorem Sys.bundle_inBundle (s : Sys W) (name : String) (f : Dir → Dir) :
    (s.inBundle name f).disk.root.bundle name = (s.disk.root.bundle name).map f :=
  find?_inBundle name f _

/-! ## 3. A request alone -/

/-- `snapshot` with a target is its checks, the scan, and the opening of the copy. -/
theorem snapshot_eq (R : Runtime) (j : DurableJournal) (r : Root) (name : String) (target : Int) :
    j.snapshot R r name (some target) = (do
      j.checkSnapshot r name target
      let kept ← DurableJournal.keptLines R target (splitLines r.log)
      let opened ← DurableJournal.init R ⟨r.metadata, r.base, kept.flatten, []⟩
      return { r with snapshots := (name, opened.2) :: r.snapshots }) := by
  unfold DurableJournal.snapshot DurableJournal.checkSnapshot
  simp only [Option.any_some, decide_eq_true_eq]
  split
  · rfl
  split
  · rfl
  split
  · rfl
  cases DurableJournal.keptLines R target (splitLines r.log) with
  | error e => rfl
  | ok kept => rfl

theorem inBundle_new {name : String} {bundles : List (String × Dir)}
    (h : name ∉ bundles.map Prod.fst) (f : Dir → Dir) :
    (bundles.map fun b => if b.1 = name then (b.1, f b.2) else b) = bundles := by
  refine (List.map_congr_left fun b hb => if_neg ?_).trans (List.map_id _)
  rintro rfl
  exact h (List.mem_map.mpr ⟨b, hb, rfl⟩)

/-- The root with one more bundle. -/
def Root.withBundle (r : Root) (name : String) (d : Dir) : Root :=
  { r with snapshots := (name, d) :: r.snapshots }

theorem Sys.inBundle_root {s : Sys W} {r : Root} {name : String} {d : Dir}
    (hroot : s.disk.root = r.withBundle name d) (hnew : name ∉ r.snapshots.map Prod.fst)
    (f : Dir → Dir) : (s.inBundle name f).disk.root = r.withBundle name (f d) := by
  have hmap := inBundle_new hnew f
  simp only [Sys.inBundle, Sys.emit, Effect.apply, hroot, Root.withBundle, List.map_cons, if_true, hmap]

theorem checkSnapshot_ok {j : DurableJournal} {r : Root} {name : String} {target : Int} {u : Unit}
    (h : j.checkSnapshot r name target = .ok u) :
    name ∉ r.snapshots.map Prod.fst ∧ target ≤ (j.lastSequence : Int) := by
  unfold DurableJournal.checkSnapshot at h
  by_cases h1 : name = "" ∨ name.toList.any (fun c => !DurableJournal.nameChar c) = true
  · rw [if_pos h1] at h
    cases h
  by_cases h2 : 0 ≤ target ∧ target ≤ (j.lastSequence : Int)
  · refine ⟨fun hmem => ?_, h2.2⟩
    have htaken := any_snapshots_iff.mpr hmem
    rw [if_neg h1, if_neg (not_not.mpr h2), if_pos htaken] at h
    cases h
  · rw [if_neg h1, if_pos h2] at h
    cases h

theorem Exporting.verify_ok {y : Exporting W} {target : Int} {name : String} {d opened : Dir}
    {fresh : DurableJournal} (hbundle : y.sys.disk.root.bundle name = some d)
    (hinit : DurableJournal.init W.R d = .ok (fresh, opened)) :
    y.verify target name =
      { y with sys := y.sys.inBundle name fun _ => opened, phase := .done target name } := by
  unfold Exporting.verify
  rw [hbundle]
  dsimp only
  rw [hinit]

theorem Root.bundle_withBundle (r : Root) (name : String) (d : Dir) :
    (r.withBundle name d).bundle name = some d := by
  simp [Root.bundle, Root.withBundle]

/-- The request is answered as `snapshot` ends. -/
def Exporting.EndsAs (y : Exporting W) (target : Int) (name : String) : Except Raised Root → Prop
  | .ok r => y.phase = .done target name ∧ y.sys.disk.root = r
  | .error e => y.phase = .failed (snapshotFailed e)

section Alone

variable {y : Exporting W} {r : Root} {target : Int} {name : String} {metadata base : Bytes}

/-- The last step opens the copy. -/
theorem Exporting.verify_ends {d : Dir} (hroot : y.sys.disk.root = r.withBundle name d)
    (hnew : name ∉ r.snapshots.map Prod.fst) :
    (y.verify target name).EndsAs target name
      ((DurableJournal.init W.R d).map fun opened => r.withBundle name opened.2) := by
  have hbundle : y.sys.disk.root.bundle name = some d := by
    rw [hroot, Root.bundle_withBundle]
  cases hinit : DurableJournal.init W.R d with
  | error e =>
    rw [Exporting.verify, hbundle]
    dsimp only
    rw [hinit]
    rfl
  | ok opened =>
    rw [Exporting.verify_ok hbundle hinit]
    exact ⟨rfl, Sys.inBundle_root hroot hnew _⟩

/-- The last three steps scan the log, write what they keep of it, and open the copy. -/
theorem Exporting.scan_ends (hphase : y.phase = .copied target name)
    (hroot : y.sys.disk.root = r.withBundle name ⟨metadata, base, [], []⟩)
    (hnew : name ∉ r.snapshots.map Prod.fst) (token : String) :
    (((y.next token).next token).next token).EndsAs target name (do
      let kept ← DurableJournal.keptLines W.R target (splitLines r.log)
      let opened ← DurableJournal.init W.R ⟨metadata, base, kept.flatten, []⟩
      return r.withBundle name opened.2) := by
  have hlog : y.sys.disk.root.log = r.log := by
    rw [hroot]
    rfl
  have hscan : y.next token = y.scan target name := by rw [Exporting.next, hphase]
  cases hkept : DurableJournal.keptLines W.R target (splitLines r.log) with
  | error e =>
    have hfailed : y.next token = { y with phase := .failed (snapshotFailed e) } := by
      rw [hscan, Exporting.scan, hlog, hkept]
    rw [hfailed]
    rfl
  | ok kept =>
    have hscanned : y.next token = { y with phase := .scanned target name kept } := by
      rw [hscan, Exporting.scan, hlog, hkept]
    rw [hscanned]
    -- the records are written before the copy is opened
    let saved := ({ y with phase := .scanned target name kept } : Exporting W).save target name kept
    have hsaved : saved.sys.disk.root = r.withBundle name ⟨metadata, base, kept.flatten, []⟩ :=
      Sys.inBundle_root hroot hnew fun d => { d with log := kept.flatten }
    rw [bind_of_ok rfl]
    exact Exporting.verify_ends hsaved hnew

/-- The first two steps make the directory and copy two files. -/
theorem Exporting.make_copies (hphase : y.phase = .checked target)
    (hlimit : y.sys.disk.root.snapshots.length < maxSnapshots) {token : String}
    (hname : name = s!"export-{W.clock.timeNs y.sys.ticks}-seq{target}-{token}") {u : Unit}
    (hcheck : y.sys.engine.journal.checkSnapshot y.sys.disk.root name target = .ok u) :
    ((y.next token).next token).phase = .copied target name ∧
      ((y.next token).next token).sys.disk.root = y.sys.disk.root.withBundle name
        ⟨y.sys.disk.root.metadata, y.sys.disk.root.base, [], []⟩ := by
  have hnew := (checkSnapshot_ok hcheck).1
  have hmade : y.next token = { y with
      sys := y.sys.tick.emit (.snapshots ((name, ⟨[], [], [], []⟩) :: y.sys.disk.root.snapshots))
      phase := .made target name } := by
    rw [Exporting.next, hphase]
    dsimp only
    rw [Exporting.make]
    dsimp only
    rw [if_neg (Nat.not_le.mpr hlimit), ← hname, hcheck]
  have hcopied : (y.next token).next token = (y.next token).copy target name := by
    rw [hmade]
    rfl
  have hroot : (y.next token).sys.disk.root =
      y.sys.disk.root.withBundle name ⟨[], [], [], []⟩ := by
    rw [hmade]
    rfl
  rw [hcopied]
  refine ⟨rfl, ?_⟩
  rw [Exporting.copy, hroot]
  exact Sys.inBundle_root hroot hnew _

end Alone

/-- **The steps of a request that nothing comes between are `snapshot`.** -/
theorem Exporting.next_alone {y : Exporting W} {target : Int} (hphase : y.phase = .checked target)
    (hlimit : y.sys.disk.root.snapshots.length < maxSnapshots) (token : String) :
    let name := s!"export-{W.clock.timeNs y.sys.ticks}-seq{target}-{token}"
    (((((y.next token).next token).next token).next token).next token).EndsAs target name
      (y.sys.engine.journal.snapshot W.R y.sys.disk.root name (some target)) := by
  intro name
  rw [snapshot_eq]
  cases hcheck : y.sys.engine.journal.checkSnapshot y.sys.disk.root name target with
  | error e =>
    -- the request is answered at once, and the other steps do nothing
    have hfailed : y.next token =
        { y with sys := y.sys.tick, phase := .failed (snapshotFailed e) } := by
      rw [Exporting.next, hphase]
      dsimp only
      rw [Exporting.make]
      dsimp only
      rw [if_neg (Nat.not_le.mpr hlimit), hcheck]
    rw [hfailed]
    rfl
  | ok u =>
    obtain ⟨hcopied, hroot⟩ := Exporting.make_copies hphase hlimit rfl hcheck
    exact Exporting.scan_ends hcopied hroot (checkSnapshot_ok hcheck).1 token

/-! ## 4. The invariant -/

section Invariant

variable {md : Metadata} {ws₀ ws : List (Write md)} {es : List (AuditEntry W.R)} {p : Saved W.R}

/-- Nothing depends on the bundles. -/
theorem Good.bundles {s : Sys W} (h : Good ws es p s) (bundles : List (String × Dir)) :
    Good ws es p (s.emit (.snapshots bundles)) :=
  ⟨⟨⟨h.journal, h.tail, h.limit, h.hash, h.active, h.reads⟩, h.chain⟩, h.nonempty, h.file, h.record,
    h.state, h.version, h.sound⟩

/-- The log still holds the first `n` records that the range check admitted. -/
def Admitted (R : Runtime) (ws₀ ws : List (Write md)) (n : Nat) : Prop :=
  n ≤ ws.length ∧ logOf R (ws.take n) = logOf R (ws₀.take n)

/-- What a request has in hand: `ws₀` and `base₀` are the journal at its range check, `ws` and
`root` the journal now. -/
def ExportPhase.Tracks (R : Runtime) (ws₀ ws : List (Write md)) (base₀ : Bytes) (root : Root) :
    ExportPhase → Prop
  | .checked target => ∃ n : Nat, target = n ∧ n ≤ ws₀.length
  | .made target name => ∃ n : Nat, target = n ∧ n ≤ ws₀.length ∧ Admitted R ws₀ ws n ∧
      root.base = base₀ ∧ root.bundle name = some ⟨[], [], [], []⟩
  | .copied target name => ∃ n : Nat, target = n ∧ n ≤ ws₀.length ∧ Admitted R ws₀ ws n ∧
      root.bundle name = some ⟨md.file R, base₀, [], []⟩
  | .scanned target name kept => ∃ n : Nat, target = n ∧ n ≤ ws₀.length ∧
      kept.flatten = logOf R (ws₀.take n) ∧ root.bundle name = some ⟨md.file R, base₀, [], []⟩
  | .saved target name | .done target name => ∃ n : Nat, target = n ∧ n ≤ ws₀.length ∧
      root.bundle name = some ⟨md.file R, base₀, logOf R (ws₀.take n), []⟩
  | .idle | .failed _ => True

/-- The invariant of an engine and a request. -/
structure Exporting.Kept (ws₀ ws : List (Write md)) (es : List (AuditEntry W.R)) (p : Saved W.R)
    (y : Exporting W) : Prop where
  good : Good ws es p y.sys
  check : Canonical W.R ws₀ y.atCheck.engine.journal y.atCheck.disk.root.toDir
  tracks : y.phase.Tracks W.R ws₀ ws y.atCheck.disk.root.base y.sys.disk.root

theorem Admitted.append {n : Nat} (h : Admitted W.R ws₀ ws n) (more : List (Write md)) :
    Admitted W.R ws₀ (ws ++ more) n := by
  obtain ⟨hle, hsame⟩ := h
  refine ⟨?_, ?_⟩
  · rw [List.length_append]
    exact Nat.le_add_right_of_le hle
  · rw [List.take_append_of_le_length hle, hsame]

/-- **A call that lets the journal grow** leaves the request what it has. -/
theorem ExportPhase.Tracks.extended {phase : ExportPhase} {base₀ : Bytes} {s s' : Sys W}
    {more : List (Write md)} (h : phase.Tracks W.R ws₀ ws base₀ s.disk.root)
    (hbase : s'.disk.root.base = s.disk.root.base)
    (hsnapshots : s'.disk.root.snapshots = s.disk.root.snapshots) :
    phase.Tracks W.R ws₀ (ws ++ more) base₀ s'.disk.root := by
  cases phase with
  | idle => trivial
  | checked target =>
    exact h
  | made target name =>
    obtain ⟨n, htarget, hn, hadmitted, hb, hbundle⟩ := h
    exact ⟨n, htarget, hn, hadmitted.append more, hbase.trans hb,
      (Root.bundle_congr hsnapshots name).trans hbundle⟩
  | copied target name =>
    obtain ⟨n, htarget, hn, hadmitted, hbundle⟩ := h
    exact ⟨n, htarget, hn, hadmitted.append more,
      (Root.bundle_congr hsnapshots name).trans hbundle⟩
  | scanned target name kept =>
    obtain ⟨n, htarget, hn, hkept, hbundle⟩ := h
    exact ⟨n, htarget, hn, hkept, (Root.bundle_congr hsnapshots name).trans hbundle⟩
  | saved target name =>
    obtain ⟨n, htarget, hn, hbundle⟩ := h
    exact ⟨n, htarget, hn, (Root.bundle_congr hsnapshots name).trans hbundle⟩
  | done target name =>
    obtain ⟨n, htarget, hn, hbundle⟩ := h
    exact ⟨n, htarget, hn, (Root.bundle_congr hsnapshots name).trans hbundle⟩
  | failed e => trivial

/-- The base image is the same after a compaction that finds no change in it. -/
theorem newBase_of_imageIsBase {j : DurableJournal} {r : Root} (h : Canonical W.R ws j r.toDir)
    (hsame : ImageIsBase W.R j r.toDir) : newBase r.base ws = r.base := by
  have hblocks := h.imageIsBase_iff.mp hsame
  rw [newBase, blocksOf_congr fun b _ hb => hblocks b (by omega), blocksOf, flatten_blockOf,
    ← h.size, List.take_length]

/-- **A harmless compaction** leaves the request what it has. -/
theorem Exporting.Kept.compacted {y : Exporting W} {c : EngineCall} (h : y.Kept ws₀ ws es p)
    (hharmless : ExportOp.Harmless y (.call c)) (hc : c.Compacts y.sys)
    (hcompacted : Compacted ws y.sys (c.run y.sys).2) :
    y.phase.Tracks W.R ws₀ [] y.atCheck.disk.root.base (c.run y.sys).2.disk.root := by
  have hmatters := hharmless hc
  have htracks := h.tracks
  obtain ⟨added, hnew, hsnapshots⟩ := hcompacted.snapshots
  cases hphase : y.phase with
  | idle => trivial
  | checked target =>
    rw [hphase] at htracks
    exact htracks
  | made target name =>
    rw [hphase] at hmatters htracks
    obtain ⟨n, rfl, hn, -, hbase, hbundle⟩ := htracks
    -- base.img is not copied yet: the target is 0 and the new base shows the same
    obtain rfl : n = 0 := Int.natCast_eq_zero.mp hmatters.1
    refine ⟨0, rfl, hn, ⟨Nat.le_refl 0, rfl⟩, ?_, Root.bundle_cons hsnapshots hnew hbundle⟩
    rw [hcompacted.base, newBase_of_imageIsBase h.good.journal hmatters.2, hbase]
  | copied target name =>
    rw [hphase] at hmatters htracks
    obtain ⟨n, rfl, hn, -, hbundle⟩ := htracks
    -- the log is not scanned yet: no record is asked for
    obtain rfl : n = 0 := Int.natCast_eq_zero.mp hmatters
    exact ⟨0, rfl, hn, ⟨Nat.le_refl 0, rfl⟩, Root.bundle_cons hsnapshots hnew hbundle⟩
  | scanned target name kept =>
    rw [hphase] at htracks
    -- from here on the request reads its own directory alone
    obtain ⟨n, htarget, hn, hkept, hbundle⟩ := htracks
    exact ⟨n, htarget, hn, hkept, Root.bundle_cons hsnapshots hnew hbundle⟩
  | saved target name =>
    rw [hphase] at htracks
    obtain ⟨n, htarget, hn, hbundle⟩ := htracks
    exact ⟨n, htarget, hn, Root.bundle_cons hsnapshots hnew hbundle⟩
  | done target name =>
    rw [hphase] at htracks
    obtain ⟨n, htarget, hn, hbundle⟩ := htracks
    exact ⟨n, htarget, hn, Root.bundle_cons hsnapshots hnew hbundle⟩
  | failed e => trivial

/-- **A call.** -/
theorem Exporting.Kept.call {y : Exporting W} {c : EngineCall} (h : y.Kept ws₀ ws es p)
    (hharmless : ExportOp.Harmless y (.call c)) :
    ∃ (ws' : List (Write md)) (es' : _) (p' : _),
      (ExportOp.step y (.call c)).Kept ws₀ ws' es' p' := by
  obtain ⟨⟨ws₁, es', p', hgood⟩, -⟩ := c.good h.good
  rcases c.journal_cases h.good.toLedgers with ⟨-, hextended⟩ | ⟨hc, hcompacted⟩
  · obtain ⟨⟨more, hmore⟩, hbase, hsnapshots⟩ := hextended
    exact ⟨ws ++ more, es', p', hgood.of_canonical hmore, h.check,
      h.tracks.extended hbase hsnapshots⟩
  · exact ⟨[], es', p', hgood.of_canonical hcompacted.journal, h.check,
      h.compacted hharmless hc hcompacted⟩

/-- **The range check.** -/
theorem Exporting.Kept.checked {y : Exporting W} (h : y.Kept ws₀ ws es p)
    (targetSequence : Option Int) : (y.check targetSequence).Kept ws ws es p := by
  refine ⟨h.good, h.good.journal, ?_⟩
  unfold Exporting.check
  extract_lets last target
  dsimp only
  split
  · rename_i hrange
    have hlast : last = ws.length := congrArg Nat.cast h.good.journal.lastSequence
    exact ⟨target.toNat, by omega, by omega⟩
  · trivial

/-- The first bundle of a namespace is made. -/
theorem Exporting.make_ok {y : Exporting W} {target : Int} {token name : String}
    (hnone : y.sys.disk.root.snapshots = [])
    (hrange : 0 ≤ target ∧ target ≤ (y.sys.engine.journal.lastSequence : Int))
    (hname : name = s!"export-{W.clock.timeNs y.sys.ticks}-seq{target}-{token}")
    (hvalid : ValidName name) :
    y.make target token = { y with sys := y.sys.tick.emit (.snapshots [(name, ⟨[], [], [], []⟩)])
                                   phase := .made target name } := by
  have hlimit : ¬ maxSnapshots ≤ y.sys.disk.root.snapshots.length := by
    rw [hnone]
    decide
  have hcheck : y.sys.engine.journal.checkSnapshot y.sys.disk.root name target = .ok () := by
    rw [DurableJournal.checkSnapshot, if_neg hvalid.not_refused, if_neg (not_not.mpr hrange), hnone]
    rfl
  rw [Exporting.make]
  dsimp only
  rw [if_neg hlimit, ← hname, hcheck, hnone]

/-- At the check itself nothing has moved. -/
theorem Exporting.unmoved_check (y : Exporting W) (targetSequence : Option Int) (target : Int) :
    (y.check targetSequence).Unmoved target := ⟨rfl, rfl⟩

/-- Files that have not moved still hold the admitted records. -/
theorem Exporting.Kept.admitted {y : Exporting W} (h : y.Kept ws₀ ws es p) {n : Nat}
    (hn : (n : Int) ≤ (y.sys.engine.journal.lastSequence : Int)) (hunmoved : y.Unmoved n) :
    Admitted W.R ws₀ ws n := by
  have hlast : y.sys.engine.journal.lastSequence = ws.length := h.good.journal.lastSequence
  have hlines := hunmoved.2
  rw [h.good.journal.log, h.check.log, keptLines_log, keptLines_log] at hlines
  have hflat := congrArg List.flatten (Except.ok.inj hlines)
  rw [flatten_recordLines, flatten_recordLines] at hflat
  exact ⟨by omega, hflat⟩

/-- **The directory is made.** -/
theorem Exporting.Kept.make {y : Exporting W} (h : y.Kept ws₀ ws es p) {target : Int}
    (hphase : y.phase = .checked target)
    (hunmoved : target ≤ (y.sys.engine.journal.lastSequence : Int) → y.Unmoved target)
    (token : String) : (y.make target token).Kept ws₀ ws es p := by
  have htracks := h.tracks
  rw [hphase] at htracks
  obtain ⟨n, rfl, hn⟩ := htracks
  unfold Exporting.make
  extract_lets s name
  split
  · exact ⟨h.good, h.check, trivial⟩
  split
  · exact ⟨h.good.tick, h.check, trivial⟩
  · rename_i u hcheck
    have hrange := (checkSnapshot_ok hcheck).2
    have hsame := hunmoved hrange
    refine ⟨h.good.tick.bundles _, h.check, n, rfl, hn, h.admitted hrange hsame, hsame.1, ?_⟩
    simp [Root.bundle, Sys.emit, Effect.apply]

/-- **The copies of the metadata and the base image.** -/
theorem Exporting.Kept.copy {y : Exporting W} (h : y.Kept ws₀ ws es p) {target : Int}
    {name : String} (hphase : y.phase = .made target name) :
    (y.copy target name).Kept ws₀ ws es p := by
  have htracks := h.tracks
  rw [hphase] at htracks
  obtain ⟨n, htarget, hn, hadmitted, hbase, hbundle⟩ := htracks
  refine ⟨h.good.bundles _, h.check, n, htarget, hn, hadmitted, ?_⟩
  rw [Exporting.copy, Sys.bundle_inBundle, hbundle, h.good.journal.file, hbase]
  rfl

/-- **The scan of the log.** -/
theorem Exporting.Kept.scan {y : Exporting W} (h : y.Kept ws₀ ws es p) {target : Int}
    {name : String} (hphase : y.phase = .copied target name) :
    (y.scan target name).Kept ws₀ ws es p := by
  have htracks := h.tracks
  rw [hphase] at htracks
  obtain ⟨n, rfl, hn, hadmitted, hbundle⟩ := htracks
  refine ⟨h.good, h.check, ?_⟩
  rw [Exporting.scan, h.good.journal.log, keptLines_log]
  exact ⟨n, rfl, hn, (flatten_recordLines _ _).trans hadmitted.2, hbundle⟩

/-- **The kept records are written.** -/
theorem Exporting.Kept.save {y : Exporting W} (h : y.Kept ws₀ ws es p) {target : Int}
    {name : String} {kept : List Bytes} (hphase : y.phase = .scanned target name kept) :
    (y.save target name kept).Kept ws₀ ws es p := by
  have htracks := h.tracks
  rw [hphase] at htracks
  obtain ⟨n, htarget, hn, hkept, hbundle⟩ := htracks
  refine ⟨h.good.bundles _, h.check, n, htarget, hn, ?_⟩
  rw [Exporting.save, Sys.bundle_inBundle, hbundle, hkept]
  rfl

/-- **The copy opens.** -/
theorem Exporting.Kept.verify {y : Exporting W} (h : y.Kept ws₀ ws es p) {target : Int}
    {name : String} (hphase : y.phase = .saved target name) :
    (y.verify target name).Kept ws₀ ws es p := by
  have htracks := h.tracks
  rw [hphase] at htracks
  obtain ⟨n, htarget, hn, hbundle⟩ := htracks
  obtain ⟨fresh, hinit, -, -⟩ := h.check.init_first n
  rw [Exporting.verify_ok hbundle hinit]
  refine ⟨h.good.bundles _, h.check, n, htarget, hn, ?_⟩
  dsimp only
  rw [Sys.bundle_inBundle, hbundle]
  rfl

/-- **The next step of the request.** -/
theorem Exporting.Kept.next {y : Exporting W} (h : y.Kept ws₀ ws es p) {token : String}
    (hharmless : ExportOp.Harmless y (.next token)) : (y.next token).Kept ws₀ ws es p := by
  unfold Exporting.next
  split
  · rename_i target hphase
    simp only [ExportOp.Harmless, hphase] at hharmless
    exact h.make hphase hharmless token
  · rename_i target name hphase
    exact h.copy hphase
  · rename_i target name hphase
    exact h.scan hphase
  · rename_i target name kept hphase
    exact h.save hphase
  · rename_i target name hphase
    exact h.verify hphase
  · exact h

/-- **A harmless step keeps the invariant.** -/
theorem Exporting.Kept.step {y : Exporting W} (h : y.Kept ws₀ ws es p) {o : ExportOp}
    (hharmless : o.Harmless y) : ∃ (ws₀' ws' : List (Write md)) (es' : _) (p' : _),
      (ExportOp.step y o).Kept ws₀' ws' es' p' := by
  cases o with
  | call c =>
    obtain ⟨ws', es', p', h'⟩ := h.call hharmless
    exact ⟨ws₀, ws', es', p', h'⟩
  | check targetSequence =>
    simp only [ExportOp.step]
    split
    · exact ⟨ws, ws, es, p, h.checked targetSequence⟩
    · exact ⟨ws, ws, es, p, h.checked targetSequence⟩
    · exact ⟨ws, ws, es, p, h.checked targetSequence⟩
    · exact ⟨ws₀, ws, es, p, h⟩
  | next token => exact ⟨ws₀, ws, es, p, h.next hharmless⟩

/-- Nothing is compacted. -/
def ExportOp.Quiet (y : Exporting W) : ExportOp → Prop
  | .call c => ¬ c.Compacts y.sys
  | _ => True

/-- The target is in range still, and the files have not moved. -/
def Exporting.Steady (y : Exporting W) : Prop :=
  ∀ target, y.phase = .checked target →
    target ≤ (y.sys.engine.journal.lastSequence : Int) ∧ y.Unmoved target

/-- **A call that compacts nothing** moves nothing. -/
theorem Exporting.Steady.call {y : Exporting W} (h : y.Kept ws₀ ws es p) (hsteady : y.Steady)
    {c : EngineCall} (hquiet : ¬ c.Compacts y.sys) : (ExportOp.step y (.call c)).Steady := by
  intro target hphase
  obtain ⟨hlast, hbase, hlog⟩ := hsteady target hphase
  have htracks := h.tracks
  have hsame : y.phase = .checked target := hphase
  rw [hsame] at htracks
  obtain ⟨n, rfl, -⟩ := htracks
  rcases c.journal_cases h.good.toLedgers with ⟨-, ⟨more, hmore⟩, hbase', -⟩ | ⟨hc, -⟩
  · have hlast₁ : y.sys.engine.journal.lastSequence = ws.length := h.good.journal.lastSequence
    have hlast₂ : (c.run y.sys).2.engine.journal.lastSequence = (ws ++ more).length :=
      hmore.lastSequence
    have hlen : (ws ++ more).length = ws.length + more.length := List.length_append
    refine ⟨?_, hbase'.trans hbase, ?_⟩
    · show (n : Int) ≤ ((c.run y.sys).2.engine.journal.lastSequence : Int)
      omega
    · show DurableJournal.keptLines W.R n (splitLines (c.run y.sys).2.disk.root.log) = _
      rw [hmore.log, keptLines_log, List.take_append_of_le_length (by omega), ← keptLines_log,
        ← h.good.journal.log]
      exact hlog
  · exact absurd hc hquiet

/-- After its next step a request is not at its range check. -/
theorem Exporting.next_phase (y : Exporting W) (token : String) (target : Int) :
    (y.next token).phase ≠ .checked target := by
  unfold Exporting.next
  split
  · unfold Exporting.make
    extract_lets s name
    split
    · exact ExportPhase.noConfusion
    split <;> exact ExportPhase.noConfusion
  · exact ExportPhase.noConfusion
  · unfold Exporting.scan
    dsimp only
    split <;> exact ExportPhase.noConfusion
  · exact ExportPhase.noConfusion
  · unfold Exporting.verify
    split
    · exact ExportPhase.noConfusion
    split <;> exact ExportPhase.noConfusion
  · rename_i hnot _ _ _ _
    exact hnot target

/-- **One step that compacts nothing.** -/
theorem Exporting.Steady.step {y : Exporting W} (h : y.Kept ws₀ ws es p) (hsteady : y.Steady)
    {o : ExportOp} (hquiet : o.Quiet y) : o.Harmless y ∧ (ExportOp.step y o).Steady := by
  cases o with
  | call c => exact ⟨fun hc => absurd hc hquiet, hsteady.call h hquiet⟩
  | check targetSequence =>
    refine ⟨trivial, ?_⟩
    have hchecked : (y.check targetSequence).Steady := by
      intro target hphase
      refine ⟨?_, y.unmoved_check targetSequence target⟩
      unfold Exporting.check at hphase
      extract_lets last asked at hphase
      dsimp only at hphase
      split at hphase
      · rename_i hrange
        rw [← ExportPhase.checked.inj hphase]
        exact hrange.2
      · cases hphase
    simp only [ExportOp.step]
    split
    · exact hchecked
    · exact hchecked
    · exact hchecked
    · exact hsteady
  | next token =>
    refine ⟨?_, fun target hphase => absurd hphase (y.next_phase token target)⟩
    cases hphase : y.phase with
    | checked target =>
      simp only [ExportOp.Harmless, hphase]
      exact fun _ => (hsteady target hphase).2
    | _ => simp only [ExportOp.Harmless, hphase]

/-- **A run that compacts nothing is harmless.** -/
theorem Exporting.harmless_of_quiet {s : Sys W} (h : Reachable W (.on s)) {ops : List ExportOp}
    (hquiet : Along ExportOp.step (fun y o => o.Quiet y) (Exporting.start s) ops) :
    Along ExportOp.step (fun y o => o.Harmless y) (Exporting.start s) ops := by
  obtain ⟨md, ws, es, p, hgood⟩ := h.good
  refine Along.of_invariant (I := fun y => (∃ (ws₀ ws : List (Write md)) (es : _) (p : _),
    y.Kept ws₀ ws es p) ∧ y.Steady) ?_ ⟨⟨ws, ws, es, p, hgood, hgood.journal, trivial⟩, ?_⟩ hquiet
  · rintro y o ho ⟨⟨ws₀, ws', es', p', hkept⟩, hsteady⟩
    obtain ⟨hharmless, hnext⟩ := hsteady.step hkept ho
    exact ⟨hharmless, hkept.step hharmless, hnext⟩
  · intro target hphase
    cases hphase

/-- **The invariant makes a successful export exact.** -/
theorem Exporting.Kept.exact {y : Exporting W} (h : y.Kept ws₀ ws es p) : y.Exact := by
  intro target name hphase
  have htracks := h.tracks
  rw [hphase] at htracks
  obtain ⟨n, rfl, hn, hbundle⟩ := htracks
  obtain ⟨fresh, hinit, -, hcanon⟩ := h.check.init_first n
  have hlen : (ws₀.take n).length = n := by
    rw [List.length_take, Nat.min_eq_left hn]
  refine ⟨_, fresh, hbundle, hinit, by rw [hcanon.lastSequence, hlen], fun b hb => ?_⟩
  have hblocks : y.atCheck.engine.journal.blocks = md.blocks :=
    congrArg Metadata.blocks h.check.metadata
  rw [hblocks] at hb
  have hlive := h.check.read_at (b := b) (c := 1) (Nat.le_refl 1) hb hn
  have hat := hcanon.read_at (b := b) (c := 1) (q := n) (Nat.le_refl 1) hb (Nat.le_of_eq hlen.symm)
  have hcurrent := hcanon.read_current (b := b) (c := 1) (Nat.le_refl 1) hb
  rw [List.take_take, Nat.min_self] at hat
  exact ⟨_, hlive, hat, hcurrent⟩

end Invariant

/-! ## 5. Main results -/

/-- **A successful export holds exactly the history it claims**, whatever runs meanwhile, as long as
no compaction that matters to it falls between the making of its directory and its scan of the log,
and none before has changed what its range check admitted. -/
theorem export_holds_history {s : Sys W} (h : Reachable W (.on s)) {ops : List ExportOp}
    (hharmless : Along ExportOp.step (fun y o => o.Harmless y) (Exporting.start s) ops)
    {pre : List ExportOp} (hpre : pre <+: ops) :
    (pre.foldl ExportOp.step (Exporting.start s)).Exact := by
  obtain ⟨md, ws, es, p, hgood⟩ := h.good
  have hstart : ∃ (ws₀ ws : List (Write md)) (es : _) (p : _),
      (Exporting.start s).Kept ws₀ ws es p := ⟨ws, ws, es, p, hgood, hgood.journal, trivial⟩
  have hstep : ∀ (y : Exporting W) (o : ExportOp), o.Harmless y →
      (∃ (ws₀ ws : List (Write md)) (es : _) (p : _), y.Kept ws₀ ws es p) →
      ∃ (ws₀ ws : List (Write md)) (es : _) (p : _), (ExportOp.step y o).Kept ws₀ ws es p := by
    rintro y o ho ⟨ws₀, ws, es, p, hkept⟩
    exact hkept.step ho
  obtain ⟨ws₀, ws', es', p', hkept⟩ := run_along_initial hstep hstart hharmless hpre
  exact hkept.exact

/-- Once the log is empty behind the request's back, the export succeeds with an empty log. -/
theorem export_after_compaction {y : Exporting W} {md : Metadata} {target : Int} {name : String}
    {base : Bytes} (hphase : y.phase = .copied target name) (htarget : target ≠ 0)
    (hcanon : Canonical W.R ([] : List (Write md)) y.sys.engine.journal y.sys.disk.root.toDir)
    (hbase : base.length = md.blocks * md.blockSize)
    (hbundle : y.sys.disk.root.bundle name = some ⟨md.file W.R, base, [], []⟩) (token : String) :
    let y' := ((y.next token).next token).next token
    y'.phase = .done target name ∧ ¬ y'.Exact := by
  have hempty : Canonical W.R ([] : List (Write md)) ⟨md, Cursor.empty, none⟩
      ⟨md.file W.R, base, [], []⟩ := ⟨rfl, rfl, rfl, hbase, rfl⟩
  -- the compaction emptied the log, so the scan keeps nothing
  have hlog : y.sys.disk.root.log = [] := hcanon.log
  have hscan : y.next token = { y with phase := .scanned target name [] } := by
    rw [Exporting.next, hphase]
    dsimp only
    rw [Exporting.scan, hlog]
    rfl
  have hsave : (y.next token).next token =
      { y with sys := y.sys.inBundle name fun d => { d with log := [] }
               phase := .saved target name } := by
    rw [hscan]
    rfl
  have hsaved : (y.sys.inBundle name fun d => { d with log := [] }).disk.root.bundle name =
      some ⟨md.file W.R, base, [], []⟩ := by
    rw [Sys.bundle_inBundle, hbundle]
    rfl
  intro y'
  have hverify : y' = { y with
      sys := (y.sys.inBundle name fun d => { d with log := [] }).inBundle name
        fun _ => ⟨md.file W.R, base, [], []⟩
      phase := .done target name } := by
    simp only [y', hsave]
    exact Exporting.verify_ok hsaved hempty.init
  rw [hverify]
  -- the copy opens at sequence 0 and is taken for the target
  refine ⟨rfl, fun hexact => ?_⟩
  obtain ⟨bundle, fresh, hopened, hinit, hsequence, -⟩ := hexact _ _ rfl
  dsimp only at hopened
  rw [Sys.bundle_inBundle, hsaved] at hopened
  obtain rfl := Option.some.inj hopened
  obtain rfl : _ = fresh := congrArg Prod.fst (Except.ok.inj (hempty.init.symm.trans hinit))
  exact htarget hsequence.symm

end Export

/-- One block of sevens, as a call. -/
def writeSevens : EngineCall := .write sevens.start sevens.data

theorem export_holds_history_two_writes : ∃ dir, provision World.quiet.R 4 512 "dev" = .ok dir ∧
    ([.call writeSevens, .check none, .next "000000", .call writeSevens, .next "000000",
      .next "000000", .next "000000", .next "000000"].foldl ExportOp.step
        (Exporting.start (quietBoot dir))).Exact := by
  obtain ⟨dir, hdir⟩ := provision_four_blocks
  have hreach := reachable_quietBoot hdir
  refine ⟨dir, hdir, export_holds_history hreach (Exporting.harmless_of_quiet hreach ?_)
    List.prefix_rfl⟩
  exact ⟨id, trivial, trivial, id, trivial, trivial, trivial, trivial, trivial⟩

/-- The run of an export with a compaction between the copy of the base image and the scan. -/
theorem export_mixes_generations {es : List (AuditEntry World.quiet.R)} {p : Saved World.quiet.R}
    {s₀ : Sys World.quiet} (h₀ : Good ([] : List (Write ⟨"dev", 4, 512⟩)) es p s₀)
    (hboot : s₀.engine.state = .normal) (hroot : s₀.disk.root.snapshots = []) :
    let y := [.call writeSevens, .check (some 1), .next "000000", .next "000000",
      .call (.compactJournal "compact"), .next "000000", .next "000000", .next "000000"].foldl
        ExportOp.step (Exporting.start s₀)
    y.phase = .done 1 "export-0-seq1-000000" ∧ ¬ y.Exact := by
  have hclock : ∀ n, World.quiet.clock.timeNs n = 0 := fun _ => rfl
  -- the write
  let y₁ := ExportOp.step (Exporting.start s₀) (.call writeSevens)
  have hwritten := write_records h₀.toLedgers (by rw [hboot]; decide) sevens
  have hstate : y₁.sys.engine.state = .normal := (write_quiet s₀ _ _).1.trans hboot
  have hnone : y₁.sys.disk.root.snapshots = [] :=
    (write_extends h₀.toLedgers sevens.start sevens.data).snapshots.trans hroot
  obtain ⟨⟨ws₁, es₁, p₁, hgood₁⟩, -⟩ := EngineCall.good writeSevens h₀
  have h₁ : y₁.Kept [] [sevens] es₁ p₁ :=
    ⟨hgood₁.of_canonical hwritten, h₀.journal, trivial⟩
  -- the range check
  let y₂ := y₁.check (some 1)
  have hlast : y₁.sys.engine.journal.lastSequence = 1 := h₁.good.journal.lastSequence
  have hphase₂ : y₂.phase = .checked 1 := by
    simp [y₂, Exporting.check, hlast]
  have h₂ : y₂.Kept [sevens] [sevens] es₁ p₁ := h₁.checked (some 1)
  have hunmoved : y₂.Unmoved 1 := Exporting.unmoved_check y₁ (some 1) 1
  -- the directory, and the copies
  let y₃ := y₂.make 1 "000000"
  have hmade : y₃ = { y₂ with
      sys := y₁.sys.tick.emit (.snapshots [("export-0-seq1-000000", ⟨[], [], [], []⟩)])
      phase := .made 1 "export-0-seq1-000000" } := by
    have hrange : (0 : Int) ≤ 1 ∧ (1 : Int) ≤ (y₂.sys.engine.journal.lastSequence : Int) := by
      have hlast₂ : y₂.sys.engine.journal.lastSequence = 1 := hlast
      rw [hlast₂]
      decide
    exact Exporting.make_ok hnone hrange (by rw [hclock]; decide) (by decide)
  have hphase₃ : y₃.phase = .made 1 "export-0-seq1-000000" := by rw [hmade]
  have h₃ : y₃.Kept [sevens] [sevens] es₁ p₁ := h₂.make hphase₂ (fun _ => hunmoved) "000000"
  let y₄ := y₃.copy 1 "export-0-seq1-000000"
  have hphase₄ : y₄.phase = .copied 1 "export-0-seq1-000000" := rfl
  have h₄ : y₄.Kept [sevens] [sevens] es₁ p₁ := h₃.copy hphase₃
  -- the compaction
  let y₅ := ExportOp.step y₄ (.call (.compactJournal "compact"))
  have hcompacts : EngineCall.Compacts y₄.sys (.compactJournal "compact") := by
    have hstate₄ : y₄.sys.engine.state = .normal := by
      simp only [y₄, Exporting.copy, hmade]
      exact hstate
    have hnames : y₄.sys.disk.root.snapshots.map Prod.fst = ["export-0-seq1-000000"] := by
      simp only [y₄, Exporting.copy, hmade]
      rfl
    have hname : y₄.sys.compactionName "compact" = "compact-0" := by
      rw [Sys.compactionName, hclock]
      decide
    refine ⟨by rw [hstate₄]; decide, by rw [hname]; decide, ?_⟩
    rw [hname, hnames]
    decide
  have hcompacted : Compacted [sevens] y₄.sys y₅.sys := by
    rcases EngineCall.journal_cases h₄.good.toLedgers (.compactJournal "compact") with
      ⟨hnot, -⟩ | ⟨-, h⟩
    · exact absurd hcompacts hnot
    · exact h
  -- the rest of the request
  have htracks := h₄.tracks
  rw [hphase₄] at htracks
  obtain ⟨-, -, -, -, hbundle⟩ := htracks
  obtain ⟨added, hnew, hsnapshots⟩ := hcompacted.snapshots
  have hbundle₅ := Root.bundle_cons hsnapshots hnew hbundle
  have hrun : [.call writeSevens, .check (some 1), .next "000000", .next "000000",
      .call (.compactJournal "compact"), .next "000000", .next "000000", .next "000000"].foldl
        ExportOp.step (Exporting.start s₀) =
      ((y₅.next "000000").next "000000").next "000000" := by
    have hnext₂ : y₂.next "000000" = y₃ := by rw [Exporting.next, hphase₂]
    have hnext₃ : y₃.next "000000" = y₄ := by rw [Exporting.next, hphase₃]
    simp only [y₅, ← hnext₃, ← hnext₂]
    rfl
  rw [hrun]
  exact export_after_compaction (y := y₅) hphase₄ (by decide) hcompacted.journal h₄.check.size
    hbundle₅ "000000"

/-- **A compaction empties an export.**  It falls between the copy of the base image and the scan
of the log, and the export succeeds with the image before the first write. -/
theorem compaction_empties_export : ∃ dir, provision World.quiet.R 4 512 "dev" = .ok dir ∧
    let y := [.call writeSevens, .check (some 1), .next "000000", .next "000000",
      .call (.compactJournal "compact"), .next "000000", .next "000000", .next "000000"].foldl
        ExportOp.step (Exporting.start (quietBoot dir))
    y.phase = .done 1 "export-0-seq1-000000" ∧ ¬ y.Exact := by
  obtain ⟨dir, hdir⟩ := provision_four_blocks
  obtain ⟨-, es, p, hsaved⟩ := reopen_fresh (W := World.quiet) hdir 0
  exact ⟨dir, hdir, export_mixes_generations hsaved.toGood rfl rfl⟩

end AegisShield
