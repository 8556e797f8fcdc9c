/-
# Rotation loses, duplicates and reorders nothing

A run of a log is a list of appends and reopenings, from an empty directory on, with any limits.
What has happened in it is a list of MARKS: an event for each append, and a rotation before it
where the file had reached its limit.  `segmentsOf` says what the marks make of a log, without any
file: the archived segments and the current one.  The files are always exactly those of the
segments (`Logging.Kept`), and the listing returns the segments' entries in the order of the marks
(`collect_segments`).
-/
import AegisShield.Audit.Events
import AegisShield.Lib.Run

namespace AegisShield

open Lib

/-! ## 1. Runs of a log -/

/-- `AuditLog(path, max_bytes)`. -/
def AuditLog.init (R : Runtime) (stem suffix : String) (maxBytes : Nat) (files : AuditFiles) :
    Except Raised (AuditLog × AuditFiles) := do
  let files := AuditEffect.create.apply files
  let lastHash ← verifyFile R (files.active.getD [])
  return (⟨stem, suffix, maxBytes, lastHash⟩, files)

/-- What has happened to a log. -/
inductive Mark (R : Runtime)
  | event (e : AuditEntry R)
  | rotation (timestampNs : Nat)

/-- A log in use: the object, its files and the clock readings so far.  The last two fields are
for the record: what has happened, and whether a constructor ever raised. -/
structure Logging (R : Runtime) where
  log : AuditLog
  files : AuditFiles
  ticks : Nat
  marks : List (Mark R)
  raised : Bool

/-- A call: `append`, or the construction of a new object on the same path. -/
inductive LogOp (R : Runtime)
  | append (event : String) (details : Dict R.Value) (wf : (Json.obj details).Wf)
  | reopen (maxBytes : Nat)

section Run

variable {R : Runtime}

/-- The marks of an append: it rotates first if the file has reached its limit. -/
def AuditLog.marks (log : AuditLog) (files : AuditFiles) (now : Nat → Nat) (event : String)
    (details : Dict R.Value) (wf : (Json.obj details).Wf) : List (Mark R) :=
  if log.full files then [.rotation (now 0), .event ⟨event, details, now 1, wf⟩]
  else [.event ⟨event, details, now 0, wf⟩]

/-- One call.  `clock i` is the `i`-th reading of `time.time_ns()`. -/
def LogOp.step (clock : Nat → Nat) (s : Logging R) : LogOp R → Logging R
  | .append event details wf =>
    let now i := clock (s.ticks + i)
    let r := s.log.append R s.files now event details
    { s with log := r.2.1
             files := applyAudit r.1 s.files
             ticks := s.ticks + r.2.2
             marks := s.marks ++ s.log.marks s.files now event details wf }
  | .reopen maxBytes =>
    match AuditLog.init R s.log.stem s.log.suffix maxBytes s.files with
    | .ok (log, files) => { s with log := log, files := files }
    | .error _ => { s with raised := true }

/-- A log on an empty directory. -/
def Logging.start (R : Runtime) (stem suffix : String) (maxBytes : Nat) : Logging R where
  log := ⟨stem, suffix, maxBytes, zeroHash⟩
  files := ⟨some [], []⟩
  ticks := 0
  marks := []
  raised := false

/-- The event a call appends. -/
def LogOp.event? : LogOp R → Option (String × Dict R.Value)
  | .append event details _ => some (event, details)
  | .reopen _ => none

/-- The event a mark stands for. -/
def Mark.event? : Mark R → Option (String × Dict R.Value)
  | .event e => some (e.event, e.details)
  | .rotation _ => none

/-- The listed value is that of the mark.  A rotation shows as a boundary that names an archive
and the hash of the last event in it. -/
def Mark.Shows (stem suffix : String) (f : AuditFiles) (m : Mark R) (v : R.Value) : Prop :=
  ∃ kvs, v = .obj kvs ∧
    match m with
    | .event e => Dict.get kvs "event" = some (.str e.event) ∧
        Dict.get kvs "details" = some (.obj e.details) ∧
        Dict.get kvs "timestamp_ns" = some (.int e.timestampNs)
    | .rotation t => Dict.get kvs "event" = some (.str "rotation_boundary") ∧
        Dict.get kvs "timestamp_ns" = some (.int t) ∧
        ∃ name hash file events last,
          Dict.get kvs "details" = some (.obj [("archived_to", .str name),
            ("previous_file_last_hash", .str hash)]) ∧
          f.contents stem suffix name = some file ∧
          readLogFile R (some file) = .ok (events ++ [.obj last]) ∧
          Dict.get last "event_hash" = some (.str hash)

end Run

/-! ## 2. Segments -/

section Segments

/-- The entries of a log, by the file they are in. -/
structure Segments (R : Runtime) where
  archived : List (List (AuditEntry R))
  current : List (AuditEntry R)

variable {R : Runtime} (stem suffix : String)

/-- The entry that opens a file, behind the archive `n` that ends in `lastHash`. -/
def boundaryEntry (n : Nat) (lastHash : String) (timestampNs : Nat) : AuditEntry R where
  event := "rotation_boundary"
  details := [("archived_to", .str (archiveName stem suffix n)),
    ("previous_file_last_hash", .str lastHash)]
  timestampNs := timestampNs
  wf := ⟨Dict.sorted_of_keys (rfl : _ = ["archived_to", "previous_file_last_hash"]) (by decide),
    trivial, trivial, trivial⟩

/-- The entry a mark adds. -/
def Segments.entry (g : Segments R) : Mark R → AuditEntry R
  | .event e => e
  | .rotation t => boundaryEntry stem suffix (g.archived.length + 1) (hashOf R g.current) t

/-- What a mark makes of the segments. -/
def Segments.mark (g : Segments R) : Mark R → Segments R
  | .event e => { g with current := g.current ++ [e] }
  | .rotation t => ⟨g.archived ++ [g.current], [g.entry stem suffix (.rotation t)]⟩

/-- The segments of a log with these marks. -/
def segmentsOf (marks : List (Mark R)) : Segments R :=
  marks.foldl (Segments.mark stem suffix) ⟨[], []⟩

variable {stem suffix}

theorem segmentsOf_append (marks marks' : List (Mark R)) :
    segmentsOf stem suffix (marks ++ marks') =
      marks'.foldl (Segments.mark stem suffix) (segmentsOf stem suffix marks) := by
  rw [segmentsOf, List.foldl_append]
  rfl

/-- Archived segments stay. -/
theorem Segments.archived_mark (g : Segments R) (m : Mark R) :
    g.archived <+: (g.mark stem suffix m).archived := by
  cases m with
  | event e => exact List.prefix_rfl
  | rotation t => exact List.prefix_append _ _

/-! ### Values -/

/-- The values that entries read back as, behind one with hash `h`. -/
def valuesFrom (h : String) : List (AuditEntry R) → List R.Value
  | [] => []
  | e :: es => .obj (sealed R "event_hash" (e.body h)) :: valuesFrom (e.hash h) es

/-- The values of a file. -/
def valuesOf (es : List (AuditEntry R)) : List R.Value := valuesFrom zeroHash es

theorem valuesFrom_concat (e : AuditEntry R) : ∀ (es : List (AuditEntry R)) (h : String),
    valuesFrom h (es ++ [e]) = valuesFrom h es ++
      [.obj (sealed R "event_hash" (e.body (es.foldl (fun h e => e.hash h) h)))]
  | [], _ => rfl
  | f :: es, h => by
    rw [List.cons_append, valuesFrom, valuesFrom_concat e es (f.hash h)]
    rfl

theorem valuesOf_concat (es : List (AuditEntry R)) (e : AuditEntry R) :
    valuesOf (es ++ [e]) = valuesOf es ++ [.obj (sealed R "event_hash" (e.body (hashOf R es)))] :=
  valuesFrom_concat e es zeroHash

/-- The hash in a mark's own entry. -/
def Segments.previousHash (g : Segments R) : Mark R → String
  | .event _ => hashOf R g.current
  | .rotation _ => zeroHash

/-- The value of a mark. -/
def Segments.value (stem suffix : String) (g : Segments R) (m : Mark R) : R.Value :=
  .obj (sealed R "event_hash" ((g.entry stem suffix m).body (g.previousHash m)))

/-- All the values, oldest first. -/
def Segments.values (g : Segments R) : List R.Value := g.archived.flatMap valuesOf ++ valuesOf g.current

/-- **A mark adds one value at the end.** -/
theorem Segments.values_mark (g : Segments R) (m : Mark R) :
    (g.mark stem suffix m).values = g.values ++ [g.value stem suffix m] := by
  cases m with
  | event e =>
    simp only [Segments.values, Segments.mark, valuesOf_concat, List.append_assoc]
    rfl
  | rotation t =>
    simp only [Segments.values, Segments.mark, List.flatMap_append, List.flatMap_singleton]
    rfl

theorem Segments.values_marks (marks : List (Mark R)) :
    ∀ g : Segments R, g.values <+: (marks.foldl (Segments.mark stem suffix) g).values := by
  induction marks with
  | nil => exact fun g => List.prefix_rfl
  | cons m marks ih =>
    intro g
    have hstep : g.values <+: (g.mark stem suffix m).values := by
      rw [g.values_mark]
      exact List.prefix_append _ _
    exact hstep.trans (ih _)

theorem readLogFile_chainOf (es : List (AuditEntry R)) :
    readLogFile R (some (chainOf R es)) = .ok (valuesOf es) := by
  have hread : ∀ (es : List (AuditEntry R)) (h : String),
      ((writtenLines (fun h (e : AuditEntry R) => e.line h) (fun h e => e.hash h) h es).filter
        fun raw => !blank raw).mapM R.loads = .ok (valuesFrom h es) := by
    intro es
    induction es with
    | nil => exact fun h => rfl
    | cons e es ih =>
      intro h
      have hblank : blank (e.line h) = false := blank_sealedLine _ _
      rw [writtenLines, List.filter_cons_of_pos (by rw [hblank]; rfl), List.mapM_cons,
        bind_of_ok (e.loads_line h), bind_of_ok (ih (e.hash h))]
      rfl
  have hlines := splitLines_chainOf es []
  have hnil : splitLines [] = [] := rfl
  rw [List.append_nil, hnil, List.append_nil] at hlines
  rw [readLogFile, hlines]
  exact hread es zeroHash

/-! ### Files -/

/-- The archives of some segments. -/
def archivesOf (segments : List (List (AuditEntry R))) : List (Nat × Bytes) :=
  (segments.zipIdx 1).map fun p => (p.2, chainOf R p.1)

/-- The files of a log. -/
def Segments.files (g : Segments R) : AuditFiles := ⟨some (chainOf R g.current), archivesOf g.archived⟩

theorem archivesOf_concat (segments : List (List (AuditEntry R))) (es : List (AuditEntry R)) :
    archivesOf (segments ++ [es]) = archivesOf segments ++ [(segments.length + 1, chainOf R es)] := by
  rw [archivesOf, List.zipIdx_append, List.map_append, Nat.add_comm 1]
  rfl

theorem map_fst_archivesOf (segments : List (List (AuditEntry R))) :
    (archivesOf segments).map Prod.fst = List.range' 1 segments.length := by
  rw [archivesOf, List.map_map, ← List.zipIdx_map_snd 1 segments]
  rfl

theorem archivesOf_sorted (segments : List (List (AuditEntry R))) :
    ((archivesOf segments).map Prod.fst).Pairwise (· < ·) := by
  rw [map_fst_archivesOf]
  exact List.pairwise_lt_range'

theorem mem_archivesOf {segments : List (List (AuditEntry R))} {n : Nat} {es : List (AuditEntry R)}
    (h : segments[n]? = some es) : (n + 1, chainOf R es) ∈ archivesOf segments := by
  refine List.mem_map.mpr ⟨(es, n + 1), ?_, rfl⟩
  exact List.mem_zipIdx_iff_le_and_getElem?_sub.mpr ⟨Nat.le_add_left 1 n, h⟩

/-- The archives of a log, as the listing finds them. -/
def Segments.paths (stem suffix : String) (g : Segments R) : List (Nat × String) :=
  (g.archived.zipIdx 1).map fun p => (p.2, archiveName stem suffix p.2)

theorem archivesIn_segments (hsuffix : suffix ≠ "") (g : Segments R) {names : List String}
    (hnames : names.Perm (g.files.fileNames stem suffix)) :
    archivesIn stem suffix names = g.paths stem suffix := by
  have hsorted : (g.files.archives.map Prod.fst).Pairwise (· < ·) := archivesOf_sorted g.archived
  rw [archivesIn_fileNames hsuffix hsorted hnames]
  exact List.map_map

theorem read_archive (hsuffix : suffix ≠ "") {g : Segments R} {n : Nat} {es : List (AuditEntry R)}
    (h : g.archived[n]? = some es) :
    readLogFile R (g.files.contents stem suffix (archiveName stem suffix (n + 1))) =
      .ok (valuesOf es) := by
  have hsorted : (g.files.archives.map Prod.fst).Pairwise (· < ·) := archivesOf_sorted g.archived
  rw [contents_archive hsuffix hsorted (mem_archivesOf h)]
  exact readLogFile_chainOf es

theorem read_active (g : Segments R) :
    readLogFile R (g.files.contents stem suffix (stem ++ suffix)) = .ok (valuesOf g.current) := by
  rw [contents_active]
  exact readLogFile_chainOf g.current

/-- **The listing of a quiescent log**, in whatever order its files are named. -/
theorem collect_segments (hsuffix : suffix ≠ "") (g : Segments R) {names : List String}
    (hnames : names.Perm (g.files.fileNames stem suffix)) :
    collectAllEvents R stem suffix names (g.files.contents stem suffix) = .ok g.values := by
  have hread : (archivesIn stem suffix names).mapM
      (fun a => readLogFile R (g.files.contents stem suffix a.2)) =
        .ok (g.archived.map valuesOf) := by
    have heach : ∀ p ∈ g.archived.zipIdx 1, readLogFile R (g.files.contents stem suffix
        (archiveName stem suffix p.2)) = .ok (valuesOf p.1) := by
      intro p hp
      obtain ⟨hle, hget⟩ := List.mem_zipIdx_iff_le_and_getElem?_sub.mp hp
      have hn : p.2 - 1 + 1 = p.2 := Nat.sub_add_cancel hle
      rw [← hn]
      exact read_archive hsuffix hget
    have hvalues : (g.archived.zipIdx 1).map (fun p => valuesOf p.1) = g.archived.map valuesOf := by
      conv_rhs => rw [← List.zipIdx_map_fst 1 g.archived, List.map_map]
      rfl
    rw [archivesIn_segments hsuffix g hnames, Segments.paths, List.mapM_map, ← hvalues]
    exact mapM_of_ok heach
  rw [collectAllEvents, bind_of_ok hread, bind_of_ok (read_active g)]
  rfl

end Segments

/-! ## 3. The files are those of the segments -/

section Kept

variable {R : Runtime} {stem suffix : String}

theorem firstFree_archivesOf (segments : List (List (AuditEntry R))) : ∀ fuel i : Nat, 1 ≤ i →
    i ≤ segments.length + 1 → segments.length + 1 ≤ fuel + i →
    AuditLog.firstFree (archivesOf segments) fuel i = segments.length + 1
  | 0, i, _, hi, hfuel => by
    rw [AuditLog.firstFree]
    omega
  | fuel + 1, i, hpos, hi, hfuel => by
    have htaken : (archivesOf segments).any (fun a => decide (a.1 = i)) = true ↔
        i < segments.length + 1 := by
      have hmem : (archivesOf segments).any (fun a => decide (a.1 = i)) = true ↔
          i ∈ (archivesOf segments).map Prod.fst := by
        simp [List.any_eq_true]
      rw [hmem, map_fst_archivesOf, List.mem_range'_1]
      omega
    rw [AuditLog.firstFree]
    split
    · rename_i h
      have hlt := htaken.mp h
      exact firstFree_archivesOf segments fuel (i + 1) (by omega) (by omega) (by omega)
    · rename_i h
      have hge : ¬ i < segments.length + 1 := fun hlt => h (htaken.mpr hlt)
      omega

/-- **The next archive's number** is found behind the last one. -/
theorem nextArchive_archivesOf (segments : List (List (AuditEntry R))) :
    AuditLog.nextArchive (archivesOf segments) = segments.length + 1 := by
  have hlen : (archivesOf segments).length = segments.length := by
    rw [archivesOf, List.length_map, List.length_zipIdx]
  rw [AuditLog.nextArchive, hlen]
  exact firstFree_archivesOf segments segments.length 1 (by omega) (by omega) (by omega)

/-- The object belongs to the segments. -/
structure AuditLog.At (stem suffix : String) (g : Segments R) (log : AuditLog) : Prop where
  stem : log.stem = stem
  suffix : log.suffix = suffix
  hash : log.lastHash = hashOf R g.current

/-- **One record.** -/
theorem AuditLog.At.record {g : Segments R} {log : AuditLog} (h : log.At stem suffix g)
    (e : AuditEntry R) :
    (log.record R e.event e.details e.timestampNs).2.At stem suffix (g.mark stem suffix (.event e)) ∧
      (log.record R e.event e.details e.timestampNs).1.apply g.files =
        (g.mark stem suffix (.event e)).files := by
  have hline : sealedLine R "event_hash" (auditBody log.lastHash e.event e.details e.timestampNs) =
      e.line (hashOf R g.current) := by
    rw [h.hash]
    rfl
  refine ⟨⟨h.stem, h.suffix, ?_⟩, ?_⟩
  · simp only [Segments.mark, hashOf_concat, ← h.hash]
    rfl
  · simp only [AuditLog.record, AuditEffect.apply, Segments.files, Segments.mark, Option.getD_some,
      hline, chainOf_concat]

/-- **One rotation.** -/
theorem AuditLog.At.rotate {g : Segments R} {log : AuditLog} (h : log.At stem suffix g)
    (timestampNs : Nat) :
    (log.rotate R g.files timestampNs).2.At stem suffix
        (g.mark stem suffix (.rotation timestampNs)) ∧
      applyAudit (log.rotate R g.files timestampNs).1 g.files =
        (g.mark stem suffix (.rotation timestampNs)).files := by
  have hn : AuditLog.nextArchive g.files.archives = g.archived.length + 1 :=
    nextArchive_archivesOf g.archived
  have hbody : auditBody zeroHash "rotation_boundary"
      [("archived_to", .str s!"{log.stem}.{AuditLog.nextArchive g.files.archives}{log.suffix}"),
        ("previous_file_last_hash", .str log.lastHash)] timestampNs =
      (g.entry stem suffix (.rotation timestampNs)).body zeroHash := by
    rw [hn, h.stem, h.suffix, h.hash]
    rfl
  refine ⟨⟨h.stem, h.suffix, ?_⟩, ?_⟩
  · simp only [AuditLog.rotate, hbody]
    rfl
  · simp only [AuditLog.rotate, hbody]
    have hline : chainOf R [g.entry stem suffix (.rotation timestampNs)] =
        (g.entry stem suffix (.rotation timestampNs)).line zeroHash :=
      (chainOf_concat [] _).trans (List.nil_append _)
    simp only [applyAudit, List.foldl_cons, List.foldl_nil, AuditEffect.apply, Segments.files,
      nextArchive_archivesOf, Segments.mark, archivesOf_concat, Option.getD_none, Option.getD_some,
      List.nil_append, hline]
    rfl

/-- **The invariant of a run.** -/
structure Logging.Kept (stem suffix : String) (s : Logging R) : Prop where
  object : s.log.At stem suffix (segmentsOf stem suffix s.marks)
  files : s.files = (segmentsOf stem suffix s.marks).files
  /-- No file is archived empty. -/
  nonempty : ∀ es ∈ (segmentsOf stem suffix s.marks).archived, es ≠ []
  raised : s.raised = false

theorem Logging.Kept.start (maxBytes : Nat) : (Logging.start R stem suffix maxBytes).Kept stem suffix where
  object := ⟨rfl, rfl, rfl⟩
  files := rfl
  nonempty := fun es hes => by cases hes
  raised := rfl

/-- A file that has reached a limit is not empty. -/
theorem Segments.current_ne_nil {g : Segments R} {log : AuditLog} (h : log.full g.files = true) :
    g.current ≠ [] := by
  intro hnil
  rw [AuditLog.full, Bool.and_eq_true, decide_eq_true_eq, decide_eq_true_eq] at h
  have hsize : g.files.size = 0 := by
    rw [AuditFiles.size, Segments.files, hnil]
    rfl
  omega

/-- The log after the rotation of an append, if there is one. -/
def Logging.rotated (clock : Nat → Nat) (s : Logging R) : Logging R :=
  if s.log.full s.files then
    { s with log := (s.log.rotate R s.files (clock s.ticks)).2
             files := applyAudit (s.log.rotate R s.files (clock s.ticks)).1 s.files
             ticks := s.ticks + 1
             marks := s.marks ++ [.rotation (clock s.ticks)] }
  else s

/-- The log after the record of an entry. -/
def Logging.recorded (s : Logging R) (e : AuditEntry R) : Logging R :=
  { s with log := (s.log.record R e.event e.details e.timestampNs).2
           files := (s.log.record R e.event e.details e.timestampNs).1.apply s.files
           ticks := s.ticks + 1
           marks := s.marks ++ [.event e] }

/-- An append is a rotation and a record. -/
theorem step_append (clock : Nat → Nat) (s : Logging R) (event : String) {details : Dict R.Value}
    (wf : (Json.obj details).Wf) :
    LogOp.step clock s (.append event details wf) =
      (s.rotated clock).recorded ⟨event, details, clock (s.rotated clock).ticks, wf⟩ := by
  by_cases hfull : s.log.full s.files
  · simp only [LogOp.step, AuditLog.append, AuditLog.marks, Logging.rotated, Logging.recorded, hfull,
      if_true, applyAudit, List.foldl_append, List.append_assoc]
    rfl
  · simp only [LogOp.step, AuditLog.append, AuditLog.marks, Logging.rotated, Logging.recorded, hfull]
    rfl

theorem Logging.Kept.rotated {s : Logging R} (h : s.Kept stem suffix) (clock : Nat → Nat) :
    (s.rotated clock).Kept stem suffix := by
  unfold Logging.rotated
  split
  · rename_i hfull
    have hfiles := h.files
    obtain ⟨h1, f1⟩ := h.object.rotate (clock s.ticks)
    rw [← hfiles] at h1 f1
    have hsegments : segmentsOf stem suffix (s.marks ++ [.rotation (clock s.ticks)]) =
        (segmentsOf stem suffix s.marks).mark stem suffix (.rotation (clock s.ticks)) :=
      segmentsOf_append _ _
    refine ⟨?_, ?_, ?_, h.raised⟩
    · rw [hsegments]
      exact h1
    · rw [hsegments]
      exact f1
    · intro es hes
      rw [hsegments] at hes
      rcases List.mem_append.mp hes with hes | hes
      · exact h.nonempty es hes
      · rw [hfiles] at hfull
        rw [List.mem_singleton.mp hes]
        exact Segments.current_ne_nil hfull
  · exact h

theorem Logging.Kept.recorded {s : Logging R} (h : s.Kept stem suffix) (e : AuditEntry R) :
    (s.recorded e).Kept stem suffix := by
  have hsegments : segmentsOf stem suffix (s.marks ++ [.event e]) =
      (segmentsOf stem suffix s.marks).mark stem suffix (.event e) := segmentsOf_append _ _
  obtain ⟨h1, f1⟩ := h.object.record e
  rw [← h.files] at f1
  refine ⟨?_, ?_, ?_, h.raised⟩
  · rw [Logging.recorded, hsegments]
    exact h1
  · rw [Logging.recorded, hsegments]
    exact f1
  · rw [Logging.recorded, hsegments]
    exact h.nonempty

theorem Logging.Kept.append {s : Logging R} (h : s.Kept stem suffix) (clock : Nat → Nat)
    (event : String) {details : Dict R.Value} (wf : (Json.obj details).Wf) :
    (LogOp.step clock s (.append event details wf)).Kept stem suffix := by
  rw [step_append]
  exact (h.rotated clock).recorded _

theorem Logging.Kept.reopen {s : Logging R} (h : s.Kept stem suffix) (clock : Nat → Nat)
    (maxBytes : Nat) : (LogOp.step clock s (.reopen maxBytes)).Kept stem suffix := by
  have hcreate : AuditEffect.create.apply s.files = s.files := by
    rw [h.files]
    rfl
  have hverify : verifyFile R (s.files.active.getD []) =
      .ok (hashOf R (segmentsOf stem suffix s.marks).current) := by
    rw [h.files]
    exact verifyFile_chainOf _
  have hinit : AuditLog.init R s.log.stem s.log.suffix maxBytes s.files =
      .ok (⟨s.log.stem, s.log.suffix, maxBytes,
        hashOf R (segmentsOf stem suffix s.marks).current⟩, s.files) := by
    rw [AuditLog.init, hcreate]
    exact bind_of_ok hverify
  simp only [LogOp.step, hinit]
  exact ⟨⟨h.object.stem, h.object.suffix, rfl⟩, h.files, h.nonempty, h.raised⟩

theorem Logging.Kept.step (clock : Nat → Nat) (s : Logging R) (o : LogOp R)
    (h : s.Kept stem suffix) : (LogOp.step clock s o).Kept stem suffix := by
  cases o with
  | append event details wf => exact h.append clock event wf
  | reopen maxBytes => exact h.reopen clock maxBytes

theorem Logging.Kept.run {s : Logging R} (h : s.Kept stem suffix) (clock : Nat → Nat)
    (ops : List (LogOp R)) : (ops.foldl (LogOp.step clock) s).Kept stem suffix :=
  run_invariant h ops fun s o _ h => h.step clock s o

/-- The marks only ever grow. -/
theorem marks_step (clock : Nat → Nat) (s : Logging R) (o : LogOp R) :
    s.marks <+: (LogOp.step clock s o).marks := by
  cases o with
  | append event details wf => exact List.prefix_append _ _
  | reopen maxBytes =>
    simp only [LogOp.step]
    split
    · exact List.prefix_rfl
    · exact List.prefix_rfl

theorem marks_run (clock : Nat → Nat) (s : Logging R) (ops : List (LogOp R)) :
    s.marks <+: (ops.foldl (LogOp.step clock) s).marks :=
  run_invariant (I := fun s' => s.marks <+: s'.marks) List.prefix_rfl ops
    fun s' o _ h => h.trans (marks_step clock s' o)

/-- The events of the marks are those of the calls. -/
theorem events_run (clock : Nat → Nat) : ∀ (ops : List (LogOp R)) (s : Logging R),
    (ops.foldl (LogOp.step clock) s).marks.filterMap Mark.event? =
      s.marks.filterMap Mark.event? ++ ops.filterMap LogOp.event?
  | [], s => by simp
  | o :: ops, s => by
    have hstep : (LogOp.step clock s o).marks.filterMap Mark.event? =
        s.marks.filterMap Mark.event? ++ o.event?.toList := by
      cases o with
      | append event details wf =>
        simp only [LogOp.step, AuditLog.marks, List.filterMap_append]
        split <;> rfl
      | reopen maxBytes =>
        simp only [LogOp.step, LogOp.event?, Option.toList_none, List.append_nil]
        split <;> rfl
    rw [List.foldl_cons, events_run clock ops, hstep, List.append_assoc]
    cases ho : o.event? with
    | none => simp [ho]
    | some e => simp [ho]

end Kept

/-! ## 4. What the listing shows -/

section Shows

variable {R : Runtime} {stem suffix : String}

/-- The value of a mark, given the segments that have been archived. -/
def Mark.Linked (stem suffix : String) (archived : List (List (AuditEntry R))) (m : Mark R)
    (v : R.Value) : Prop :=
  match m with
  | .event e => ∃ h, v = .obj (sealed R "event_hash" (e.body h))
  | .rotation t => ∃ n es, archived[n]? = some es ∧ v = .obj (sealed R "event_hash"
      ((boundaryEntry stem suffix (n + 1) (hashOf R es) t : AuditEntry R).body zeroHash))

theorem Mark.Linked.mono {archived archived' : List (List (AuditEntry R))} {m : Mark R} {v : R.Value}
    (h : m.Linked stem suffix archived v) (hpre : archived <+: archived') :
    m.Linked stem suffix archived' v := by
  cases m with
  | event e => exact h
  | rotation t =>
    obtain ⟨n, es, hes, hv⟩ := h
    obtain ⟨rest, rfl⟩ := hpre
    exact ⟨n, es, List.getElem?_append_left (List.getElem?_eq_some_iff.mp hes).1 ▸ hes, hv⟩

/-- The value that a mark adds. -/
theorem Segments.linked_mark (g : Segments R) (m : Mark R) :
    m.Linked stem suffix (g.mark stem suffix m).archived (g.value stem suffix m) := by
  cases m with
  | event e => exact ⟨_, rfl⟩
  | rotation t =>
    refine ⟨g.archived.length, g.current, ?_, rfl⟩
    simp [Segments.mark]

/-- **The values are those of the marks, in their order.** -/
theorem linked_values (marks : List (Mark R)) :
    List.Forall₂ (Mark.Linked stem suffix (segmentsOf stem suffix marks).archived) marks
      (segmentsOf stem suffix marks).values := by
  induction marks using List.reverseRecOn with
  | nil => exact List.Forall₂.nil
  | append_singleton marks m ih =>
    have hstep : segmentsOf stem suffix (marks ++ [m]) =
        (segmentsOf stem suffix marks).mark stem suffix m := segmentsOf_append marks [m]
    rw [hstep, Segments.values_mark]
    have harchived : (segmentsOf stem suffix marks).archived <+:
        ((segmentsOf stem suffix marks).mark stem suffix m).archived := Segments.archived_mark _ m
    have hold := ih.imp fun m' v h => h.mono harchived
    exact List.rel_append hold (List.Forall₂.cons (Segments.linked_mark _ m) List.Forall₂.nil)

theorem AuditEntry.get_sealed (e : AuditEntry R) (h : String) :
    Dict.get (sealed R "event_hash" (e.body h)) "event" = some (.str e.event) ∧
      Dict.get (sealed R "event_hash" (e.body h)) "details" = some (.obj e.details) ∧
      Dict.get (sealed R "event_hash" (e.body h)) "timestamp_ns" = some (.int e.timestampNs) ∧
      Dict.get (sealed R "event_hash" (e.body h)) "event_hash" = some (.str (e.hash h)) :=
  ⟨Dict.get_set_of_ne (by decide) _, Dict.get_set_of_ne (by decide) _,
    Dict.get_set_of_ne (by decide) _, Dict.get_set_self _⟩

theorem Mark.Linked.shows (hsuffix : suffix ≠ "") {g : Segments R}
    (hnonempty : ∀ es ∈ g.archived, es ≠ []) {m : Mark R} {v : R.Value}
    (h : m.Linked stem suffix g.archived v) : m.Shows stem suffix g.files v := by
  cases m with
  | event e =>
    obtain ⟨hash, rfl⟩ := h
    obtain ⟨hevent, hdetails, htime, -⟩ := e.get_sealed hash
    exact ⟨_, rfl, hevent, hdetails, htime⟩
  | rotation t =>
    obtain ⟨n, es, hes, rfl⟩ := h
    obtain ⟨hevent, hdetails, htime, -⟩ := AuditEntry.get_sealed
      (boundaryEntry stem suffix (n + 1) (hashOf R es) t : AuditEntry R) zeroHash
    refine ⟨_, rfl, hevent, htime, archiveName stem suffix (n + 1), hashOf R es, chainOf R es, ?_⟩
    obtain ⟨fs, e, rfl⟩ := List.eq_nil_or_concat es |>.resolve_left
      (hnonempty es (List.mem_of_getElem? hes))
    rw [List.concat_eq_append] at hes hdetails ⊢
    refine ⟨valuesOf fs, sealed R "event_hash" (e.body (hashOf R fs)), hdetails, ?_, ?_, ?_⟩
    · exact contents_archive hsuffix (archivesOf_sorted g.archived) (mem_archivesOf hes)
    · rw [readLogFile_chainOf, valuesOf_concat]
    · rw [(e.get_sealed (hashOf R fs)).2.2.2, hashOf_concat]

/-- **What the listing of a log in a run returns.** -/
theorem Logging.Kept.collect {s : Logging R} (h : s.Kept stem suffix) (hsuffix : suffix ≠ "")
    {names : List String} (hnames : names.Perm (s.files.fileNames stem suffix)) :
    collectAllEvents R stem suffix names (s.files.contents stem suffix) =
        .ok (segmentsOf stem suffix s.marks).values ∧
      List.Forall₂ (Mark.Shows stem suffix s.files) s.marks
        (segmentsOf stem suffix s.marks).values := by
  rw [h.files] at hnames ⊢
  exact ⟨collect_segments hsuffix _ hnames,
    (linked_values s.marks).imp fun m v hm => hm.shows hsuffix h.nonempty⟩

theorem Logging.Kept.verify {s : Logging R} (h : s.Kept stem suffix) :
    verifyFile R (s.files.active.getD []) = .ok s.log.lastHash ∧
      ∀ a ∈ s.files.archives, ∃ hash, verifyFile R a.2 = .ok hash := by
  rw [h.object.hash, h.files]
  refine ⟨verifyFile_chainOf _, ?_⟩
  intro a ha
  obtain ⟨p, -, rfl⟩ := List.mem_map.mp ha
  exact ⟨_, verifyFile_chainOf p.1⟩

/-- **Rotation loses, duplicates and reorders nothing.**  After any appends and reopenings, with
any limits, every file verifies and the listing shows the marks of the run one by one, the events
of the marks being those that were appended; and what is listed now is a prefix of what is listed
at any later time. -/
theorem rotation_keeps_history (R : Runtime) (stem suffix : String) (hsuffix : suffix ≠ "")
    (maxBytes : Nat) (clock : Nat → Nat) (ops : List (LogOp R)) :
    let start := Logging.start R stem suffix maxBytes
    let s := ops.foldl (LogOp.step clock) start
    AuditLog.init R stem suffix maxBytes ⟨none, []⟩ = .ok (start.log, start.files) ∧
      s.raised = false ∧
      verifyFile R (s.files.active.getD []) = .ok s.log.lastHash ∧
      (∀ a ∈ s.files.archives, ∃ hash, verifyFile R a.2 = .ok hash) ∧
      s.marks.filterMap Mark.event? = ops.filterMap LogOp.event? ∧
      ∀ names, names.Perm (s.files.fileNames stem suffix) →
        ∃ events, collectAllEvents R stem suffix names (s.files.contents stem suffix) = .ok events ∧
          List.Forall₂ (Mark.Shows stem suffix s.files) s.marks events ∧
          ∀ more names', let s' := List.foldl (LogOp.step clock) s more
            names'.Perm (s'.files.fileNames stem suffix) →
            ∃ events', collectAllEvents R stem suffix names' (s'.files.contents stem suffix) =
              .ok events' ∧ events <+: events' := by
  intro start s
  have h : s.Kept stem suffix := (Logging.Kept.start maxBytes).run clock ops
  obtain ⟨hactive, harchives⟩ := h.verify
  have hevents : s.marks.filterMap Mark.event? = ops.filterMap LogOp.event? :=
    events_run clock ops start
  refine ⟨rfl, h.raised, hactive, harchives, hevents, ?_⟩
  intro names hnames
  obtain ⟨hcollect, hshows⟩ := h.collect hsuffix hnames
  refine ⟨_, hcollect, hshows, ?_⟩
  intro more names' s' hnames'
  obtain ⟨hcollect', -⟩ := (h.run clock more).collect hsuffix hnames'
  refine ⟨_, hcollect', ?_⟩
  obtain ⟨marks, hmarks⟩ := marks_run clock s more
  rw [← hmarks, segmentsOf_append]
  exact Segments.values_marks marks _

theorem rotation_keeps_history_one_byte :
    let ops : List (LogOp Runtime.reference) := [.append "a" [] ⟨List.Pairwise.nil, trivial⟩,
      .append "b" [] ⟨List.Pairwise.nil, trivial⟩, .reopen 0,
      .append "c" [] ⟨List.Pairwise.nil, trivial⟩]
    let s := ops.foldl (LogOp.step id) (Logging.start Runtime.reference "audit" ".jsonl" 1)
    ∃ events, collectAllEvents Runtime.reference "audit" ".jsonl"
        (s.files.fileNames "audit" ".jsonl") (s.files.contents "audit" ".jsonl") = .ok events ∧
      List.Forall₂ (Mark.Shows "audit" ".jsonl" s.files) s.marks events := by
  intro ops s
  obtain ⟨-, -, -, -, -, hcollect⟩ := rotation_keeps_history Runtime.reference "audit" ".jsonl"
    (by decide) 1 id ops
  obtain ⟨events, hevents, hshows, -⟩ := hcollect _ (List.Perm.refl _)
  exact ⟨events, hevents, hshows⟩

end Shows

end AegisShield
