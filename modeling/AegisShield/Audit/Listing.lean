/-
# A listing while the log is written

`_collect_all_events` takes no lock: it lists the names, reads the archives one after the other and
then the active file, and appends run in between.  Archives never change, and what is appended to
the active file shows or does not show, which is both fine.  A rotation is not: it moves the active
file to a name that was not listed, and all its events are gone from the result
(`rotation_hides_events`).  Nothing else goes wrong (`listing_has_no_holes`).

The order in which `iterdir` lists the names is `order`.
-/
import AegisShield.Audit.Rotation

namespace AegisShield

open Lib

/-! ## 1. Interleavings -/

/-- How far a listing is. -/
inductive Phase (R : Runtime)
  | idle
  /-- The archives still to be read, and the events so far. -/
  | reading (todo : List (Nat × String)) (events : List R.Value)
  | done (result : Except Raised (List R.Value))

/-- A log in use, and a listing of it.  `earlier` is for the record: what a listing at one moment
would have returned when this one started. -/
structure Listing (R : Runtime) where
  logging : Logging R
  phase : Phase R
  earlier : Except Raised (List R.Value)

/-- A step of the interleaving. -/
inductive ListingOp (R : Runtime)
  /-- A call on the log, as a whole. -/
  | log (op : LogOp R)
  /-- The listing takes the names. -/
  | names
  /-- The listing reads its next file. -/
  | read

section Listing

variable {R : Runtime}

/-- What the log holds at this moment. -/
def Logging.listed (order : List String → List String) (s : Logging R) :
    Except Raised (List R.Value) :=
  collectAllEvents R s.log.stem s.log.suffix (order (s.files.fileNames s.log.stem s.log.suffix))
    (s.files.contents s.log.stem s.log.suffix)

/-- The next file of a listing. -/
def Logging.readNext (s : Logging R) (todo : List (Nat × String)) (events : List R.Value) : Phase R :=
  match todo with
  | a :: todo =>
    match readLogFile R (s.files.contents s.log.stem s.log.suffix a.2) with
    | .ok more => .reading todo (events ++ more)
    | .error e => .done (.error e)
  | [] =>
    .done ((readLogFile R (s.files.contents s.log.stem s.log.suffix
      (s.log.stem ++ s.log.suffix))).map fun more => events ++ more)

/-- One step. -/
def ListingOp.step (order : List String → List String) (clock : Nat → Nat) (y : Listing R) :
    ListingOp R → Listing R
  | .log op => { y with logging := op.step clock y.logging }
  | .names =>
    match y.phase with
    | .idle =>
      let s := y.logging
      { y with phase := .reading (archivesIn s.log.stem s.log.suffix
                 (order (s.files.fileNames s.log.stem s.log.suffix))) []
               earlier := s.listed order }
    | _ => y
  | .read =>
    match y.phase with
    | .reading todo events => { y with phase := y.logging.readNext todo events }
    | _ => y

/-- A new log, and no listing yet. -/
def Listing.start (R : Runtime) (stem suffix : String) (maxBytes : Nat) : Listing R :=
  ⟨Logging.start R stem suffix maxBytes, .idle, .ok []⟩

/-- **No holes**: a listing that has ended holds every event from before its start, in order, and
is a prefix of the log's history. -/
def Listing.Complete (order : List String → List String) (y : Listing R) : Prop :=
  ∀ result, y.phase = .done result → ∃ earlier events history, y.earlier = .ok earlier ∧
    result = .ok events ∧ y.logging.listed order = .ok history ∧ earlier.Sublist events ∧
    events <+: history

/-- The condition on a step: an append during a listing does not rotate. -/
def ListingOp.Calm (y : Listing R) : ListingOp R → Prop
  | .log (.append _ _ _) => ∀ todo events, y.phase = .reading todo events →
      y.logging.log.full y.logging.files = false
  | _ => True

/-! ## 2. The invariant -/

/-- A listing on its way has read the first archives, and no other archive has come up since. -/
def Listing.Tracks (stem suffix : String) (y : Listing R) : Prop :=
  let g := segmentsOf stem suffix y.logging.marks
  match y.phase with
  | .idle => True
  | .reading todo events => (∃ earlier, y.earlier = .ok earlier ∧ earlier <+: g.values) ∧
      ∃ i, todo = (g.paths stem suffix).drop i ∧ events = (g.archived.take i).flatMap valuesOf
  | .done result => ∃ earlier events, y.earlier = .ok earlier ∧ result = .ok events ∧
      earlier <+: events ∧ events <+: g.values

structure Listing.Kept (stem suffix : String) (y : Listing R) : Prop where
  logging : y.logging.Kept stem suffix
  tracks : y.Tracks stem suffix

variable {stem suffix : String} {order : List String → List String}

theorem Logging.Kept.listed {s : Logging R} (h : s.Kept stem suffix) (hsuffix : suffix ≠ "")
    (horder : ∀ names, (order names).Perm names) :
    s.listed order = .ok (segmentsOf stem suffix s.marks).values := by
  rw [Logging.listed, h.object.stem, h.object.suffix]
  exact (h.collect hsuffix (horder _)).1

theorem Listing.Kept.complete {y : Listing R} (h : y.Kept stem suffix) (hsuffix : suffix ≠ "")
    (horder : ∀ names, (order names).Perm names) : y.Complete order := by
  intro result hresult
  have htracks := h.tracks
  rw [Listing.Tracks, hresult] at htracks
  obtain ⟨earlier, events, hearlier, hevents, hpre, hprefix⟩ := htracks
  exact ⟨earlier, events, _, hearlier, hevents, h.logging.listed hsuffix horder, hpre.sublist,
    hprefix⟩

/-- The values of a longer history. -/
theorem values_of_marks {s s' : Logging R} (h : s.marks <+: s'.marks) :
    (segmentsOf stem suffix s.marks).values <+: (segmentsOf stem suffix s'.marks).values := by
  obtain ⟨marks, hmarks⟩ := h
  rw [← hmarks, segmentsOf_append]
  exact Segments.values_marks marks _

/-- Without a rotation, the archives are the same after a call. -/
theorem archived_step (clock : Nat → Nat) (s : Logging R) (op : LogOp R)
    (h : ∀ event details wf, op = .append event details wf → s.log.full s.files = false) :
    (segmentsOf stem suffix (op.step clock s).marks).archived =
      (segmentsOf stem suffix s.marks).archived := by
  cases op with
  | append event details wf =>
    simp only [LogOp.step, AuditLog.marks, h event details wf rfl, Bool.false_eq_true, if_false,
      segmentsOf_append]
    rfl
  | reopen maxBytes =>
    simp only [LogOp.step]
    split <;> rfl

/-- **A call on the log.** -/
theorem Listing.Kept.log {y : Listing R} (h : y.Kept stem suffix) (clock : Nat → Nat) (op : LogOp R)
    (hcalm : ListingOp.Calm y (.log op)) :
    (ListingOp.step order clock y (.log op)).Kept stem suffix := by
  refine ⟨h.logging.step clock _ op, ?_⟩
  have hvalues : (segmentsOf stem suffix y.logging.marks).values <+:
      (segmentsOf stem suffix (op.step clock y.logging).marks).values :=
    values_of_marks (marks_step clock y.logging op)
  have htracks := h.tracks
  obtain ⟨logging, phase, earlier⟩ := y
  cases phase with
  | idle => trivial
  | reading todo events =>
    obtain ⟨⟨before, hearlier, hbefore⟩, i, htodo, hevents⟩ := htracks
    have harchived : (segmentsOf stem suffix (op.step clock logging).marks).archived =
        (segmentsOf stem suffix logging.marks).archived := by
      refine archived_step clock logging op ?_
      rintro event details wf rfl
      exact hcalm todo events rfl
    refine ⟨⟨before, hearlier, hbefore.trans hvalues⟩, i, ?_, ?_⟩
    · rw [htodo, Segments.paths, Segments.paths]
      simp only [ListingOp.step, harchived]
    · simp only [ListingOp.step, harchived]
      exact hevents
  | done result =>
    obtain ⟨before, events, hearlier, hresult, hpre, hprefix⟩ := htracks
    exact ⟨before, events, hearlier, hresult, hpre, hprefix.trans hvalues⟩

/-- **The listing takes the names.** -/
theorem Listing.Kept.names {y : Listing R} (h : y.Kept stem suffix) (hsuffix : suffix ≠ "")
    (horder : ∀ names, (order names).Perm names) (clock : Nat → Nat) :
    (ListingOp.step order clock y .names).Kept stem suffix := by
  refine ⟨?_, ?_⟩
  · simp only [ListingOp.step]
    split <;> exact h.logging
  · have hlisted := h.logging.listed hsuffix horder
    have hlogging := h.logging
    have htracks := h.tracks
    obtain ⟨logging, phase, earlier⟩ := y
    cases phase with
    | idle =>
      have hpaths : archivesIn logging.log.stem logging.log.suffix
          (order (logging.files.fileNames logging.log.stem logging.log.suffix)) =
            (segmentsOf stem suffix logging.marks).paths stem suffix := by
        have hstem : logging.log.stem = stem := hlogging.object.stem
        have hsuffix' : logging.log.suffix = suffix := hlogging.object.suffix
        have hfiles : logging.files = (segmentsOf stem suffix logging.marks).files := hlogging.files
        rw [hstem, hsuffix', hfiles]
        exact archivesIn_segments hsuffix _ (horder _)
      exact ⟨⟨_, hlisted, List.prefix_rfl⟩, 0, hpaths, rfl⟩
    | reading todo events => exact htracks
    | done result => exact htracks

/-- The next file of a listing on its way. -/
theorem Logging.Kept.readNext {s : Logging R} (h : s.Kept stem suffix) (hsuffix : suffix ≠ "")
    {i : Nat} :
    let g := segmentsOf stem suffix s.marks
    s.readNext ((g.paths stem suffix).drop i) ((g.archived.take i).flatMap valuesOf) =
        .reading ((g.paths stem suffix).drop (i + 1)) ((g.archived.take (i + 1)).flatMap valuesOf) ∨
      s.readNext ((g.paths stem suffix).drop i) ((g.archived.take i).flatMap valuesOf) =
        .done (.ok g.values) := by
  intro g
  have hlength : (g.paths stem suffix).length = g.archived.length := by
    rw [Segments.paths, List.length_map, List.length_zipIdx]
  rcases Nat.lt_or_ge i g.archived.length with hi | hi
  · left
    have hpath : (g.paths stem suffix)[i] = (i + 1, archiveName stem suffix (i + 1)) := by
      simp only [Segments.paths, List.getElem_map, List.getElem_zipIdx, Nat.add_comm]
    have hread : readLogFile R (g.files.contents stem suffix (archiveName stem suffix (i + 1))) =
        .ok (valuesOf g.archived[i]) := read_archive hsuffix (List.getElem?_eq_getElem hi)
    rw [List.drop_eq_getElem_cons (by rw [hlength]; exact hi), hpath]
    simp only [Logging.readNext, h.object.stem, h.object.suffix]
    rw [h.files, hread, List.take_succ_eq_append_getElem hi, List.flatMap_append,
      List.flatMap_singleton]
  · right
    rw [List.drop_of_length_le (by omega), List.take_of_length_le hi]
    simp only [Logging.readNext, h.object.stem, h.object.suffix]
    rw [h.files, read_active]
    rfl

/-- **The listing reads a file.** -/
theorem Listing.Kept.read {y : Listing R} (h : y.Kept stem suffix) (hsuffix : suffix ≠ "")
    (clock : Nat → Nat) : (ListingOp.step order clock y .read).Kept stem suffix := by
  refine ⟨?_, ?_⟩
  · simp only [ListingOp.step]
    split <;> exact h.logging
  · have hlogging := h.logging
    have htracks := h.tracks
    obtain ⟨logging, phase, earlier⟩ := y
    cases phase with
    | idle => trivial
    | reading todo events =>
      obtain ⟨⟨before, hearlier, hbefore⟩, i, htodo, hevents⟩ := htracks
      have hnext := hlogging.readNext hsuffix (i := i)
      dsimp only at htodo hevents hnext
      rw [← htodo, ← hevents] at hnext
      simp only [ListingOp.step]
      rcases hnext with hnext | hnext
      · rw [hnext]
        exact ⟨⟨before, hearlier, hbefore⟩, i + 1, rfl, rfl⟩
      · rw [hnext]
        exact ⟨before, _, hearlier, rfl, hbefore, List.prefix_rfl⟩
    | done result => exact htracks

/-! ## 3. Main results -/

/-- **The listing has no holes** in any interleaving in which no append rotates the log between the
listing of the names and the reading of the active file. -/
theorem listing_has_no_holes (hsuffix : suffix ≠ "") (horder : ∀ names, (order names).Perm names)
    (maxBytes : Nat) (clock : Nat → Nat) {ops : List (ListingOp R)}
    (hcalm : Along (ListingOp.step order clock) ListingOp.Calm
      (Listing.start R stem suffix maxBytes) ops)
    {pre : List (ListingOp R)} (hpre : pre <+: ops) :
    (pre.foldl (ListingOp.step order clock) (Listing.start R stem suffix maxBytes)).Complete
      order := by
  have hstart : (Listing.start R stem suffix maxBytes).Kept stem suffix :=
    ⟨Logging.Kept.start maxBytes, trivial⟩
  have hstep : ∀ (y : Listing R) (o : ListingOp R), o.Calm y → Listing.Kept stem suffix y →
      Listing.Kept stem suffix (ListingOp.step order clock y o) := by
    intro y o ho h
    cases o with
    | log op => exact h.log clock op ho
    | names => exact h.names hsuffix horder clock
    | read => exact h.read hsuffix clock
  exact (run_along_initial hstep hstart hcalm hpre).complete hsuffix horder

end Listing

/-- An event without details. -/
abbrev plainEvent (event : String) : LogOp Runtime.reference :=
  .append event [] ⟨List.Pairwise.nil, trivial⟩

theorem listing_has_no_holes_two_events :
    ([.log (plainEvent "a"), .names, .log (plainEvent "b"), .read].foldl
      (ListingOp.step id id) (Listing.start Runtime.reference "audit" ".jsonl" 0)).Complete id := by
  refine listing_has_no_holes (by decide) (fun names => List.Perm.refl names) 0 id ?_
    List.prefix_rfl
  refine ⟨fun _ _ _ => rfl, trivial, fun _ _ _ => rfl, trivial, trivial⟩

/-- **A rotation hides events.**  With a limit of one byte, the second append rotates the log
between the listing of the names and the reading of the active file, and the first event, which was
there when the listing started, is not in the result. -/
theorem rotation_hides_events :
    let y := [.log (plainEvent "a"), .names, .log (plainEvent "b"), .read].foldl
      (ListingOp.step id id) (Listing.start Runtime.reference "audit" ".jsonl" 1)
    ∃ earlier events, y.earlier = .ok earlier ∧ y.phase = .done (.ok events) ∧
      ¬ earlier.Sublist events ∧ ¬ y.Complete id := by
  let s₁ := LogOp.step id (Logging.start Runtime.reference "audit" ".jsonl" 1) (plainEvent "a")
  let s₂ := LogOp.step id s₁ (plainEvent "b")
  have h₁ : s₁.Kept "audit" ".jsonl" := (Logging.Kept.start 1).step id _ (plainEvent "a")
  have h₂ : s₂.Kept "audit" ".jsonl" := h₁.step id s₁ (plainEvent "b")
  let a : AuditEntry Runtime.reference := ⟨"a", [], 0, ⟨List.Pairwise.nil, trivial⟩⟩
  let b : AuditEntry Runtime.reference := ⟨"b", [], 2, ⟨List.Pairwise.nil, trivial⟩⟩
  have hmarks₁ : s₁.marks = [.event a] := rfl
  -- one event is more than the byte a file may hold, so the second one rotates
  have hfull : s₁.log.full s₁.files = true := by
    have hmax : s₁.log.maxBytes = 1 := rfl
    have hsize : s₁.files.size = (chainOf Runtime.reference [a]).length := by
      rw [AuditFiles.size, h₁.files, hmarks₁]
      rfl
    have hpos := List.length_pos_of_ne_nil (chainOf_ne_nil (List.cons_ne_nil a []))
    rw [AuditLog.full, hmax, hsize, Bool.and_eq_true, decide_eq_true_eq, decide_eq_true_eq]
    exact ⟨Nat.one_pos, hpos⟩
  have hmarks₂ : s₂.marks = [.event a, .rotation 1, .event b] := by
    have hstep : s₂.marks = s₁.marks ++ s₁.log.marks s₁.files (fun i => id (s₁.ticks + i)) "b" []
        ⟨List.Pairwise.nil, trivial⟩ := rfl
    have happended : s₁.log.marks s₁.files (fun i => id (s₁.ticks + i)) "b" []
        ⟨List.Pairwise.nil, trivial⟩ = [.rotation 1, .event b] := if_pos hfull
    rw [hstep, happended, hmarks₁]
    rfl
  let c : AuditEntry Runtime.reference :=
    boundaryEntry "audit" ".jsonl" 1 (hashOf Runtime.reference [a]) 1
  have hcurrent : (segmentsOf "audit" ".jsonl" s₂.marks).current = [c, b] := by
    rw [hmarks₂]
    rfl
  -- the names were taken before the rotation, the active file is read after it
  have hnames : archivesIn "audit" ".jsonl" (s₁.files.fileNames "audit" ".jsonl") = [] := by
    rw [h₁.files, archivesIn_segments (by decide) _ (List.Perm.refl _), hmarks₁]
    rfl
  have hearlier : s₁.listed id = .ok (valuesOf [a]) := by
    have hvalues : (segmentsOf "audit" ".jsonl" s₁.marks).values = valuesOf [a] := by
      rw [hmarks₁]
      rfl
    rw [← hvalues]
    exact h₁.listed (by decide) fun names => List.Perm.refl names
  have hread : s₂.readNext [] [] = .done (.ok (valuesOf [c, b])) := by
    have hstem : s₂.log.stem = "audit" := h₂.object.stem
    have hsuffix : s₂.log.suffix = ".jsonl" := h₂.object.suffix
    simp only [Logging.readNext, hstem, hsuffix]
    rw [h₂.files, read_active, hcurrent]
    rfl
  have hphase : ([.log (plainEvent "a"), .names, .log (plainEvent "b"), .read].foldl
      (ListingOp.step id id) (Listing.start Runtime.reference "audit" ".jsonl" 1)).phase =
        .done (.ok (valuesOf [c, b])) := by
    rw [← hread, ← hnames]
    rfl
  have hlost : ¬ (valuesOf [a]).Sublist (valuesOf [c, b]) := by
    intro hsub
    have hmem := hsub.subset List.mem_cons_self
    have hevent : ∀ (e f : AuditEntry Runtime.reference) (h h' : String), e.event ≠ f.event →
        (Json.obj (sealed Runtime.reference "event_hash" (e.body h)) : Runtime.reference.Value) ≠
          .obj (sealed Runtime.reference "event_hash" (f.body h')) := by
      intro e f h h' hne heq
      have hget := (e.get_sealed h).1
      rw [Json.obj.inj heq, (f.get_sealed h').1] at hget
      exact hne (Json.str.inj (Option.some.inj hget)).symm
    rcases List.mem_cons.mp hmem with heq | hmem
    · exact hevent a c _ _ (by decide) heq
    · exact hevent a b _ _ (by decide) (List.mem_singleton.mp hmem)
  refine ⟨valuesOf [a], valuesOf [c, b], hearlier, hphase, hlost, fun hcomplete => ?_⟩
  obtain ⟨earlier, events, -, hearlier', hevents, -, hsub, -⟩ := hcomplete _ hphase
  have h1 : Except.ok (valuesOf [a]) = Except.ok earlier := hearlier.symm.trans hearlier'
  obtain rfl := Except.ok.inj h1
  obtain rfl := Except.ok.inj hevents
  exact hlost hsub

end AegisShield
