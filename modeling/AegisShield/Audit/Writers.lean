/-
# Two writers of one audit log

`append` reads `_last_hash`, writes a line and sets `_last_hash`.  Engine operations do so under the
engine's lock, one at a time; `recovery_export` calls `engine.audit.append` without it.  The lock
is held by one of the two writers only, so it orders nothing between them: the steps of an export
fall anywhere between the steps of an engine operation.

Two appends that overlap build on the same hash, and the file no longer verifies
(`overlapping_appends_break_chain`).  As long as none overlap, the chain holds
(`writers_keep_chain`).
-/
import AegisShield.Audit.Listing
import AegisShield.Lib.JsonWf

namespace AegisShield

open Lib

/-! ## 1. Interleavings -/

/-- Who appends. -/
inductive Party
  /-- The operation that holds the engine's lock. -/
  | engine
  /-- A `recovery_export` request. -/
  | exporter
  deriving DecidableEq, Repr

/-- How far a party's append is. -/
inductive InFlight (R : Runtime)
  | idle
  /-- The record of `e` is built, with its own hash. -/
  | built (e : AuditEntry R) (line : Bytes) (hash : String)
  /-- The record is in the file. -/
  | written (hash : String)

/-- A log and its two writers.  `appended` is for the record: the events of all appends begun. -/
structure Writers (R : Runtime) where
  logging : Logging R
  phase : Party → InFlight R
  appended : List (String × Dict R.Value)

/-- A step of a party's `append`. -/
inductive WriterOp (R : Runtime)
  /-- Rotate if need be, and build the record from `_last_hash`. -/
  | build (party : Party) (event : String) (details : Dict R.Value) (wf : (Json.obj details).Wf)
  /-- Append its bytes to the file. -/
  | write (party : Party)
  /-- Set `_last_hash`. -/
  | set (party : Party)

section Writers

variable {R : Runtime}

/-- The object with another `_last_hash`. -/
def Logging.withHash (s : Logging R) (hash : String) : Logging R :=
  { s with log := { s.log with lastHash := hash } }

/-- One step. -/
def WriterOp.step (clock : Nat → Nat) (y : Writers R) : WriterOp R → Writers R
  | .build party event details wf =>
    match y.phase party with
    | .idle =>
      let s := y.logging.rotated clock
      let body := auditBody s.log.lastHash event details (clock s.ticks)
      { logging := { s with ticks := s.ticks + 1 }
        phase := Function.update y.phase party (.built ⟨event, details, clock s.ticks, wf⟩
          (sealedLine R "event_hash" body) (bodyHash R body))
        appended := y.appended ++ [(event, details)] }
    | _ => y
  | .write party =>
    match y.phase party with
    | .built e line hash =>
      { y with logging := { y.logging with files := (AuditEffect.write line).apply y.logging.files
                                           marks := y.logging.marks ++ [.event e] }
               phase := Function.update y.phase party (.written hash) }
    | _ => y
  | .set party =>
    match y.phase party with
    | .written hash =>
      { y with logging := y.logging.withHash hash
               phase := Function.update y.phase party .idle }
    | _ => y

/-- A new log, and no append in flight. -/
def Writers.start (R : Runtime) (stem suffix : String) (maxBytes : Nat) : Writers R :=
  ⟨Logging.start R stem suffix maxBytes, fun _ => .idle, []⟩

/-- **The chain holds**: when no append is in flight the active file verifies, and the log's
history shows every appended event exactly once. -/
def Writers.Sound (order : List String → List String) (y : Writers R) : Prop :=
  (∀ party, y.phase party = .idle) →
    (∃ hash, verifyFile R (y.logging.files.active.getD []) = .ok hash) ∧
      (y.logging.marks.filterMap Mark.event?).Perm y.appended ∧
      ∃ events, y.logging.listed order = .ok events ∧
        List.Forall₂ (Mark.Shows y.logging.log.stem y.logging.log.suffix y.logging.files)
          y.logging.marks events

/-- The condition on a step: an append begins only while no other one is in flight. -/
def WriterOp.Alone (y : Writers R) : WriterOp R → Prop
  | .build party _ _ _ => ∀ other, other ≠ party → y.phase other = .idle
  | _ => True

/-! ## 2. The invariant -/

/-- At most one append is in flight, and what it holds continues the chain. -/
inductive Writers.Solo (stem suffix : String) (y : Writers R) : Prop
  | idle (hidle : ∀ party, y.phase party = .idle) (h : y.logging.Kept stem suffix)
    (hevents : y.logging.marks.filterMap Mark.event? = y.appended)
  | built (party : Party) (e : AuditEntry R)
    (hothers : ∀ other, other ≠ party → y.phase other = .idle)
    (hphase : y.phase party = .built e (e.line y.logging.log.lastHash)
      (e.hash y.logging.log.lastHash))
    (h : y.logging.Kept stem suffix)
    (hevents : y.logging.marks.filterMap Mark.event? ++ [(e.event, e.details)] = y.appended)
  | written (party : Party) (hash : String)
    (hothers : ∀ other, other ≠ party → y.phase other = .idle)
    (hphase : y.phase party = .written hash) (h : (y.logging.withHash hash).Kept stem suffix)
    (hevents : y.logging.marks.filterMap Mark.event? = y.appended)

variable {stem suffix : String} {order : List String → List String}

theorem Writers.Solo.sound {y : Writers R} (h : y.Solo stem suffix) (hsuffix : suffix ≠ "")
    (horder : ∀ names, (order names).Perm names) : y.Sound order := by
  intro hidle
  cases h with
  | idle _ h hevents =>
    refine ⟨⟨_, h.verify.1⟩, List.Perm.of_eq hevents, _, h.listed hsuffix horder, ?_⟩
    rw [h.object.stem, h.object.suffix]
    exact (h.collect hsuffix (List.Perm.refl _)).2
  | built _ _ _ hphase _ _ =>
    rw [hidle] at hphase
    cases hphase
  | written _ _ _ hphase _ _ =>
    rw [hidle] at hphase
    cases hphase

theorem events_rotated (clock : Nat → Nat) (s : Logging R) :
    (s.rotated clock).marks.filterMap Mark.event? = s.marks.filterMap Mark.event? := by
  unfold Logging.rotated
  split
  · simp [Mark.event?]
  · rfl

/-- **A record is built** while everybody is idle. -/
theorem Writers.Solo.build {y : Writers R} (hidle : ∀ party, y.phase party = .idle)
    (h : y.logging.Kept stem suffix)
    (hevents : y.logging.marks.filterMap Mark.event? = y.appended) (clock : Nat → Nat)
    (party : Party) (event : String) {details : Dict R.Value} (wf : (Json.obj details).Wf) :
    (WriterOp.step clock y (.build party event details wf)).Solo stem suffix := by
  have hrotated := h.rotated clock
  simp only [WriterOp.step, hidle party]
  refine .built party ⟨event, details, clock (y.logging.rotated clock).ticks, wf⟩ ?_ ?_ ?_ ?_
  · intro other hother
    simp only [Function.update_of_ne hother]
    exact hidle other
  · simp only [Function.update_self]
    rfl
  · exact ⟨hrotated.object, hrotated.files, hrotated.nonempty, hrotated.raised⟩
  · exact congrArg (· ++ [(event, details)]) ((events_rotated clock y.logging).trans hevents)

/-- **The record is written.** -/
theorem Writers.Solo.write {y : Writers R} {party : Party} {e : AuditEntry R}
    (hothers : ∀ other, other ≠ party → y.phase other = .idle)
    (hphase : y.phase party = .built e (e.line y.logging.log.lastHash)
      (e.hash y.logging.log.lastHash))
    (h : y.logging.Kept stem suffix)
    (hevents : y.logging.marks.filterMap Mark.event? ++ [(e.event, e.details)] = y.appended)
    (clock : Nat → Nat) : (WriterOp.step clock y (.write party)).Solo stem suffix := by
  have hrecorded := h.recorded e
  simp only [WriterOp.step, hphase]
  refine .written party (e.hash y.logging.log.lastHash) ?_ ?_ ?_ ?_
  · intro other hother
    simp only [Function.update_of_ne hother]
    exact hothers other hother
  · simp only [Function.update_self]
  · exact ⟨hrecorded.object, hrecorded.files, hrecorded.nonempty, hrecorded.raised⟩
  · rw [← hevents, List.filterMap_append]
    rfl

/-- **The hash is set.** -/
theorem Writers.Solo.set {y : Writers R} {party : Party} {hash : String}
    (hothers : ∀ other, other ≠ party → y.phase other = .idle)
    (hphase : y.phase party = .written hash) (h : (y.logging.withHash hash).Kept stem suffix)
    (hevents : y.logging.marks.filterMap Mark.event? = y.appended) (clock : Nat → Nat) :
    (WriterOp.step clock y (.set party)).Solo stem suffix := by
  simp only [WriterOp.step, hphase]
  refine .idle (fun other => ?_) h hevents
  by_cases hother : other = party
  · simp only [hother, Function.update_self]
  · simp only [Function.update_of_ne hother]
    exact hothers other hother

/-- A step does nothing, or its party is at the right point. -/
theorem WriterOp.step_cases (clock : Nat → Nat) (y : Writers R) (o : WriterOp R) :
    WriterOp.step clock y o = y ∨
      (∃ party event details wf, o = .build party event details wf ∧ y.phase party = .idle) ∨
      (∃ party e line hash, o = .write party ∧ y.phase party = .built e line hash) ∨
      ∃ party hash, o = .set party ∧ y.phase party = .written hash := by
  cases o with
  | build party event details wf =>
    cases hphase : y.phase party with
    | idle => exact Or.inr (Or.inl ⟨party, event, details, wf, rfl, hphase⟩)
    | built e line hash => exact Or.inl (by simp only [WriterOp.step, hphase])
    | written hash => exact Or.inl (by simp only [WriterOp.step, hphase])
  | write party =>
    cases hphase : y.phase party with
    | idle => exact Or.inl (by simp only [WriterOp.step, hphase])
    | built e line hash => exact Or.inr (Or.inr (Or.inl ⟨party, e, line, hash, rfl, hphase⟩))
    | written hash => exact Or.inl (by simp only [WriterOp.step, hphase])
  | set party =>
    cases hphase : y.phase party with
    | idle => exact Or.inl (by simp only [WriterOp.step, hphase])
    | built e line hash => exact Or.inl (by simp only [WriterOp.step, hphase])
    | written hash => exact Or.inr (Or.inr (Or.inr ⟨party, hash, rfl, hphase⟩))

/-- Whoever is not idle is the one in flight. -/
theorem eq_of_not_idle {y : Writers R} {owner party : Party}
    (hothers : ∀ other, other ≠ owner → y.phase other = .idle) (h : y.phase party ≠ .idle) :
    party = owner := by
  by_contra hne
  exact h (hothers party hne)

/-- **Every step that begins alone keeps the invariant.** -/
theorem Writers.Solo.step (clock : Nat → Nat) (y : Writers R) (o : WriterOp R) (halone : o.Alone y)
    (h : y.Solo stem suffix) : (WriterOp.step clock y o).Solo stem suffix := by
  rcases WriterOp.step_cases clock y o with hsame | ⟨party, event, details, wf, rfl, hparty⟩ |
    ⟨party, e, line, hash, rfl, hparty⟩ | ⟨party, hash, rfl, hparty⟩
  · rw [hsame]
    exact h
  · -- the party is idle and the others are, so everybody is
    have hidle : ∀ other, y.phase other = .idle := by
      intro other
      by_cases hother : other = party
      · rw [hother, hparty]
      · exact halone other hother
    cases h with
    | idle _ h hevents => exact .build hidle h hevents clock party event wf
    | built owner _ _ hphase _ _ =>
      rw [hidle owner] at hphase
      cases hphase
    | written owner _ _ hphase _ _ =>
      rw [hidle owner] at hphase
      cases hphase
  · -- the party is busy, so it is the one that owns the append
    have hbusy : y.phase party ≠ .idle := by
      rw [hparty]
      nofun
    cases h with
    | idle hidle _ _ => exact absurd (hidle party) hbusy
    | built owner e' hothers hphase h hevents =>
      obtain rfl := eq_of_not_idle hothers hbusy
      exact .write hothers hphase h hevents clock
    | written owner _ hothers hphase _ _ =>
      obtain rfl := eq_of_not_idle hothers hbusy
      rw [hparty] at hphase
      cases hphase
  · have hbusy : y.phase party ≠ .idle := by
      rw [hparty]
      nofun
    cases h with
    | idle hidle _ _ => exact absurd (hidle party) hbusy
    | built owner _ hothers hphase _ _ =>
      obtain rfl := eq_of_not_idle hothers hbusy
      rw [hparty] at hphase
      cases hphase
    | written owner _ hothers hphase h hevents =>
      obtain rfl := eq_of_not_idle hothers hbusy
      exact .set hothers hphase h hevents clock

/-- **Two overlapping appends** build on the same hash, and both records go to the file. -/
theorem overlap_ends (stem suffix : String) (clock : Nat → Nat) (event event' : String)
    {details details' : Dict R.Value} (wf : (Json.obj details).Wf) (wf' : (Json.obj details').Wf) :
    let y := [.build .engine event details wf, .build .exporter event' details' wf', .write .engine,
      .set .engine, .write .exporter, .set .exporter].foldl (WriterOp.step clock)
        (Writers.start R stem suffix 0)
    (∀ party, y.phase party = .idle) ∧
      y.logging.files.active.getD [] =
        [] ++ (AuditEntry.mk event details (clock 0) wf).line zeroHash ++
          (AuditEntry.mk event' details' (clock 1) wf').line zeroHash := by
  intro y
  refine ⟨fun party => ?_, rfl⟩
  cases party with
  | engine => rfl
  | exporter => rfl

/-! ## 3. Main results -/

/-- **The audit chain survives every interleaving** in which no append begins while the other
writer's is in flight. -/
theorem writers_keep_chain (hsuffix : suffix ≠ "") (horder : ∀ names, (order names).Perm names)
    (maxBytes : Nat) (clock : Nat → Nat) {ops : List (WriterOp R)}
    (halone : Along (WriterOp.step clock) WriterOp.Alone (Writers.start R stem suffix maxBytes) ops)
    {pre : List (WriterOp R)} (hpre : pre <+: ops) :
    (pre.foldl (WriterOp.step clock) (Writers.start R stem suffix maxBytes)).Sound order := by
  have hstart : (Writers.start R stem suffix maxBytes).Solo stem suffix :=
    .idle (fun _ => rfl) (Logging.Kept.start maxBytes) rfl
  exact (run_along_initial (fun y o ho h => h.step clock y o ho) hstart halone hpre).sound hsuffix
    horder

end Writers

/-- An event without details, built by a party. -/
abbrev buildPlain (party : Party) (event : String) : WriterOp Runtime.reference :=
  .build party event [] Json.wf_empty

theorem writers_keep_chain_in_turn :
    ([buildPlain .engine "a", .write .engine, .set .engine, buildPlain .exporter "b",
      .write .exporter, .set .exporter].foldl (WriterOp.step id)
        (Writers.start Runtime.reference "audit" ".jsonl" 0)).Sound id := by
  refine writers_keep_chain (by decide) (fun names => List.Perm.refl names) 0 id ?_ List.prefix_rfl
  refine ⟨fun _ _ => rfl, trivial, trivial, ?_, trivial, trivial, trivial⟩
  intro other _
  cases other with
  | engine => rfl
  | exporter => rfl

/-- The hash of the first event. -/
theorem bodyHash_first : bodyHash Runtime.reference (auditBody zeroHash "a" [] 0) ≠ zeroHash := by
  decide +kernel

/-- **Overlapping appends break the chain.**  The engine builds its record, an export builds one on
the same hash, and both are written. -/
theorem overlapping_appends_break_chain :
    let y := [buildPlain .engine "a", buildPlain .exporter "b", .write .engine, .set .engine,
      .write .exporter, .set .exporter].foldl (WriterOp.step id)
        (Writers.start Runtime.reference "audit" ".jsonl" 0)
    (∀ party, y.phase party = .idle) ∧
      verifyFile Runtime.reference (y.logging.files.active.getD []) =
        .error (.valueError "audit chain mismatch at line 2") ∧ ¬ y.Sound id := by
  intro y
  let a : AuditEntry Runtime.reference := ⟨"a", [], 0, ⟨List.Pairwise.nil, trivial⟩⟩
  let b : AuditEntry Runtime.reference := ⟨"b", [], 1, ⟨List.Pairwise.nil, trivial⟩⟩
  have hends := overlap_ends (R := Runtime.reference) "audit" ".jsonl" id "a" "b"
    ⟨List.Pairwise.nil, trivial⟩ ⟨List.Pairwise.nil, trivial⟩
  have hidle : ∀ party, y.phase party = .idle := hends.1
  have hfile : y.logging.files.active.getD [] =
      chainOf Runtime.reference [a] ++ b.line zeroHash := by
    have hchain : chainOf Runtime.reference [a] = [] ++ a.line zeroHash := chainOf_concat [] a
    rw [hchain]
    exact hends.2
  have hverify : verifyFile Runtime.reference (y.logging.files.active.getD []) =
      .error (.valueError "audit chain mismatch at line 2") := by
    have hsplit : splitLines (b.line zeroHash) = [b.line zeroHash] := by
      have h := (b.isLine zeroHash).splitLines_append []
      rwa [List.append_nil] at h
    have hload := FileValue.loads_fileDict (Runtime.loads_eq_ok_iff.mp (b.loads_line zeroHash))
    -- both lines were built on the zero hash, and the second one stands behind the first
    have hne : some (PyStr.ofString zeroHash) ≠
        some (PyStr.ofString (hashOf Runtime.reference [a])) :=
      fun h => bodyHash_first (PyStr.ofString_injective (Option.some.inj h)).symm
    rw [hfile, verifyFile_append, hsplit, verifyLines, bind_of_ok hload,
      bind_of_ok (b.popHash_sealed zeroHash)]
    simp only [b.previousHash_body zeroHash, if_pos hne]
    have hmessage : s!"audit chain mismatch at line {2}" = "audit chain mismatch at line 2" := by
      decide
    exact congrArg (fun m => Except.error (Raised.valueError m)) hmessage
  refine ⟨hidle, hverify, fun hsound => ?_⟩
  obtain ⟨⟨hash, hok⟩, -⟩ := hsound hidle
  rw [hverify] at hok
  cases hok

end AegisShield
