/-
# Appends that fail

`append` moves the object on only after the write and the fsync, so an `OSError` leaves the object
where it was while some bytes of the record may be in the file.  The caller goes on with the same
object.

`_log_size` is the object's idea of where the file ends.  After a failure that left bytes it is
wrong, and the next record is indexed at the offset of what the failed one left behind.  If that
was the whole record, the index entry leads to the FAILED payload, which has the right sequence
number and a good checksum (`failed_append_is_read`).

`failed_appends_are_harmless` is what does hold: as long as nothing more is written once the file
and `_log_size` disagree, reads through the same object and a reopening are right.
-/
import AegisShield.Journal.PowerCut

namespace AegisShield

open Lib

/-! ## 1. Runs -/

/-- An open journal and what its callers know. -/
structure Session where
  dir : Dir
  journal : DurableJournal
  /-- The appends that returned. -/
  acked : List Acked

/-- A step of a run. -/
inductive IoStep
  | append (startBlock : Int) (data : Bytes)
  /-- An append that raises `OSError` with `k` bytes of its record in the file. -/
  | fail (startBlock : Int) (data : Bytes) (k : Nat)
  deriving DecidableEq, Repr

/-- One step. -/
def IoStep.run (R : Runtime) (s : Session) : IoStep → Session
  | .append startBlock data =>
    match s.journal.append R s.dir startBlock data with
    | .error _ => s
    | .ok (sequence, j, d) => ⟨d, j, s.acked ++ [⟨sequence, startBlock, data⟩]⟩
  | .fail startBlock data k =>
    match s.journal.prepare R startBlock data with
    | .error _ => s
    | .ok (line, _) => { s with dir := s.dir.extend (line.take k) }

/-- **Usable and truthful**: `read` returns the newest payload that an append returned for, and a
reopening succeeds with every such append present. -/
def Session.Truthful (R : Runtime) (md : Metadata) (s : Session) : Prop :=
  (∀ b n : Nat, 1 ≤ n → b + n ≤ md.blocks →
    s.journal.read R s.dir b n none =
      .ok (blocksOf (expectedImage md s.dir.base (s.acked.map fun a => (a.startBlock, a.data))) b n)) ∧
  ∃ j d, DurableJournal.init R s.dir = .ok (j, d) ∧ ∀ a ∈ s.acked, a.Present R md j d

/-- The condition on a step: it writes only where the object thinks the file ends.  A call that is
refused, and a failure that leaves no byte, writes nothing. -/
def WritesAtLogSize (R : Runtime) (s : Session) : IoStep → Prop
  | .append startBlock data =>
    s.journal.Accepts R startBlock data → s.dir.log.length = s.journal.logSize
  | .fail startBlock data k =>
    k ≠ 0 → s.journal.Accepts R startBlock data → s.dir.log.length = s.journal.logSize

/-! ## 2. The invariant -/

section Invariant

variable (R : Runtime) (md : Metadata)

/-- The object is that of the writes `ws`, and the file has at most a prefix of one more record. -/
structure InSync (ws : List (Write md)) (s : Session) : Prop where
  metadata : s.journal.toMetadata = md
  cursor : s.journal.toCursor = cursorOf R ws
  file : s.dir.metadata = md.file R
  size : s.dir.base.length = md.blocks * md.blockSize
  acked : s.acked = ws.zipIdx.map fun p => ⟨p.2 + 1, p.1.start, p.1.data⟩
  log : s.dir.log = logOf R ws ∨
    ∃ (w : Write md) (k : Nat), s.dir.log = logOf R ws ++ (w.line R (cursorOf R ws)).take k

variable {R md}

/-- What a failed append leaves behind is what a crash leaves behind. -/
theorem InSync.off {ws : List (Write md)} {s : Session} (h : InSync R md ws s) :
    ∃ tail ws', s.dir.log = logOf R ws ++ tail ∧ ws <+: ws' ∧ Off R ws' s.dir.log := by
  rcases h.log with hlog | ⟨w, k, hlog⟩
  · refine ⟨[], ws, by rw [List.append_nil]; exact hlog, List.prefix_refl _, ?_⟩
    rw [hlog]
    exact Off.clean (Open.whole ws)
  · have hcrash := Off.of_crash (R := R) ws w k
    rw [← hlog] at hcrash
    refine ⟨_, _, hlog, ?_, hcrash⟩
    split
    · exact List.prefix_append _ _
    · exact List.prefix_refl _

theorem InSync.truthful {ws : List (Write md)} {s : Session} (h : InSync R md ws s) :
    s.Truthful R md := by
  obtain ⟨tail, ws', hlog, hpre, hoff⟩ := h.off
  have hbacked : Backed R s.dir.log s.journal.toCursor ws := by
    rw [hlog, h.cursor]
    exact backed_logOf ws tail
  have hhist : (s.acked.map fun a => (a.startBlock, a.data)) =
      ws.map fun w => ((w.start : Int), w.data) := by
    rw [h.acked, List.map_map]
    have hfst := congrArg (List.map fun w : Write md => ((w.start : Int), w.data))
      (List.zipIdx_map_fst 0 ws)
    rw [List.map_map] at hfst
    exact hfst
  refine ⟨fun b n hn hr => ?_, ?_⟩
  · rw [hhist, expectedImage_eq]
    exact hbacked.read_current h.metadata hn hr
  · obtain ⟨j, d', hinit, hmd, hopen, -, -⟩ := hoff.init h.file h.size
    refine ⟨j, d', hinit, fun a ha => ?_⟩
    rw [h.acked] at ha
    obtain ⟨⟨w, i⟩, hp, rfl⟩ := List.mem_map.mp ha
    have hw : ws[i]? = some w := List.mk_mem_zipIdx_iff_getElem?.mp hp
    have hi : i < ws.length := (List.getElem?_eq_some_iff.mp hw).1
    obtain ⟨more, rfl⟩ := hpre
    exact hopen.backed.present hmd (by rw [List.getElem?_append_left hi]; exact hw)

/-- Where the sizes agree, the file holds the writes and nothing else. -/
theorem InSync.log_eq {ws : List (Write md)} {s : Session} (h : InSync R md ws s)
    (hlen : s.dir.log.length = s.journal.logSize) : s.dir.log = logOf R ws := by
  rcases h.log with hlog | ⟨w, k, hlog⟩
  · exact hlog
  · rw [h.cursor, logSize_cursorOf, hlog, List.length_append, Nat.add_eq_left,
      List.length_eq_zero_iff] at hlen
    rw [hlog, hlen, List.append_nil]

theorem InSync.append {ws : List (Write md)} {s : Session} (h : InSync R md ws s) {start : Int}
    {data : Bytes} (hlen : WritesAtLogSize R s (.append start data)) :
    ∃ ws', InSync R md ws' ((IoStep.append start data).run R s) := by
  cases hr : s.journal.append R s.dir start data with
  | error e =>
    -- a refused call leaves the session as it was, wherever the file ends
    simp only [IoStep.run, hr]
    exact ⟨ws, h⟩
  | ok r =>
    have hc : Canonical R ws s.journal s.dir :=
      ⟨h.metadata, h.cursor, h.file, h.size, h.log_eq (hlen (s.journal.accepts_of_append hr))⟩
    obtain ⟨w, rfl, rfl⟩ := hc.append_inv hr
    obtain ⟨j', d', hrun, hc', -, -⟩ := hc.append w
    simp only [IoStep.run, hrun]
    refine ⟨ws ++ [w], hc'.metadata, hc'.cursor, hc'.file, hc'.size, ?_, Or.inl hc'.log⟩
    rw [List.zipIdx_append, List.map_append, ← h.acked]
    simp

theorem InSync.fail {ws : List (Write md)} {s : Session} (h : InSync R md ws s) {start : Int}
    {data : Bytes} {k : Nat} (hlen : WritesAtLogSize R s (.fail start data k)) :
    InSync R md ws ((IoStep.fail start data k).run R s) := by
  obtain ⟨d, ⟨jmd, cur, tail⟩, acked⟩ := s
  obtain rfl : jmd = md := h.metadata
  cases hp : DurableJournal.prepare R ⟨jmd, cur, tail⟩ start data with
  | error e =>
    simp only [IoStep.run, hp]
    exact h
  | ok p =>
    have hsize : k ≠ 0 → d.log.length = cur.logSize := fun hk => hlen hk ⟨p, hp⟩
    obtain ⟨w, rfl, rfl⟩ := prepare_inv hp
    simp only [IoStep.run, prepare_write]
    refine ⟨rfl, h.cursor, h.file, h.size, h.acked, ?_⟩
    by_cases hk : k = 0
    · rw [hk, Dir.extend, List.take_zero, List.append_nil]
      exact h.log
    · have hlog : d.log = logOf R ws := h.log_eq (hsize hk)
      have hcur : cur = cursorOf R ws := h.cursor
      exact Or.inr ⟨w, k, by rw [Dir.extend, hlog, hcur]⟩

/-- **Every step that meets the condition keeps the invariant.** -/
theorem InSync.step (s : Session) (o : IoStep) (hw : WritesAtLogSize R s o)
    (h : ∃ ws, InSync R md ws s) : ∃ ws, InSync R md ws (o.run R s) := by
  obtain ⟨ws, h⟩ := h
  cases o with
  | append start data => exact h.append hw
  | fail start data k => exact ⟨ws, h.fail hw⟩

theorem InSync.start {blocks blockSize : Nat} {deviceId : String} {d : Dir}
    (hp : provision R blocks blockSize deviceId = .ok d) :
    InSync R ⟨deviceId, blocks, blockSize⟩ []
      ⟨d, ⟨⟨deviceId, blocks, blockSize⟩, Cursor.empty, none⟩, []⟩ := by
  have hc := provision_canonical hp
  exact ⟨rfl, rfl, hc.file, hc.size, rfl, Or.inl hc.log⟩

end Invariant

/-! ## 3. A write behind a failed one -/

section Overwritten

variable {R : Runtime} {md : Metadata}

/-- **The index leads to the failed payload**: `w` fails after all its bytes, `v` of the same
range returns, and `read` returns what `w` wrote. -/
theorem read_after_failed {d : Dir} (hlog : d.log = []) (w v : Write md)
    (hstart : w.start = v.start) (hcount : w.count = v.count) {n : Nat} (hn : 1 ≤ n)
    (hr : v.start + n ≤ md.blocks) :
    let s := [.fail w.start w.data (w.line R Cursor.empty).length, .append v.start v.data].foldl
      (IoStep.run R) ⟨d, ⟨md, Cursor.empty, none⟩, []⟩
    s.journal.read R s.dir v.start n none =
      .ok (blocksOf (imageOf s.dir.base [w]) v.start n) := by
  obtain ⟨metadata, base, log, torn⟩ := d
  obtain rfl : log = [] := hlog
  simp only [List.foldl_cons, List.foldl_nil, IoStep.run, prepare_write, Dir.extend,
    List.nil_append, List.take_length, DurableJournal.append, bind, Except.bind, pure, Except.pure]
  have hbacked : Backed R (w.line R Cursor.empty ++ v.line R Cursor.empty)
      (Cursor.empty.advance R v) [w] := by
    refine ⟨rfl, rfl, ?_, ?_⟩
    · intro i u hu
      obtain ⟨rfl, rfl⟩ : i = 0 ∧ u = w := by
        cases i with
        | zero => exact ⟨rfl, (Option.some.inj hu).symm⟩
        | succ i => simp at hu
      refine ⟨⟨1, v.start, v.count, 0, recordDigest R Cursor.empty v.start v.count v.data⟩,
        rfl, rfl, hstart.symm, hcount.symm, Cursor.empty, rfl, ?_⟩
      rw [List.drop_zero, (u.isLine _).readline_append]
      exact u.loads_line _
    · intro b
      have hcover : (Cursor.empty.advance R v).overlay b =
          if v.start ≤ b ∧ b < v.start + v.count then some 0 else none :=
        coverRange_apply _ _ _ _ _
      rw [hcover, ← hstart, ← hcount]
      rfl
  exact hbacked.read_current (d := ⟨metadata, base, _, torn⟩) rfl hn hr

/-- One block of a one-block write is its data. -/
theorem blocksOf_single (base : Bytes) {w : Write md} (hw : w.count = 1) :
    blocksOf (imageOf base [w]) w.start 1 = w.data := by
  have hlen := w.length_data
  rw [hw, Nat.one_mul] at hlen
  have hcover : w.patch.Covers w.start := ⟨Nat.le_refl _, Nat.lt_add_of_pos_right w.count_pos⟩
  have himage : imageOf base [w] w.start = w.data := by
    rw [imageOf, List.map_singleton, Patch.patched, List.foldl_cons, List.foldl_nil,
      Patch.overwrite, if_pos hcover]
    simp [Write.patch, ← hlen]
  simp [blocksOf, himage]

/-- **A failed payload is returned in place of the acknowledged one.** -/
theorem not_truthful_after_failed {d : Dir} (hlog : d.log = []) (w v : Write md)
    (hstart : w.start = v.start) (hw : w.count = 1) (hv : v.count = 1) (hne : w.data ≠ v.data) :
    ¬ ([.fail w.start w.data (w.line R Cursor.empty).length, .append v.start v.data].foldl
      (IoStep.run R) ⟨d, ⟨md, Cursor.empty, none⟩, []⟩).Truthful R md := by
  have hrange : v.start + 1 ≤ md.blocks := by
    have := v.inRange
    rw [← Write.count, hv] at this
    exact this
  have hread := read_after_failed (R := R) hlog w v hstart (hw.trans hv.symm) (Nat.le_refl 1) hrange
  intro h
  have htrue := h.1 v.start 1 (Nat.le_refl 1) hrange
  rw [Nat.cast_one] at htrue hread
  rw [hread] at htrue
  have hacked : ([.fail w.start w.data (w.line R Cursor.empty).length,
      .append v.start v.data].foldl (IoStep.run R) ⟨d, ⟨md, Cursor.empty, none⟩, []⟩).acked.map
        (fun a => (a.startBlock, a.data)) = [v].map fun w => ((w.start : Int), w.data) := by
    simp only [List.foldl_cons, List.foldl_nil, IoStep.run, prepare_write, DurableJournal.append,
      bind, Except.bind, pure, Except.pure]
    rfl
  rw [hacked, expectedImage_eq, blocksOf_single _ hv, ← hstart, blocksOf_single _ hw] at htrue
  exact hne (Except.ok.inj htrue)

end Overwritten

/-! ## 4. Main results -/

/-- **Failed appends are harmless**, in every run in which nothing is written once the file and
`_log_size` disagree. -/
theorem failed_appends_are_harmless (R : Runtime) {blocks blockSize : Nat} {deviceId : String}
    {d : Dir} (hp : provision R blocks blockSize deviceId = .ok d) :
    ∃ j, DurableJournal.init R d = .ok (j, d) ∧ ∀ steps : List IoStep,
      Along (IoStep.run R) (WritesAtLogSize R) ⟨d, j, []⟩ steps → ∀ pre, pre <+: steps →
        (pre.foldl (IoStep.run R) ⟨d, j, []⟩).Truthful R ⟨deviceId, blocks, blockSize⟩ := by
  refine ⟨_, (provision_canonical hp).init, fun steps hw pre hpre => ?_⟩
  obtain ⟨ws, h⟩ := run_along_initial (fun s o => InSync.step s o) ⟨[], InSync.start hp⟩ hw hpre
  exact h.truthful

/-- Nothing is appended without a block of data. -/
theorem not_accepts_nil {R : Runtime} (j : DurableJournal) (startBlock : Int) :
    ¬ j.Accepts R startBlock [] := by
  rintro ⟨r, h⟩
  simp only [DurableJournal.prepare, true_or, if_true] at h
  cases h

/-- A failure after five bytes on a fresh journal, and then a call that is refused. -/
theorem failed_appends_are_harmless_five_bytes : ∃ d j,
    provision Runtime.reference 4 512 "dev" = .ok d ∧
      DurableJournal.init Runtime.reference d = .ok (j, d) ∧
      ([IoStep.fail 0 (List.replicate 512 7) 5, .append 0 []].foldl
        (IoStep.run Runtime.reference) ⟨d, j, []⟩).Truthful Runtime.reference
          ⟨"dev", 4, 512⟩ := by
  obtain ⟨d, hd⟩ := provision_four_blocks
  obtain ⟨j, hj, h⟩ := failed_appends_are_harmless Runtime.reference hd
  refine ⟨d, j, hd, hj, h _ ?_ _ (List.prefix_refl _)⟩
  have hc := provision_canonical hd
  have hlog : d.log = [] := hc.log
  have hinit := hc.init
  rw [hj] at hinit
  cases hinit
  exact ⟨fun _ _ => congrArg List.length hlog, fun h => absurd h (not_accepts_nil _ _), trivial⟩

/-- The failing run: the fsync of block 0's first write fails after every byte was written, the
second write returns, and `read` of block 0 returns the first. -/
theorem failed_append_is_read : ∃ d j, provision Runtime.reference 4 512 "dev" = .ok d ∧
    DurableJournal.init Runtime.reference d = .ok (j, d) ∧
    let w : Write ⟨"dev", 4, 512⟩ := Write.fill 0 7 (by decide) (by decide)
    let v : Write ⟨"dev", 4, 512⟩ := Write.fill 0 9 (by decide) (by decide)
    let k := (w.line Runtime.reference Cursor.empty).length
    ¬ ([.fail w.start w.data k, .append v.start v.data].foldl (IoStep.run Runtime.reference)
      ⟨d, j, []⟩).Truthful Runtime.reference ⟨"dev", 4, 512⟩ := by
  obtain ⟨d, hd⟩ := provision_four_blocks
  have hc := provision_canonical hd
  refine ⟨d, _, hd, hc.init, not_truthful_after_failed hc.log _ _ rfl ?_ ?_ ?_⟩
  · exact Write.count_fill _ _ _ _
  · exact Write.count_fill _ _ _ _
  · intro h
    exact absurd ((List.replicate_right_inj (by decide)).mp h) (by decide)

end AegisShield
