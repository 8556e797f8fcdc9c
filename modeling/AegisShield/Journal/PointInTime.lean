/-
# A snapshot at a sequence

`snapshot(name, at_sequence)` copies the metadata and the base image, and cuts the log in a pass of
its own over the raw lines: it decodes each line once more and stops at the first sequence behind
the target.  The pass shares nothing with the index, the hash chain or the two lookup paths of
`read`; here they meet.  The lines it keeps are the log of the first writes (`keptLines_log`), so
the copy is the journal that these writes make, and everything that the live journal knows up to
the target, the copy knows (`snapshot_opens_at_its_point`).

`snapshot` assigns nothing to `self`: the model gives back the files alone.
-/
import AegisShield.Journal.Compaction

namespace AegisShield

open Lib

/-! ## 1. Records -/

/-- `JournalRecord`: a record with its payload. -/
structure JournalRecord where
  sequence : Nat
  block : Nat
  data : Bytes
  previousHash : String
  recordHash : String
  deriving DecidableEq, Repr, Inhabited

/-- `record_hash`. -/
def RecordIndex.recordHash (entry : RecordIndex) : String := hex entry.recordDigest

namespace DurableJournal

/-- `previous_hash_at`. -/
def previousHashAt (j : DurableJournal) (position : Nat) : Except Raised String :=
  if position = 0 then .ok zeroHash
  else (j.index[position - 1]?).elim (.error .indexError) fun entry => .ok entry.recordHash

/-- `record_at`. -/
def recordAt (R : Runtime) (j : DurableJournal) (d : Dir) (position : Nat) :
    Except Raised JournalRecord := do
  let entry ← (j.index[position]?).elim (.error .indexError) .ok
  let data ← j.payloadAt R d position
  let previousHash ← j.previousHashAt position
  return ⟨entry.sequence, entry.block, data, previousHash, entry.recordHash⟩

/-- `iter_records`, to its end. -/
def iterRecords (R : Runtime) (j : DurableJournal) (d : Dir) : Except Raised (List JournalRecord) :=
  (List.range j.index.length).mapM (j.recordAt R d)

end DurableJournal

section PointInTime

variable {R : Runtime} {md : Metadata} {ws : List (Write md)} {j : DurableJournal} {d : Dir}

/-! ## 2. The scan -/

/-- The lines of a run of records. -/
abbrev recordLines (R : Runtime) (cur : Cursor) (ws : List (Write md)) : List Bytes :=
  writtenLines (fun cur w => w.line R cur) (fun cur w => cur.advance R w) cur ws

theorem flatten_recordLines (ws : List (Write md)) : ∀ cur : Cursor,
    (recordLines R cur ws).flatten =
      written (fun cur w => w.line R cur) (fun cur w => cur.advance R w) cur ws := by
  induction ws with
  | nil => exact fun _ => rfl
  | cons w ws ih =>
    intro cur
    rw [recordLines, writtenLines, List.flatten_cons, written, ih]

/-- **The scan keeps the records up to its target.** -/
theorem keptLines_records (ws : List (Write md)) : ∀ (cur : Cursor) (n : Nat),
    DurableJournal.keptLines R ((cur.nextSequence + n : Nat) - 1) (recordLines R cur ws) =
      .ok (recordLines R cur (ws.take n)) := by
  induction ws with
  | nil => intro cur n; simp [recordLines, writtenLines, DurableJournal.keptLines]
  | cons w ws ih =>
    intro cur n
    have hload := FileValue.loads_fileDict (w.loads_line (R := R) cur)
    have hdict : FileValue.asDict .typeError (.obj (fileDict (sealed R "record_hash" (w.body R cur)))) =
        .ok (fileDict (sealed R "record_hash" (w.body R cur))) := rfl
    have hget : FileValue.getItem (fileDict (sealed R "record_hash" (w.body R cur))) "sequence" =
        .ok (.int cur.nextSequence) := getItem_sealed cur w "sequence" (by decide) rfl
    have hint : FileValue.pyInt .off (.int cur.nextSequence : R.FileValue) =
        .ok cur.nextSequence := rfl
    have hlast : (w.line R cur).getLast? = some newline := by
      obtain ⟨body, -, hbody⟩ := w.isLine (R := R) cur
      rw [hbody, List.getLast?_concat]
    rw [recordLines, writtenLines, DurableJournal.keptLines, w.blank_line cur, if_neg (by simp),
      bind_of_ok hload, bind_of_ok hdict, bind_of_ok hget, bind_of_ok hint]
    cases n with
    | zero =>
      rw [if_pos (by omega)]
      rfl
    | succ n =>
      have hcast : ((cur.nextSequence + (n + 1) : Nat) : Int) - 1 =
          (((cur.advance R w).nextSequence + n : Nat) : Int) - 1 := by
        simp only [Cursor.advance, Cursor.enter]
        omega
      rw [if_neg (by omega), if_pos hlast, hcast, List.take_succ_cons]
      exact bind_of_ok (ih (cur.advance R w) n)

theorem keptLines_log (ws : List (Write md)) (n : Nat) :
    DurableJournal.keptLines R n (splitLines (logOf R ws)) =
      .ok (recordLines R Cursor.empty (ws.take n)) := by
  have hsplit : splitLines (logOf R ws) = recordLines R Cursor.empty ws := by
    have h := splitLines_written (fun (cur : Cursor) (w : Write md) => w.line R cur)
      (fun cur w => cur.advance R w) (fun cur w => w.isLine cur) Cursor.empty ws []
    rwa [List.append_nil, splitLines, List.append_nil] at h
  have hkept := keptLines_records (R := R) ws Cursor.empty n
  have hcast : ((Cursor.empty.nextSequence + n : Nat) : Int) - 1 = n := by
    simp only [Cursor.empty]
    omega
  rwa [hcast, ← hsplit] at hkept

/-! ## 3. The copy -/

/-- The files that the first `n` writes leave. -/
def prefixDir (R : Runtime) (base : Bytes) (ws : List (Write md)) (n : Nat) : Dir :=
  ⟨md.file R, base, logOf R (ws.take n), []⟩

/-- The bundle of a target opens. -/
theorem Canonical.init_first (h : Canonical R ws j d) (n : Nat) :
    ∃ fresh, DurableJournal.init R (prefixDir R d.base ws n) =
        .ok (fresh, prefixDir R d.base ws n) ∧ fresh.recoveredTail = none ∧
      Canonical R (ws.take n) fresh (prefixDir R d.base ws n) := by
  have hcanon : Canonical R (ws.take n) ⟨md, cursorOf R (ws.take n), none⟩
      (prefixDir R d.base ws n) := ⟨rfl, rfl, rfl, h.size, rfl⟩
  exact ⟨_, hcanon.init, rfl, hcanon⟩

/-- **A snapshot at a sequence succeeds** under a valid, unused name, and nothing but the snapshot
changes. -/
theorem Canonical.snapshot_at {r : Root} (h : Canonical R ws j r.toDir) {name : String}
    (hname : ValidName name) (hnew : name ∉ r.snapshots.map Prod.fst) {n : Nat}
    (hn : n ≤ ws.length) :
    j.snapshot R r name (some n) =
      .ok { r with snapshots := (name, prefixDir R r.base ws n) :: r.snapshots } := by
  have hseq : ¬ ((some (n : Int)).any fun s => ¬ (0 ≤ s ∧ s ≤ (j.lastSequence : Int))) = true := by
    rw [h.lastSequence]
    simp [hn]
  have hunused := mt any_snapshots_iff.mp hnew
  obtain ⟨fresh, hinit, -, -⟩ := h.init_first n
  have hlog : (DurableJournal.keptLines R n (splitLines r.log)).map List.flatten =
      .ok (logOf R (ws.take n)) := by
    rw [h.log, keptLines_log]
    exact congrArg Except.ok (flatten_recordLines _ _)
  rw [DurableJournal.snapshot, if_neg hname.not_refused, if_neg hseq, if_neg hunused]
  refine bind_eq_ok.mpr ⟨_, hlog, ?_⟩
  rw [h.file]
  exact bind_eq_ok.mpr ⟨_, hinit, rfl⟩

/-! ## 4. What the copy knows -/

/-- The index of the first writes is the first part of the index. -/
theorem index_cursorOf_take (ws : List (Write md)) (n : Nat) :
    (cursorOf R (ws.take n)).index = (cursorOf R ws).index.take n := by
  induction ws using List.reverseRecOn with
  | nil => simp [cursorOf, Cursor.empty]
  | append_singleton ws w ih =>
    have hlen : (cursorOf R ws).index.length = ws.length := (backed_logOf (R := R) ws []).length
    rw [cursorOf_concat, Cursor.advance, Cursor.enter]
    rcases Nat.lt_or_ge ws.length n with hn | hn
    · have hall : (ws ++ [w]).take n = ws ++ [w] := by
        rw [List.take_of_length_le]
        rw [List.length_append, List.length_singleton]
        omega
      rw [hall, cursorOf_concat, List.take_of_length_le]
      · rfl
      · rw [List.length_append, List.length_singleton, hlen]
        omega
    · rw [List.take_append_of_le_length hn, ih, List.take_append_of_le_length (hlen ▸ hn)]

/-- A record reads back. -/
theorem Canonical.recordAt (h : Canonical R ws j d) {i : Nat} (hi : i < ws.length) :
    ∃ entry, j.index[i]? = some entry ∧ j.payloadAt R d i = .ok (ws[i]).data ∧
      ∃ previous, j.previousHashAt i = .ok previous ∧
        j.recordAt R d i = .ok
          ⟨entry.sequence, entry.block, (ws[i]).data, previous, entry.recordHash⟩ := by
  have hget : ws[i]? = some ws[i] := List.getElem?_eq_getElem hi
  obtain ⟨entry, hentry, -, hholds⟩ := h.backed.holds i _ hget
  have hpayload := payloadAt_of_holds h.metadata hentry hholds
  have hprevious : ∃ previous, j.previousHashAt i = .ok previous := by
    unfold DurableJournal.previousHashAt
    by_cases hzero : i = 0
    · exact ⟨zeroHash, if_pos hzero⟩
    · obtain ⟨last, hlast⟩ : ∃ last, ws[i - 1]? = some last :=
        ⟨_, List.getElem?_eq_getElem (by omega)⟩
      obtain ⟨before, hbefore, -⟩ := h.backed.holds (i - 1) _ hlast
      rw [if_neg hzero, hbefore]
      exact ⟨_, rfl⟩
  obtain ⟨previous, hprevious⟩ := hprevious
  refine ⟨entry, hentry, hpayload, previous, hprevious, ?_⟩
  unfold DurableJournal.recordAt
  rw [hentry, Option.elim_some, bind_of_ok rfl, bind_of_ok hpayload, bind_of_ok hprevious]
  rfl

/-- **The records of a copy** are the first records of the journal. -/
theorem Canonical.iterRecords_first {fresh : DurableJournal} {copy : Dir} {n : Nat}
    (h : Canonical R ws j d) (hfresh : Canonical R (ws.take n) fresh copy) :
    ∃ records, j.iterRecords R d = .ok records ∧ fresh.iterRecords R copy = .ok (records.take n) := by
  have hindex : fresh.index = j.index.take n := by
    rw [hfresh.cursor, h.cursor, index_cursorOf_take]
  have hok : ∀ i, i < ws.length → ∃ record, j.recordAt R d i = .ok record := by
    intro i hi
    obtain ⟨entry, -, -, previous, -, hrecord⟩ := h.recordAt hi
    exact ⟨_, hrecord⟩
  choose! record hrecord using hok
  have hsame : ∀ i, i < (ws.take n).length → fresh.recordAt R copy i = .ok (record i) := by
    intro i hi
    have hi' : i < n ∧ i < ws.length := by
      rw [List.length_take] at hi
      omega
    obtain ⟨entry, hentry, -, previous, hprevious, hlive⟩ := h.recordAt hi'.2
    obtain ⟨entry', hentry', -, previous', hprevious', hcopy⟩ := hfresh.recordAt hi
    have heq : entry' = entry := by
      rw [hindex, List.getElem?_take_of_lt hi'.1, hentry] at hentry'
      exact (Option.some.inj hentry').symm
    have hprev : fresh.previousHashAt i = j.previousHashAt i := by
      unfold DurableJournal.previousHashAt
      rw [hindex, List.getElem?_take_of_lt (by omega)]
    have hpreq : previous' = previous := by
      rw [hprev, hprevious] at hprevious'
      exact (Except.ok.inj hprevious').symm
    rw [hcopy, heq, hpreq, List.getElem_take, ← hlive]
    exact hrecord i hi'.2
  have hlen : j.index.length = ws.length := h.backed.length
  have hlen' : fresh.index.length = (ws.take n).length := hfresh.backed.length
  refine ⟨(List.range ws.length).map record, ?_, ?_⟩
  · rw [DurableJournal.iterRecords, hlen]
    exact mapM_of_ok fun i hi => hrecord i (List.mem_range.mp hi)
  · rw [DurableJournal.iterRecords, hlen', mapM_of_ok fun i hi => hsame i (List.mem_range.mp hi),
      ← List.map_take, List.take_range, List.length_take]

/-- A read outside the namespace raises, whatever the log. -/
theorem read_of_range_error {b n : Int} {atSequence : Option Int} {e : Raised}
    (h : j.checkRange b n = .error e) : j.read R d b n atSequence = .error e := by
  rw [DurableJournal.read, h]
  rfl

/-- A read at a negative sequence raises. -/
theorem read_of_negative {b n t : Int} {u : Unit} (h : j.checkRange b n = .ok u) (ht : t < 0) :
    j.read R d b n (some t) = .error (.valueError "invalid sequence") := by
  have hany : (some t).any (fun s => ¬ (0 ≤ s ∧ s ≤ (j.lastSequence : Int))) = true := by
    rw [Option.any_some, decide_eq_true_eq]
    omega
  rw [DurableJournal.read, h]
  simp only [bind, Except.bind]
  rw [if_pos hany]
  rfl

/-- **The reads of a copy** are those of the journal, up to the target. -/
theorem Canonical.read_first {fresh : DurableJournal} {copy : Dir} {t : Nat}
    (h : Canonical R ws j d) (hfresh : Canonical R (ws.take t) fresh copy)
    (hbase : copy.base = d.base) (ht : t ≤ ws.length) (b n : Int) :
    fresh.read R copy b n none = j.read R d b n (some t) ∧
      ∀ q ≤ (t : Int), fresh.read R copy b n (some q) = j.read R d b n (some q) := by
  have hmd : fresh.toMetadata = j.toMetadata := hfresh.metadata.trans h.metadata.symm
  have hlen : (ws.take t).length = t := by rw [List.length_take, Nat.min_eq_left ht]
  cases hrange : j.checkRange b n with
  | error e =>
    have hrange' : fresh.checkRange b n = .error e := by rw [hmd, hrange]
    constructor
    · rw [read_of_range_error hrange', read_of_range_error hrange]
    · intro q _
      rw [read_of_range_error hrange', read_of_range_error hrange]
  | ok u =>
    have hrange' : fresh.checkRange b n = .ok u := by rw [hmd, hrange]
    rw [h.metadata] at hrange
    obtain ⟨hb, hn, hbn⟩ := Metadata.checkRange_ok.mp hrange
    obtain ⟨b, rfl⟩ := Int.eq_ofNat_of_zero_le hb
    obtain ⟨n, rfl⟩ := Int.eq_ofNat_of_zero_le (by omega : 0 ≤ n)
    have hn1 : 1 ≤ n := by omega
    have hblocks : b + n ≤ md.blocks := by omega
    constructor
    · rw [h.read_at hn1 hblocks ht, hfresh.read_current hn1 hblocks, hbase]
    · intro q hq
      by_cases hneg : q < 0
      · rw [← h.metadata] at hrange
        rw [read_of_negative hrange' hneg, read_of_negative hrange hneg]
      · obtain ⟨q, rfl⟩ := Int.eq_ofNat_of_zero_le (not_lt.mp hneg)
        have hqt : q ≤ t := by omega
        have hqlen : q ≤ (ws.take t).length := hlen.symm ▸ hqt
        rw [h.read_at hn1 hblocks (hqt.trans ht), hfresh.read_at hn1 hblocks hqlen, hbase,
          List.take_take, Nat.min_eq_left hqt]

end PointInTime

/-! ## 5. Main result -/

/-- **A snapshot at a sequence opens at exactly that point.**  In every run of appends and
compactions, a snapshot under a valid, unused name at a sequence that the journal has reached
succeeds and adds its bundle, and nothing else.  The bundle opens, at that sequence, with the first
records and the first part of the index; it reads now what the journal reads at that sequence, and
earlier what the journal reads earlier. -/
theorem snapshot_opens_at_its_point (R : Runtime) {blocks blockSize : Nat} {deviceId : String}
    {d : Dir} (hp : provision R blocks blockSize deviceId = .ok d) (calls : List JournalCall) :
    ∃ j, DurableJournal.init R d = .ok (j, d) ∧
      let s := calls.foldl (JournalCall.run R) (j, ⟨d, []⟩)
      ∀ (name : String) (t : Int), ValidName name → name ∉ s.2.snapshots.map Prod.fst →
        0 ≤ t → t ≤ s.1.lastSequence →
        ∃ bundle fresh records,
          s.1.snapshot R s.2 name (some t) =
            .ok { s.2 with snapshots := (name, bundle) :: s.2.snapshots } ∧
          DurableJournal.init R bundle = .ok (fresh, bundle) ∧ fresh.recoveredTail = none ∧
          (fresh.lastSequence : Int) = t ∧ fresh.index = s.1.index.take t.toNat ∧
          s.1.iterRecords R s.2.toDir = .ok records ∧
          fresh.iterRecords R bundle = .ok (records.take t.toNat) ∧
          ∀ b n : Int,
            fresh.read R bundle b n none = s.1.read R s.2.toDir b n (some t) ∧
            ∀ q ≤ t, fresh.read R bundle b n (some q) = s.1.read R s.2.toDir b n (some q) := by
  refine ⟨_, (provision_canonical hp).init, ?_⟩
  have h := run_simulation (fun s a call => Refines.step s a call) (Refines.start hp) calls
  intro s name t hname hnew h0 hlast
  obtain ⟨ws, hc, -⟩ := h
  have hcanon : Canonical R ws s.1 s.2.toDir := hc
  obtain ⟨t, rfl⟩ := Int.eq_ofNat_of_zero_le h0
  rw [hcanon.lastSequence] at hlast
  have ht : t ≤ ws.length := by omega
  obtain ⟨fresh, hinit, htail, hfresh⟩ := hcanon.init_first t
  obtain ⟨records, hrecords, hfirst⟩ := hcanon.iterRecords_first hfresh
  refine ⟨_, fresh, records, hcanon.snapshot_at hname hnew ht, hinit, htail, ?_, ?_, hrecords, hfirst,
    hcanon.read_first hfresh rfl ht⟩
  · rw [hfresh.lastSequence, List.length_take, Nat.min_eq_left ht]
  · rw [hfresh.cursor, hcanon.cursor]
    exact index_cursorOf_take ws t

/-- A snapshot before the only write. -/
theorem snapshot_opens_at_its_point_four_blocks : ∃ d j bundle fresh,
    provision Runtime.reference 4 512 "dev" = .ok d ∧
      DurableJournal.init Runtime.reference d = .ok (j, d) ∧
      let s := [.append 1 (List.replicate 512 7)].foldl (JournalCall.run Runtime.reference)
        (j, ⟨d, []⟩)
      s.1.snapshot Runtime.reference s.2 "a" (some 0) =
          .ok { s.2 with snapshots := [("a", bundle)] } ∧
        DurableJournal.init Runtime.reference bundle = .ok (fresh, bundle) ∧
        fresh.read Runtime.reference bundle 1 1 none =
          s.1.read Runtime.reference s.2.toDir 1 1 (some 0) := by
  obtain ⟨d, j, hd, hj, -, -, hsnapshots⟩ := sevens_written
  obtain ⟨j', hj', h⟩ := snapshot_opens_at_its_point Runtime.reference hd
    [.append 1 (List.replicate 512 7)]
  rw [hj] at hj'
  cases hj'
  have hname : ValidName "a" := by decide
  obtain ⟨bundle, fresh, -, hsnapshot, hinit, -, -, -, -, -, hread⟩ :=
    h "a" 0 hname (by rw [hsnapshots]; exact List.not_mem_nil) (Int.le_refl 0) (Int.natCast_nonneg _)
  rw [hsnapshots] at hsnapshot
  exact ⟨d, j, bundle, fresh, hd, hj, hsnapshot, hinit, (hread 1 1).1⟩

end AegisShield
