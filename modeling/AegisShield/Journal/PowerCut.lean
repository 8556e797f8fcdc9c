/-
# Power cuts

A run of a journal under power cuts: calls of `append`, crashes in the middle of one, and
reopenings.  A crash leaves the first `k` bytes of the in-flight record at the end of the log; an
append that returned is on disk.

What a reopening makes of the tail depends on `k` (`Canonical.lean`): fewer bytes than all but the
newline are discarded, and all but the newline are a record.  The second case leaves a log that
does NOT end in a newline, and the journal goes on to append behind it.  The record after it then
shares its line, neither can be read back, and the next reopening takes the pair for a torn tail
(`acknowledged_append_lost`).

`power_cuts_lose_nothing` is what does hold: as long as no record is written behind a log that
lacks its newline, every reopening succeeds, every acknowledged append stays in the index with its
own sequence, range and payload, and `read` returns the newest acknowledged or recovered one.
-/
import AegisShield.Journal.Refinement

namespace AegisShield

open Lib

/-! ## 1. Runs -/

/-- An append that returned its sequence number. -/
structure Acked where
  sequence : Nat
  startBlock : Int
  data : Bytes
  deriving DecidableEq, Repr

/-- The append is in the index of `j`, with its own sequence, block range and payload. -/
def Acked.Present (R : Runtime) (md : Metadata) (j : DurableJournal) (d : Dir) (a : Acked) : Prop :=
  ∃ i e, j.index[i]? = some e ∧ e.sequence = a.sequence ∧ (e.block : Int) = a.startBlock ∧
    e.blocks * md.blockSize = a.data.length ∧ j.payloadAt R d i = .ok a.data

/-- The image after a history of appends on a base image. -/
def expectedImage (md : Metadata) (base : Bytes) (history : List (Int × Bytes)) : Nat → Bytes :=
  Patch.patched (blockOf md.blockSize base) (history.filterMap fun h => patchOf md h.1 h.2)

/-- A directory, the object that has it open, and what the callers know. -/
structure Medium where
  dir : Dir
  live : Option DurableJournal
  /-- The appends that returned. -/
  acked : List Acked
  /-- The appends that returned or of which a crash left everything but at most the newline. -/
  history : List (Int × Bytes)
  /-- A reopening raised. -/
  refused : Bool

/-- A step of a run. -/
inductive PowerStep
  | append (startBlock : Int) (data : Bytes)
  /-- A crash during an append, with `k` bytes of its record in the file. -/
  | crash (startBlock : Int) (data : Bytes) (k : Nat)
  | reopen
  deriving DecidableEq, Repr

/-- One step.  Nothing happens to a device that is off, except a reopening. -/
def PowerStep.run (R : Runtime) (s : Medium) : PowerStep → Medium
  | .append startBlock data =>
    match s.live with
    | none => s
    | some j =>
      match j.append R s.dir startBlock data with
      | .error _ => s
      | .ok (sequence, j', d') =>
        { s with
          dir := d'
          live := some j'
          acked := s.acked ++ [⟨sequence, startBlock, data⟩]
          history := s.history ++ [(startBlock, data)] }
  | .crash startBlock data k =>
    match s.live with
    | none => s
    | some j =>
      match j.prepare R startBlock data with
      | .error _ => { s with live := none }
      | .ok (line, _) =>
        { s with
          dir := s.dir.extend (line.take k)
          live := none
          history :=
            if line.length ≤ k + 1 then s.history ++ [(startBlock, data)] else s.history }
  | .reopen =>
    match DurableJournal.init R s.dir with
    | .ok (j, d) => { s with dir := d, live := some j }
    | .error _ => { s with live := none, refused := true }

/-- A provisioned directory, opened. -/
def Medium.provisioned (R : Runtime) (d : Dir) : Medium :=
  PowerStep.reopen.run R ⟨d, none, [], [], false⟩

/-- **What must survive**: no reopening failed, and in an open journal every acknowledged append
is in the index with its own sequence, block range and payload, and `read` of every block returns
the newest acknowledged or recovered payload. -/
def Medium.Survives (R : Runtime) (md : Metadata) (s : Medium) : Prop :=
  s.refused = false ∧ ∀ j, s.live = some j →
    (∀ a ∈ s.acked, a.Present R md j s.dir) ∧
    ∀ b n : Nat, 1 ≤ n → b + n ≤ md.blocks →
      j.read R s.dir b n none = .ok (blocksOf (expectedImage md s.dir.base s.history) b n)

/-- The log is empty or ends in a newline. -/
def Terminated (log : Bytes) : Prop := log = [] ∨ log.getLast? = some newline

instance (log : Bytes) : Decidable (Terminated log) := inferInstanceAs (Decidable (_ ∨ _))

/-- `append` gets as far as its write: the range and the size of the data are in order. -/
def DurableJournal.Accepts (R : Runtime) (j : DurableJournal) (startBlock : Int) (data : Bytes) :
    Prop :=
  ∃ r, j.prepare R startBlock data = .ok r

theorem DurableJournal.accepts_of_append {R : Runtime} {j : DurableJournal} {d : Dir}
    {startBlock : Int} {data : Bytes} {r : Nat × DurableJournal × Dir}
    (h : j.append R d startBlock data = .ok r) : j.Accepts R startBlock data := by
  obtain ⟨p, hp, -⟩ := bind_eq_ok.mp h
  exact ⟨p, hp⟩

/-- The condition on a step: it writes no byte of a record behind a log that lacks its newline.  A
call that is refused, and one on a device that is off, writes nothing. -/
def WritesAfterNewline (R : Runtime) (s : Medium) : PowerStep → Prop
  | .append startBlock data =>
    (∃ j, s.live = some j ∧ j.Accepts R startBlock data) → Terminated s.dir.log
  | .crash startBlock data k =>
    k ≠ 0 → (∃ j, s.live = some j ∧ j.Accepts R startBlock data) → Terminated s.dir.log
  | .reopen => True

/-! ## 2. The shapes a log can take -/

section Shapes

variable (R : Runtime) {md : Metadata}

/-- An open journal: the cursor and the log of the writes `ws`, the last of which may lack its
newline. -/
inductive Open : List (Write md) → Cursor → Bytes → Prop
  | whole (ws : List (Write md)) : Open ws (cursorOf R ws) (logOf R ws)
  | unterminated (ws : List (Write md)) (w : Write md) :
    Open (ws ++ [w]) ((cursorOf R ws).enter R w ((w.line R (cursorOf R ws)).length - 1))
      (logOf R ws ++ (w.line R (cursorOf R ws)).take ((w.line R (cursorOf R ws)).length - 1))

/-- A journal that is off: a log some open journal has, or one with a torn tail. -/
inductive Off : List (Write md) → Bytes → Prop
  | clean {ws : List (Write md)} {cur : Cursor} {log : Bytes} (h : Open R ws cur log) : Off ws log
  | torn (ws : List (Write md)) (w : Write md) {k : Nat} (hpos : 0 < k)
    (hk : k < (w.line R (cursorOf R ws)).length - 1) :
    Off ws (logOf R ws ++ (w.line R (cursorOf R ws)).take k)

variable {R}

theorem Open.backed {ws : List (Write md)} {cur : Cursor} {log : Bytes} (h : Open R ws cur log) :
    Backed R log cur ws := by
  cases h with
  | whole =>
    have hb := backed_logOf (R := R) ws []
    rwa [List.append_nil] at hb
  | unterminated ws w =>
    refine (backed_logOf ws _).enter ?_
    have htake : (w.line R (cursorOf R ws)).take ((w.line R (cursorOf R ws)).length - 1) =
        R.canonicalBytes (.obj (sealed R "record_hash" (w.body R (cursorOf R ws)))) :=
      take_pred_sealedLine _ _
    rw [logSize_cursorOf, List.drop_left, htake, readline_tail (canonicalBytes_no_newline _)]
    exact loads_unterminated (w.body_wf _)

/-- **Every log a run leaves behind can be opened**, and opening it loses no write. -/
theorem Off.init {ws : List (Write md)} {d : Dir} (h : Off R ws d.log)
    (hm : d.metadata = md.file R) (hb : d.base.length = md.blocks * md.blockSize) :
    ∃ j d', DurableJournal.init R d = .ok (j, d') ∧ j.toMetadata = md ∧
      Open R ws j.toCursor d'.log ∧ d'.metadata = d.metadata ∧ d'.base = d.base := by
  obtain ⟨metadata, base, log, torn⟩ := d
  cases h with
  | clean h =>
    cases h with
    | whole =>
      have hr := replayLines_logOf (R := R) ws (logOf R ws).length
      exact ⟨_, _, init_clean hm hb hr, rfl, Open.whole ws, rfl, rfl⟩
    | unterminated ws w =>
      have hr := replayLines_log (R := R) ws
        ((w.line R (cursorOf R ws)).take ((w.line R (cursorOf R ws)).length - 1))
      exact ⟨_, _, init_clean hm hb ((hr _).trans (replayLines_unterminated _ w _ _)), rfl,
        Open.unterminated ws w, rfl, rfl⟩
  | torn w hpos hk =>
    rename_i k
    have hlen : (logOf R ws ++ (w.line R (cursorOf R ws)).take k).length =
        (cursorOf R ws).logSize + k := by
      rw [List.length_append, logSize_cursorOf, List.length_take, Nat.min_eq_left (by omega)]
    have hr := replayLines_log (R := R) ws ((w.line R (cursorOf R ws)).take k)
      ((cursorOf R ws).logSize + k)
    rw [← hlen] at hr
    have ht := replayLines_torn (R := R) w hpos hk (1 + ws.length)
    rw [← hlen] at ht
    refine ⟨_, _, init_torn hm hb (hr.trans ht), rfl, ?_, rfl, rfl⟩
    have hcut : (logOf R ws ++ (w.line R (cursorOf R ws)).take k).take (cursorOf R ws).logSize =
        logOf R ws := by
      rw [logSize_cursorOf, List.take_left]
    have hopen := Open.whole (R := R) ws
    rw [← hcut] at hopen
    exact hopen

theorem not_terminated_append {log text : Bytes} (hne : text ≠ []) (hnl : newline ∉ text) :
    ¬ Terminated (log ++ text) := by
  rintro (h | h)
  · exact hne (List.append_eq_nil_iff.mp h).2
  · rw [List.getLast?_append_of_ne_nil _ hne] at h
    exact hnl (List.mem_of_getLast? h)

/-- A newline at the end of the log rules the second shape out. -/
theorem Open.of_terminated {ws : List (Write md)} {cur : Cursor} {log : Bytes}
    (h : Open R ws cur log) (ht : Terminated log) : cur = cursorOf R ws ∧ log = logOf R ws := by
  cases h with
  | whole => exact ⟨rfl, rfl⟩
  | unterminated ws w =>
    have htake : (w.line R (cursorOf R ws)).take ((w.line R (cursorOf R ws)).length - 1) =
        R.canonicalBytes (.obj (sealed R "record_hash" (w.body R (cursorOf R ws)))) :=
      take_pred_sealedLine _ _
    obtain ⟨t, hhead⟩ := canonicalBytes_obj_head (sealed R "record_hash" (w.body R (cursorOf R ws)))
    rw [htake] at ht
    refine absurd ht (not_terminated_append ?_ (canonicalBytes_no_newline _))
    rw [hhead]
    exact List.cons_ne_nil _ _

/-- What a crash leaves behind a terminated log. -/
theorem Off.of_crash (ws : List (Write md)) (w : Write md) (k : Nat) :
    Off R (if (w.line R (cursorOf R ws)).length ≤ k + 1 then ws ++ [w] else ws)
      (logOf R ws ++ (w.line R (cursorOf R ws)).take k) := by
  have hpos : 0 < (w.line R (cursorOf R ws)).length :=
    List.length_pos_iff.mpr (w.isLine _).ne_nil
  split
  · rename_i hk
    rcases Nat.lt_or_ge k (w.line R (cursorOf R ws)).length with hlt | hge
    · -- all but the newline
      have hk' : k = (w.line R (cursorOf R ws)).length - 1 := by omega
      rw [hk']
      exact Off.clean (Open.unterminated ws w)
    · rw [List.take_of_length_le hge, ← logOf_concat]
      exact Off.clean (Open.whole _)
  · rename_i hk
    rcases Nat.eq_zero_or_pos k with rfl | hk0
    · rw [List.take_zero, List.append_nil]
      exact Off.clean (Open.whole ws)
    · exact Off.torn ws w hk0 (by omega)

end Shapes

/-! ## 3. The invariant -/

section Invariant

variable (R : Runtime) (md : Metadata)

/-- The callers' knowledge is that of the writes `ws`, and the files are a state that these
writes can be in. -/
structure Kept (ws : List (Write md)) (s : Medium) : Prop where
  refused : s.refused = false
  file : s.dir.metadata = md.file R
  size : s.dir.base.length = md.blocks * md.blockSize
  history : s.history = ws.map fun w => ((w.start : Int), w.data)
  acked : ∀ a ∈ s.acked, ∃ i w, ws[i]? = some w ∧
    a = ⟨i + 1, w.start, w.data⟩
  off : s.live = none → Off R ws s.dir.log
  live : ∀ j, s.live = some j → j.toMetadata = md ∧ Open R ws j.toCursor s.dir.log

variable {R md}

/-- The expected image of a history of accepted writes. -/
theorem expectedImage_eq (base : Bytes) (ws : List (Write md)) :
    expectedImage md base (ws.map fun w => ((w.start : Int), w.data)) = imageOf base ws := by
  have hpatches : ∀ l : List (Write md),
      (l.map fun w => ((w.start : Int), w.data)).filterMap (fun h => patchOf md h.1 h.2) =
        l.map Write.patch := by
    intro l
    induction l with
    | nil => rfl
    | cons w l ih => rw [List.map_cons, List.filterMap_cons, patchOf_write, ih, List.map_cons]
  rw [expectedImage, hpatches]
  rfl

theorem Backed.present {ws : List (Write md)} {j : DurableJournal} {d : Dir}
    (h : Backed R d.log j.toCursor ws) (hmd : j.toMetadata = md) {i : Nat} {w : Write md}
    (hw : ws[i]? = some w) : (Acked.mk (i + 1) w.start w.data).Present R md j d := by
  obtain ⟨e, he, hs, hh⟩ := h.holds i w hw
  refine ⟨i, e, he, hs, congrArg Int.ofNat hh.block, ?_, payloadAt_of_holds hmd he hh⟩
  rw [hh.blocks]
  exact w.length_data.symm

/-- The invariant is what must survive. -/
theorem Kept.survives {ws : List (Write md)} {s : Medium} (h : Kept R md ws s) :
    s.Survives R md := by
  refine ⟨h.refused, fun j hj => ?_⟩
  obtain ⟨hmd, hopen⟩ := h.live j hj
  constructor
  · intro a ha
    obtain ⟨i, w, hw, rfl⟩ := h.acked a ha
    exact hopen.backed.present hmd hw
  · intro b n hn hr
    rw [h.history, expectedImage_eq]
    exact hopen.backed.read_current hmd hn hr

theorem Kept.append {ws : List (Write md)} {s : Medium} (h : Kept R md ws s) {start : Int}
    {data : Bytes} (ht : WritesAfterNewline R s (.append start data)) :
    ∃ ws', Kept R md ws' ((PowerStep.append start data).run R s) := by
  cases hlive : s.live with
  | none =>
    simp only [PowerStep.run, hlive]
    exact ⟨ws, h⟩
  | some j =>
    cases hr : j.append R s.dir start data with
    | error e =>
      simp only [PowerStep.run, hlive, hr]
      exact ⟨ws, h⟩
    | ok r =>
      -- only an append that returns has to find the newline
      obtain ⟨hmd, hopen⟩ := h.live j hlive
      obtain ⟨hcur, hlog⟩ := hopen.of_terminated (ht ⟨j, hlive, j.accepts_of_append hr⟩)
      have hc : Canonical R ws j s.dir := ⟨hmd, hcur, h.file, h.size, hlog⟩
      obtain ⟨w, rfl, rfl⟩ := hc.append_inv hr
      obtain ⟨j', d', hrun, hc', -, hbase⟩ := hc.append w
      simp only [PowerStep.run, hlive, hrun]
      refine ⟨ws ++ [w], h.refused, hc'.file, hc'.size, ?_, ?_, ?_, ?_⟩
      · rw [List.map_append, ← h.history]
        rfl
      · intro a ha
        rcases List.mem_append.mp ha with ha | ha
        · obtain ⟨i, v, hv, rfl⟩ := h.acked a ha
          have hi : i < ws.length := (List.getElem?_eq_some_iff.mp hv).1
          exact ⟨i, v, by rw [List.getElem?_append_left hi]; exact hv, rfl⟩
        · rw [List.mem_singleton.mp ha]
          exact ⟨ws.length, w, by simp, rfl⟩
      · intro hnone
        cases hnone
      · intro j'' hj''
        cases hj''
        refine ⟨hc'.metadata, ?_⟩
        have hw := Open.whole (R := R) (ws ++ [w])
        rw [← hc'.cursor, ← hc'.log] at hw
        exact hw

theorem Kept.crash {ws : List (Write md)} {s : Medium} (h : Kept R md ws s) {start : Int}
    {data : Bytes} {k : Nat} (ht : WritesAfterNewline R s (.crash start data k)) :
    ∃ ws', Kept R md ws' ((PowerStep.crash start data k).run R s) := by
  cases hlive : s.live with
  | none =>
    simp only [PowerStep.run, hlive]
    exact ⟨ws, h⟩
  | some j =>
    obtain ⟨hmd, hopen⟩ := h.live j hlive
    have hstay : Kept R md ws { s with live := none } :=
      ⟨h.refused, h.file, h.size, h.history, h.acked, fun _ => Off.clean hopen,
        fun j' hj' => by cases hj'⟩
    obtain ⟨jmd, cur, tail⟩ := j
    obtain rfl : jmd = md := hmd
    cases hp : DurableJournal.prepare R ⟨jmd, cur, tail⟩ start data with
    | error e =>
      simp only [PowerStep.run, hlive, hp]
      exact ⟨ws, hstay⟩
    | ok p =>
      have hnewline : k ≠ 0 → Terminated s.dir.log := fun hk => ht hk ⟨_, hlive, p, hp⟩
      obtain ⟨w, rfl, rfl⟩ := prepare_inv hp
      simp only [PowerStep.run, hlive, prepare_write]
      have hlen : 1 < (w.line R cur).length := by
        obtain ⟨t, ht⟩ := canonicalBytes_obj_head (sealed R "record_hash" (w.body R cur))
        have := length_sealedLine (R := R) "record_hash" (w.body R cur)
        rw [ht] at this
        rw [List.length_cons] at this
        exact this ▸ (by omega)
      by_cases hk : k = 0
      · -- nothing reached the disk
        subst hk
        refine ⟨ws, h.refused, h.file, h.size, ?_, h.acked, fun _ => ?_, fun j' hj' => by cases hj'⟩
        · rw [if_neg (by omega)]
          exact h.history
        · rw [Dir.extend, List.take_zero, List.append_nil]
          exact Off.clean hopen
      · -- the file ends in a newline, so the bytes begin a line of their own
        obtain ⟨hcur, hlog⟩ := hopen.of_terminated (hnewline hk)
        obtain rfl : cur = cursorOf R ws := hcur
        refine ⟨if (w.line R (cursorOf R ws)).length ≤ k + 1 then ws ++ [w] else ws,
          h.refused, h.file, h.size, ?_, ?_, fun _ => ?_, fun j' hj' => by cases hj'⟩
        · -- the record is there once all of it but the newline is
          split
          · rw [List.map_append, ← h.history]
            rfl
          · exact h.history
        · intro a ha
          obtain ⟨i, v, hv, rfl⟩ := h.acked a ha
          refine ⟨i, v, ?_, rfl⟩
          split
          · have hi : i < ws.length := (List.getElem?_eq_some_iff.mp hv).1
            rw [List.getElem?_append_left hi]
            exact hv
          · exact hv
        · rw [Dir.extend, hlog]
          exact Off.of_crash ws w k

theorem Kept.reopen {ws : List (Write md)} {s : Medium} (h : Kept R md ws s) :
    Kept R md ws (PowerStep.reopen.run R s) := by
  have hoff : Off R ws s.dir.log := by
    cases hlive : s.live with
    | none => exact h.off hlive
    | some j => exact Off.clean (h.live j hlive).2
  obtain ⟨j, d', hinit, hmd, hopen, hmeta, hbase⟩ := hoff.init h.file h.size
  simp only [PowerStep.run, hinit]
  refine ⟨h.refused, hmeta.trans h.file, hbase ▸ h.size, h.history, h.acked, ?_, ?_⟩
  · intro hnone
    cases hnone
  · intro j' hj'
    cases hj'
    exact ⟨hmd, hopen⟩

/-- **Every step that meets the condition keeps the invariant.** -/
theorem Kept.step (s : Medium) (o : PowerStep) (hw : WritesAfterNewline R s o)
    (h : ∃ ws, Kept R md ws s) : ∃ ws, Kept R md ws (o.run R s) := by
  obtain ⟨ws, h⟩ := h
  cases o with
  | append start data => exact h.append hw
  | crash start data k => exact h.crash hw
  | reopen => exact ⟨ws, h.reopen⟩

theorem Kept.start {blocks blockSize : Nat} {deviceId : String} {d : Dir}
    (hp : provision R blocks blockSize deviceId = .ok d) :
    Kept R ⟨deviceId, blocks, blockSize⟩ [] (Medium.provisioned R d) := by
  have hc := provision_canonical hp
  have hlog : d.log = logOf R ([] : List (Write ⟨deviceId, blocks, blockSize⟩)) := hc.log
  refine Kept.reopen ⟨rfl, hc.file, hc.size, rfl, by simp, fun _ => ?_, fun j hj => by cases hj⟩
  rw [hlog]
  exact Off.clean (Open.whole [])

end Invariant

/-! ## 4. A record behind a log that lacks its newline -/

section Glued

variable {R : Runtime} {md : Metadata}

/-- Two records on one line are taken for a torn tail, and both are dropped. -/
theorem replayLines_glued (w v : Write md) (cur : Cursor) :
    replayLines R .off md ((w.line R Cursor.empty).take ((w.line R Cursor.empty).length - 1) ++
        v.line R cur).length Cursor.empty 1
      (splitLines ((w.line R Cursor.empty).take ((w.line R Cursor.empty).length - 1) ++
        v.line R cur)) = .ok (Cursor.empty, some 0) := by
  have htake : (w.line R Cursor.empty).take ((w.line R Cursor.empty).length - 1) =
      R.canonicalBytes (.obj (sealed R "record_hash" (w.body R Cursor.empty))) :=
    take_pred_sealedLine _ _
  rw [htake]
  have hline := isLine_append_line
    (canonicalBytes_no_newline (.obj (sealed R "record_hash" (w.body R Cursor.empty))))
    (v.isLine (R := R) cur)
  have hblank : blank (R.canonicalBytes (.obj (sealed R "record_hash" (w.body R Cursor.empty))) ++
      v.line R cur) = false := by
    obtain ⟨t, ht⟩ := canonicalBytes_obj_head (sealed R "record_hash" (w.body R Cursor.empty))
    rw [ht]
    rfl
  have hparse : parseRecord R .off (R.canonicalBytes
      (.obj (sealed R "record_hash" (w.body R Cursor.empty))) ++ v.line R cur) = none := by
    have h : (PyJson.loads .off (R.canonicalBytes
        (.obj (sealed R "record_hash" (w.body R Cursor.empty))) ++ v.line R cur) :
          Option R.FileValue) = none := FileValue.loads_glued (w.body_wf _) .off
    rw [parseRecord, h]
    rfl
  have hsplit := hline.splitLines_append []
  rw [List.append_nil] at hsplit
  rw [hsplit, replayLines, hblank, if_neg (by simp), hparse]
  exact if_pos (by simp [Cursor.empty])

/-- **The loss**: a crash that leaves all of `w` but its newline, a reopening, an append of `v`
that returns, and a reopening that drops both. -/
theorem glued_append_lost {d : Dir} (hm : d.metadata = md.file R)
    (hb : d.base.length = md.blocks * md.blockSize) (hlog : d.log = []) (w v : Write md) :
    ¬ ([.crash w.start w.data ((w.line R Cursor.empty).length - 1), .reopen,
        .append v.start v.data, .reopen].foldl (PowerStep.run R)
      ⟨d, some ⟨md, Cursor.empty, none⟩, [], [], false⟩).Survives R md := by
  obtain ⟨metadata, base, log, torn⟩ := d
  obtain rfl : log = [] := hlog
  have hopen1 : DurableJournal.init R ⟨metadata, base,
      (w.line R Cursor.empty).take ((w.line R Cursor.empty).length - 1), torn⟩ =
      .ok (⟨md, Cursor.empty.enter R w ((w.line R Cursor.empty).length - 1), none⟩, _) :=
    init_clean hm hb (replayLines_unterminated _ w _ _)
  have hopen2 : DurableJournal.init R ⟨metadata, base,
      (w.line R Cursor.empty).take ((w.line R Cursor.empty).length - 1) ++
        v.line R (Cursor.empty.enter R w ((w.line R Cursor.empty).length - 1)), torn⟩ =
      .ok (⟨md, Cursor.empty, _⟩, _) := init_torn hm hb (replayLines_glued w v _)
  intro h
  simp only [List.foldl_cons, List.foldl_nil, PowerStep.run, prepare_write, Dir.extend,
    List.nil_append, hopen1, DurableJournal.append, bind, Except.bind, pure, Except.pure, hopen2]
    at h
  obtain ⟨i, e, hi, -⟩ := (h.2 _ rfl).1 _ (List.mem_singleton_self _)
  cases hi

end Glued

/-! ## 5. Main results -/

/-- **Power cuts lose nothing**, in every run in which no record is written behind a log that
lacks its newline. -/
theorem power_cuts_lose_nothing (R : Runtime) {blocks blockSize : Nat} {deviceId : String}
    {d : Dir} (hp : provision R blocks blockSize deviceId = .ok d) (steps : List PowerStep)
    (hw : Along (PowerStep.run R) (WritesAfterNewline R) (Medium.provisioned R d) steps)
    {pre : List PowerStep} (hpre : pre <+: steps) :
    (pre.foldl (PowerStep.run R) (Medium.provisioned R d)).Survives R
      ⟨deviceId, blocks, blockSize⟩ := by
  obtain ⟨ws, h⟩ := run_along_initial (fun s o => Kept.step s o) ⟨[], Kept.start hp⟩ hw hpre
  exact h.survives

theorem provisioned_eq {R : Runtime} {blocks blockSize : Nat} {deviceId : String} {d : Dir}
    (hp : provision R blocks blockSize deviceId = .ok d) :
    Medium.provisioned R d =
      ⟨d, some ⟨⟨deviceId, blocks, blockSize⟩, Cursor.empty, none⟩, [], [], false⟩ := by
  simp only [Medium.provisioned, PowerStep.run, (provision_canonical hp).init]

/-- A crash on a fresh device that leaves five bytes, and a reopening. -/
theorem power_cuts_lose_nothing_five_bytes : ∃ d,
    provision Runtime.reference 4 512 "dev" = .ok d ∧
      ([.crash 0 (List.replicate 512 7) 5, .reopen].foldl (PowerStep.run Runtime.reference)
        (Medium.provisioned Runtime.reference d)).Survives Runtime.reference ⟨"dev", 4, 512⟩ := by
  obtain ⟨d, hd⟩ := provision_four_blocks
  refine ⟨d, hd, power_cuts_lose_nothing Runtime.reference hd _ ?_ (List.prefix_refl _)⟩
  have hlog : d.log = [] := (provision_canonical hd).log
  rw [provisioned_eq hd]
  exact ⟨fun _ _ => Or.inl hlog, trivial, trivial⟩

/-- The failing run: block 0 is cut before its newline, block 1 is then written and acknowledged,
and the next reopening has neither. -/
theorem acknowledged_append_lost : ∃ d, provision Runtime.reference 4 512 "dev" = .ok d ∧
    let w : Write ⟨"dev", 4, 512⟩ := Write.fill 0 7 (by decide) (by decide)
    let v : Write ⟨"dev", 4, 512⟩ := Write.fill 1 9 (by decide) (by decide)
    let k := (w.line Runtime.reference Cursor.empty).length - 1
    ¬ ([.crash w.start w.data k, .reopen, .append v.start v.data, .reopen].foldl
        (PowerStep.run Runtime.reference) (Medium.provisioned Runtime.reference d)).Survives
      Runtime.reference ⟨"dev", 4, 512⟩ := by
  obtain ⟨d, hd⟩ := provision_four_blocks
  have hc := provision_canonical hd
  refine ⟨d, hd, ?_⟩
  rw [provisioned_eq hd]
  exact glued_append_lost hc.file hc.size hc.log _ _

end AegisShield
