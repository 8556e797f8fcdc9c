/-
# Opening an arbitrary file

`DurableJournal.init` gives back a result and the files it leaves; when it raises it gives back no
files.  Here the same opening is written with the files as they are at every moment
(`openFiles`): the loop of `_replay` reads the log through its handle, at the offset that it counts
itself, and `_discard_torn_tail` cuts that same file inside the loop.  The two agree
(`openFiles_eq`), so an opening that raises has changed nothing.

`opening_is_exact` collects what an opening does to a file, whatever its bytes are.  The operating
system's own failures are not in it: each file operation does what it is asked to.
-/
import AegisShield.Journal.PointInTime
import AegisShield.Journal.TornTail

namespace AegisShield

open Lib

/-! ## 1. The opening, with its files -/

section Files

variable (R : Runtime) (lim : Limits) (md : Metadata)

theorem logSize_lt_of_readline {d : Dir} {offset : Nat} (h : readline (d.log.drop offset) ≠ []) :
    offset < d.log.length := by
  by_contra hle
  rw [List.drop_eq_nil_of_le (not_lt.mp hle)] at h
  exact h rfl

/-- The loop of `_replay`, with the file it reads and cuts.  The handle stands at `cur.logSize`. -/
def replayFile (fileSize : Nat) (cur : Cursor) (line : Nat) (d : Dir) :
    Except Raised (Cursor × Option TailRecovery) × Dir :=
  let raw := readline (d.log.drop cur.logSize)
  if _hraw : raw = [] then (.ok (cur, none), d)
  else if blank raw then
    replayFile fileSize { cur with logSize := cur.logSize + raw.length } (line + 1) d
  else match parseRecord R lim raw with
    | none =>
      if fileSize ≤ cur.logSize + raw.length then
        let (recovery, d') := discardTornTail d cur.logSize "incomplete final record"
        (.ok (cur, some recovery), d')
      else (.error (.journalCorruptionError s!"invalid journal record on line {line}"), d)
    | some p =>
      match haccept : acceptRecord R lim md cur line raw.length p with
      | .error e => (.error e, d)
      | .ok cur' => replayFile fileSize cur' (line + 1) d
termination_by d.log.length - cur.logSize
decreasing_by
  · have hlt := logSize_lt_of_readline _hraw
    have hpos := List.length_pos_of_ne_nil _hraw
    change d.log.length - (cur.logSize + raw.length) < d.log.length - cur.logSize
    omega
  · have hlt := logSize_lt_of_readline _hraw
    have hpos := List.length_pos_of_ne_nil _hraw
    obtain ⟨-, rfl⟩ := acceptRecord_eq_ok.mp haccept
    simp only [Cursor.record]
    omega

/-- `DurableJournal(root)`, with the files it leaves when it raises. -/
def DurableJournal.openFiles (d : Dir) : Except Raised DurableJournal × Dir :=
  match Metadata.read R d.metadata with
  | .error e => (.error e, d)
  | .ok md =>
    if d.base.length ≠ md.blocks * md.blockSize then
      (.error (.journalCorruptionError "base image size does not match metadata"), d)
    else match replayFile R lim md d.log.length Cursor.empty 1 d with
      | (.error e, d') => (.error e, d')
      | (.ok (cur, recovered), d') => (.ok ⟨md, cur, recovered⟩, d')

end Files

/-! ## 2. The same as before -/

section Same

variable {R : Runtime} {lim : Limits} {md : Metadata}

/-- What a line-wise replay comes to, with the files. -/
def withFiles (d : Dir) : Except Raised (Cursor × Option Nat) →
    Except Raised (Cursor × Option TailRecovery) × Dir
  | .error e => (.error e, d)
  | .ok (cur, none) => (.ok (cur, none), d)
  | .ok (cur, some offset) =>
    (.ok (cur, some (discardTornTail d offset "incomplete final record").1),
      (discardTornTail d offset "incomplete final record").2)

/-- **The loop reads the lines of the file one after the other.** -/
theorem replayFile_eq (fileSize : Nat) (d : Dir) (lines : List Bytes) : ∀ (cur : Cursor) (line : Nat),
    splitLines (d.log.drop cur.logSize) = lines →
      replayFile R lim md fileSize cur line d = withFiles d (replayLines R lim md fileSize cur line lines) := by
  induction lines with
  | nil =>
    intro cur line hlines
    have hraw : readline (d.log.drop cur.logSize) = [] := by rw [readline, hlines]; rfl
    rw [replayFile]
    simp only [hraw, dite_true]
    rfl
  | cons raw rest ih =>
    intro cur line hlines
    have hraw : readline (d.log.drop cur.logSize) = raw := by rw [readline, hlines]; rfl
    have hne : raw ≠ [] := ne_nil_of_mem_splitLines (hlines ▸ List.mem_cons_self)
    have hrest : splitLines (d.log.drop (cur.logSize + raw.length)) = rest := by
      rw [← List.drop_drop]
      exact splitLines_drop hlines
    rw [replayFile, replayLines]
    simp only [hraw, hne, dite_false]
    split
    · exact ih _ _ hrest
    · cases hparse : parseRecord R lim raw with
      | none =>
        simp only
        split
        · rfl
        · rfl
      | some p =>
        simp only
        split
        · rename_i e haccept
          rw [hraw] at haccept
          rw [haccept]
          rfl
        · rename_i cur' haccept
          rw [hraw] at haccept
          rw [haccept]
          obtain ⟨-, rfl⟩ := acceptRecord_eq_ok.mp haccept
          exact ih (cur.record p raw.length) (line + 1) hrest

/-- **The two openings agree**, and one that raises leaves every file as it was. -/
theorem openFiles_eq (d : Dir) : DurableJournal.openFiles R lim d =
    match DurableJournal.initUnder lim R d with
    | .error e => (.error e, d)
    | .ok (j, d') => (.ok j, d') := by
  unfold DurableJournal.openFiles DurableJournal.initUnder
  cases hmd : Metadata.read R d.metadata with
  | error e => rfl
  | ok md =>
    simp only [bind, Except.bind]
    by_cases hb : d.base.length ≠ md.blocks * md.blockSize
    · rw [if_pos hb, if_pos hb]
      rfl
    · have hloop : replayFile R lim md d.log.length Cursor.empty 1 d =
          withFiles d (replayLines R lim md d.log.length Cursor.empty 1 (splitLines d.log)) :=
        replayFile_eq d.log.length d _ Cursor.empty 1 rfl
      rw [if_neg hb, if_neg hb, hloop]
      cases replayLines R lim md d.log.length Cursor.empty 1 (splitLines d.log) with
      | error e => rfl
      | ok result =>
        obtain ⟨cur, torn⟩ := result
        cases torn with
        | none => rfl
        | some offset => rfl

end Same

/-! ## 3. What the index points at -/

section Index

variable {R : Runtime} {lim : Limits} {md : Metadata}

/-- An index entry agrees with a record of its journal, which chains from the hash `previous` and
passes every check. -/
structure Parsed.Matches (md : Metadata) (previous : String) (p : Parsed R) (e : RecordIndex) :
    Prop where
  hash : FileValue.asStr p.storedHash = some (PyStr.ofString (FileValue.bodyHash R p.value))
  digest : FileValue.asStr p.storedHash = some (PyStr.ofString e.recordHash)
  chain : FileValue.asStr p.previousHash = some (PyStr.ofString previous)
  sequence : p.sequence = e.sequence
  crc : (crc32 p.data : Int) = p.crc
  block : p.block = e.block
  blocks : p.blocks = e.blocks
  size : 1 ≤ e.blocks ∧ p.data.length = e.blocks * md.blockSize
  range : e.block + e.blocks ≤ md.blocks

/-- The entry at a position of the index stands at the start of a line that is its record. -/
def Indexed (R : Runtime) (lim : Limits) (j : DurableJournal) (log : Bytes) (i : Nat) (e : RecordIndex) : Prop :=
  ∃ pre raw post p previous, splitLines log = pre ++ raw :: post ∧ e.offset = pre.flatten.length ∧
    parseRecord R lim raw = some p ∧ e.sequence = i + 1 ∧ j.previousHashAt i = .ok previous ∧
    p.Matches j.toMetadata previous e

/-- A cursor chains from the last entry of its index. -/
structure Cursor.Chained (cur : Cursor) : Prop where
  sequence : cur.nextSequence = cur.index.length + 1
  hash : ∀ md tail, (⟨md, cur, tail⟩ : DurableJournal).previousHashAt cur.index.length =
    .ok cur.lastHash

theorem Cursor.Chained.empty : Cursor.empty.Chained := ⟨rfl, fun _ _ => rfl⟩

/-- What a position chains from is what stands before it. -/
theorem previousHashAt_append {cur cur' : Cursor} {added : List RecordIndex}
    (h : cur'.index = cur.index ++ added) {i : Nat} (hi : i ≤ cur.index.length) (md md' : Metadata)
    (tail tail' : Option TailRecovery) :
    (⟨md, cur', tail⟩ : DurableJournal).previousHashAt i =
      (⟨md', cur, tail'⟩ : DurableJournal).previousHashAt i := by
  unfold DurableJournal.previousHashAt
  split
  · rfl
  · rw [h, List.getElem?_append_left (by omega)]

theorem Cursor.Chained.record {cur : Cursor} (h : cur.Chained) (p : Parsed R) (length : Nat) :
    (cur.record p length).Chained := by
  refine ⟨?_, fun md tail => ?_⟩
  · simp only [Cursor.record, List.length_append, List.length_singleton, h.sequence]
  · have hlength : (cur.record p length).index.length = cur.index.length + 1 := by
      simp only [Cursor.record, List.length_append, List.length_singleton]
    unfold DurableJournal.previousHashAt
    rw [hlength, if_neg (Nat.succ_ne_zero _), Nat.add_sub_cancel, Cursor.record,
      List.getElem?_concat_length]
    rfl

theorem Replays.chained {cur cur' : Cursor} {lines : List Bytes} (h : Replays R lim md cur lines cur')
    (hcur : cur.Chained) : cur'.Chained := by
  induction h with
  | nil => exact hcur
  | blank _ _ ih => exact ih ⟨hcur.sequence, hcur.hash⟩
  | record _ _ _ _ ih => exact ih (hcur.record _ _)

/-- Replay adds to the index, one entry for each line that is not blank. -/
theorem Replays.index {cur cur' : Cursor} {lines : List Bytes} (h : Replays R lim md cur lines cur') :
    ∃ added, cur'.index = cur.index ++ added ∧
      added.length = (lines.filter fun l => ¬ Lib.blank l).length := by
  induction h with
  | nil => exact ⟨[], (List.append_nil _).symm, rfl⟩
  | blank hblank _ ih =>
    obtain ⟨added, hindex, hlength⟩ := ih
    refine ⟨added, hindex, ?_⟩
    rw [hlength, List.filter_cons_of_neg (by simp [hblank])]
  | @record cur cur' raw rest p hblank hparse hchecks h ih =>
    obtain ⟨added, hindex, hlength⟩ := ih
    refine ⟨_ :: added, hindex.trans (List.append_assoc _ [_] _), ?_⟩
    rw [List.filter_cons_of_pos (by simp [hblank]), List.length_cons, List.length_cons, hlength]

/-- The entry of a record that passed the checks. -/
theorem Parsed.Checks.matches {cur : Cursor} {p : Parsed R} (h : p.Checks lim md cur) (offset : Nat) :
    p.Matches md cur.lastHash ⟨cur.nextSequence, p.block.toNat, p.blocks.toNat, offset,
      R.sha256 (FileValue.canonicalBytes p.value)⟩ := by
  have hblock : ((p.block.toNat : Nat) : Int) = p.block := Int.toNat_of_nonneg h.range.1
  have hblocks : ((p.blocks.toNat : Nat) : Int) = p.blocks :=
    Int.toNat_of_nonneg (Int.le_trans (by decide) h.blocks)
  have hsize := h.size
  have hrange := h.range.2
  have hpos := h.blocks
  rw [← hblocks] at hsize hrange hpos
  rw [← hblock] at hrange
  refine ⟨h.hash, h.hash, h.chain, h.sequence, h.crc, hblock.symm, hblocks.symm, ⟨?_, ?_⟩, ?_⟩
  · exact_mod_cast hpos
  · exact_mod_cast hsize
  · exact_mod_cast hrange

/-- **Every entry that replay adds** points at its record. -/
theorem Replays.indexed {cur cur' : Cursor} {lines : List Bytes} (h : Replays R lim md cur lines cur')
    (hcur : cur.Chained) (tail : Option TailRecovery) {log : Bytes} {i : Nat} {e : RecordIndex}
    (hget : cur'.index[i]? = some e) : ∀ before : List Bytes,
      cur.logSize = before.flatten.length → splitLines log = before ++ lines →
      cur.index.length ≤ i → Indexed R lim ⟨md, cur', tail⟩ log i e := by
  induction h with
  | nil cur =>
    intro before _ _ hi
    exact absurd (List.getElem?_eq_some_iff.mp hget).1 (not_lt.mpr hi)
  | @blank cur cur' raw rest _ _ ih =>
    intro before hsize hlog hi
    refine ih ⟨hcur.sequence, hcur.hash⟩ hget (before ++ [raw]) ?_ ?_ hi
    · rw [List.flatten_append, List.length_append, List.flatten_singleton, hsize]
    · rw [hlog, List.append_assoc]
      rfl
  | @record cur cur' raw rest p hblank hparse hchecks h ih =>
    intro before hsize hlog hi
    rcases Nat.eq_or_lt_of_le hi with rfl | hlt
    · obtain ⟨added, hindex, -⟩ := h.index
      rw [Cursor.record, List.append_assoc] at hindex
      rw [hindex, List.getElem?_append_right (Nat.le_refl _), Nat.sub_self] at hget
      cases hget
      refine ⟨before, raw, rest, p, cur.lastHash, hlog, hsize, hparse, hcur.sequence, ?_,
        hchecks.matches cur.logSize⟩
      rw [previousHashAt_append hindex (Nat.le_refl _) md md tail none]
      exact hcur.hash md none
    · refine ih (hcur.record p raw.length) hget (before ++ [raw]) ?_ ?_ ?_
      · rw [List.flatten_append, List.length_append, List.flatten_singleton, ← hsize]
        rfl
      · rw [hlog, List.append_assoc]
        rfl
      · rw [Cursor.record, List.length_append, List.length_singleton]
        exact hlt

end Index

/-! ## 4. Main result -/

section Exact

variable {R : Runtime} {lim : Limits}

/-- The name of the sidecar for a tail. -/
def sidecarName (offset : Nat) : String := s!"journal.jsonl.torn-{offset}"

/-- What an opening leaves of a file, and what it cuts off. -/
structure Split (d d' : Dir) (recovered : Option TailRecovery) (tail : Bytes) : Prop where
  log : d.log = d'.log ++ tail
  metadata : d'.metadata = d.metadata
  base : d'.base = d.base
  whole : tail = [] → recovered = none ∧ d' = d
  cut : tail ≠ [] →
    (d'.log = [] ∨ d'.log.getLast? = some newline) ∧
      recovered = some ⟨tail.length, "incomplete final record",
        sidecarName d'.log.length⟩ ∧
      (d'.log.length, tail) ∈ d'.torn

/-- Complete lines end in a newline. -/
theorem getLast?_flatten_lines {lines : List Bytes} (h : ∀ l ∈ lines, IsLine l) :
    lines.flatten = [] ∨ lines.flatten.getLast? = some newline := by
  rcases List.eq_nil_or_concat lines with rfl | ⟨lines, last, rfl⟩
  · exact Or.inl rfl
  · obtain ⟨body, -, rfl⟩ := h last (by simp)
    refine Or.inr ?_
    rw [List.concat_eq_append, List.flatten_append, List.flatten_singleton, ← List.append_assoc,
      List.getLast?_concat]

/-- **What an opening that succeeds has done.** -/
theorem init_split {d d' : Dir} {j : DurableJournal} (h : DurableJournal.initUnder lim R d = .ok (j, d')) :
    (∃ tail, Split d d' j.recoveredTail tail) ∧
      Replays R lim j.toMetadata Cursor.empty (splitLines d'.log) j.toCursor ∧
      DurableJournal.initUnder lim R d' = .ok ({ j with recoveredTail := none }, d') := by
  obtain ⟨md, cur, torn, hmd, hb, hreplay, hopened⟩ := initUnder_eq_ok.mp h
  rcases replayLines_file hreplay with ⟨rfl, hr⟩ | ⟨pre, last, hlines, hr, hlast, rfl⟩
  · -- nothing was discarded: opening again is the same call
    obtain ⟨rfl, rfl⟩ := Prod.mk.inj hopened
    refine ⟨⟨[], (List.append_nil _).symm, rfl, rfl, fun _ => ⟨rfl, rfl⟩, fun hne => absurd rfl hne⟩,
      hr, ?_⟩
    exact h
  · -- the last line was discarded, and it is the rest of the file behind the accepted bytes
    obtain ⟨rfl, rfl⟩ := Prod.mk.inj hopened
    obtain ⟨hpre, hlog⟩ := splitLines_dropLine hlines
    have hsize : cur.logSize = pre.flatten.length := hr.logSize_empty
    have htake : d.log.take cur.logSize = pre.flatten := by rw [hlog, hsize, List.take_left]
    have hdrop : d.log.drop cur.logSize = last := by rw [hlog, hsize, List.drop_left]
    have hne : last ≠ [] := by
      intro hnil
      have hblank := hlast.1
      rw [hnil] at hblank
      cases hblank
    refine ⟨⟨last, ?_⟩, ?_, ?_⟩
    · refine ⟨?_, rfl, rfl, fun hnil => absurd hnil hne, fun _ => ⟨?_, ?_, ?_⟩⟩
      · change d.log = d.log.take cur.logSize ++ last
        rw [htake]
        exact hlog
      · change d.log.take cur.logSize = [] ∨ (d.log.take cur.logSize).getLast? = some newline
        rw [htake]
        exact getLast?_flatten_lines (isLine_of_splitLines hlines)
      · change some (discardTornTail d cur.logSize "incomplete final record").1 =
          some ⟨last.length, "incomplete final record", sidecarName (d.log.take cur.logSize).length⟩
        rw [htake, ← hsize, discardTornTail, hdrop]
        rfl
      · change ((d.log.take cur.logSize).length, last) ∈
          (cur.logSize, d.log.drop cur.logSize) :: _
        rw [htake, ← hsize, hdrop]
        exact List.mem_cons_self
    · change Replays R lim md Cursor.empty (splitLines (d.log.take cur.logSize)) cur
      rw [htake, hpre]
      exact hr
    · refine initUnder_eq_ok.mpr ⟨md, cur, none, hmd, hb, ?_, rfl⟩
      change replayLines R lim md (d.log.take cur.logSize).length Cursor.empty 1
        (splitLines (d.log.take cur.logSize)) = _
      rw [htake, hpre]
      exact hr.replayLines_eq _ _

/-- **Opening a journal is exact and idempotent**, whatever the log is.  If it succeeds, the log is
split into what is left and a tail, which is empty or is in the sidecar; the index has an entry for
every line of the rest that is not blank, and each points at a record that passes every check; and
opening once more finds no tail, changes nothing, and makes the same object.  If it raises, nothing
has changed. -/
theorem opening_is_exact (R : Runtime) (lim : Limits) (d : Dir) :
    (∀ j d', DurableJournal.openFiles R lim d = (.ok j, d') →
      (∃ tail, Split d d' j.recoveredTail tail) ∧
        j.index.length = ((splitLines d'.log).filter fun l => ¬ blank l).length ∧
        (∀ i e, j.index[i]? = some e → Indexed R lim j d'.log i e) ∧
        j.nextSequence = j.index.length + 1 ∧ j.logSize = d'.log.length ∧
        DurableJournal.openFiles R lim d' = (.ok { j with recoveredTail := none }, d')) ∧
      ∀ e d', DurableJournal.openFiles R lim d = (.error e, d') → d' = d := by
  rw [openFiles_eq]
  cases hinit : DurableJournal.initUnder lim R d with
  | error e =>
    refine ⟨fun j d' h => ?_, fun e' d' h => ?_⟩
    · cases (Prod.mk.inj h).1
    · exact (Prod.mk.inj h).2.symm
  | ok opened =>
    obtain ⟨j, d'⟩ := opened
    refine ⟨fun j' d'' h => ?_, fun e d'' h => ?_⟩
    · obtain ⟨hj, rfl⟩ := Prod.mk.inj h
      obtain rfl := Except.ok.inj hj
      obtain ⟨hsplit, hreplays, hagain⟩ := init_split hinit
      obtain ⟨added, hindex, hlength⟩ := hreplays.index
      refine ⟨hsplit, ?_, ?_, ?_, ?_, ?_⟩
      · rw [hindex, ← hlength]
        rfl
      · intro i e hget
        exact hreplays.indexed .empty j.recoveredTail hget [] rfl rfl (Nat.zero_le _)
      · exact (hreplays.chained .empty).sequence
      · rw [hreplays.logSize_empty, flatten_splitLines]
      · rw [openFiles_eq, hagain]
    · cases (Prod.mk.inj h).1

/-- An empty journal behind which one brace was written. -/
theorem opening_is_exact_brace : ∃ d j d', provision Runtime.reference 4 512 "dev" = .ok d ∧
    DurableJournal.openFiles Runtime.reference .off { d with log := [123] } = (.ok j, d') ∧
    d'.log = [] ∧ j.recoveredTail = some ⟨1, "incomplete final record", "journal.jsonl.torn-0"⟩ ∧
    DurableJournal.openFiles Runtime.reference .off d' = (.ok { j with recoveredTail := none }, d') := by
  obtain ⟨d, hd⟩ := provision_four_blocks
  have hc := provision_canonical hd
  have hlast : Undecodable Runtime.reference .off [123] := ⟨rfl, rfl⟩
  have hreplay : replayLines Runtime.reference .off ⟨"dev", 4, 512⟩ 1 Cursor.empty 1
      (splitLines [123]) = .ok (Cursor.empty, some 0) := (Replays.nil _).replayLines_torn hlast 1
  have hmd : Metadata.read Runtime.reference d.metadata = .ok ⟨"dev", 4, 512⟩ := by
    rw [hc.file]
    exact Metadata.read_file _
  have hinit := (initUnder_eq_ok (d := { d with log := [123] })).mpr
    ⟨_, _, _, hmd, hc.size, hreplay, rfl⟩
  have hopen : DurableJournal.openFiles Runtime.reference .off { d with log := [123] } = _ :=
    openFiles_eq _
  rw [hinit] at hopen
  obtain ⟨-, -, -, -, -, hagain⟩ := (opening_is_exact Runtime.reference .off _).1 _ _ hopen
  exact ⟨d, _, _, hd, hopen, rfl, rfl, hagain⟩

end Exact

end AegisShield
