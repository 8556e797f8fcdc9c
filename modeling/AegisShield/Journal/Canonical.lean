/-
# What append writes and what replay reads

`append` and `_replay` keep the same five variables in two separate pieces of code.  This file
says once what a record does to them (`Cursor.enter`) and proves that each piece of code does
exactly that:

* `prepare_write`: `append` of an accepted write moves the cursor by `advance`;
* `replayLines_record`: replay of the record's line, complete or lacking only its newline, moves
  the cursor by `enter` with the number of bytes that are there.

From the second follows what opening a log makes of the writes `ws` in it and of a prefix of one
more record behind them (`replayLines_tail`).
-/
import AegisShield.Journal.Basic
import AegisShield.SealedLine
import AegisShield.Lib.Ledger
import Mathlib.Data.List.Induction
import Mathlib.Tactic.Ring

namespace AegisShield

open Lib

/-! ## 1. Accepted writes -/

theorem Metadata.checkRange_ok {md : Metadata} {block count : Int} {u : Unit} :
    md.checkRange block count = .ok u ↔ 0 ≤ block ∧ 1 ≤ count ∧ block + count ≤ md.blocks := by
  rw [Metadata.checkRange]
  split
  · rename_i h
    refine ⟨fun h' => (by cases h'), fun h' => ?_⟩
    omega
  · rename_i h
    exact ⟨fun _ => by omega, fun _ => rfl⟩

/-- A write that `append` accepts on a journal with metadata `md`. -/
structure Write (md : Metadata) where
  start : Nat
  data : Bytes
  nonempty : data ≠ []
  aligned : data.length % md.blockSize = 0
  inRange : start + data.length / md.blockSize ≤ md.blocks

namespace Write

variable {md : Metadata}

/-- One block, filled with a byte. -/
def fill (start : Nat) (byte : UInt8) (hsize : 0 < md.blockSize) (h : start < md.blocks) :
    Write md where
  start := start
  data := List.replicate md.blockSize byte
  nonempty hnil := by
    have hlen := congrArg List.length hnil
    rw [List.length_replicate] at hlen
    exact absurd hlen (Nat.ne_of_gt hsize)
  aligned := by rw [List.length_replicate, Nat.mod_self]
  inRange := by rw [List.length_replicate, Nat.div_self hsize]; exact h

/-- The number of blocks written. -/
def count (w : Write md) : Nat := w.data.length / md.blockSize

theorem count_fill (start : Nat) (byte : UInt8) (hsize : 0 < md.blockSize)
    (h : start < md.blocks) : (fill start byte hsize h).count = 1 := by
  rw [count, fill, List.length_replicate, Nat.div_self hsize]

theorem length_data (w : Write md) : w.data.length = w.count * md.blockSize :=
  (Nat.div_mul_cancel (Nat.dvd_of_mod_eq_zero w.aligned)).symm

theorem count_pos (w : Write md) : 0 < w.count := by
  rcases Nat.eq_zero_or_pos w.count with h | h
  · have hlen := w.length_data
    rw [h, Nat.zero_mul, List.length_eq_zero_iff] at hlen
    exact absurd hlen w.nonempty
  · exact h

theorem checkRange (w : Write md) : md.checkRange w.start w.count = .ok () := by
  have h1 := w.count_pos
  have h2 : w.start + w.count ≤ md.blocks := w.inRange
  exact Metadata.checkRange_ok.mpr (by omega)

end Write

/-! ## 2. One record -/

section Record

variable (R : Runtime) {md : Metadata}

/-- The body of a write's record. -/
def Write.body (cur : Cursor) (w : Write md) : Dict R.Value :=
  recordBody cur w.start w.count w.data

/-- The line of a write's record. -/
def Write.line (cur : Cursor) (w : Write md) : Bytes :=
  serialized R cur w.start w.count w.data

/-- The cursor after a record of which `length` bytes are in the file. -/
def Cursor.enter (cur : Cursor) (w : Write md) (length : Nat) : Cursor where
  overlay := coverRange cur.overlay w.start w.count cur.index.length
  index := cur.index ++
    [⟨cur.nextSequence, w.start, w.count, cur.logSize, recordDigest R cur w.start w.count w.data⟩]
  lastHash := hex (recordDigest R cur w.start w.count w.data)
  nextSequence := cur.nextSequence + 1
  logSize := cur.logSize + length

/-- The cursor after a complete record. -/
def Cursor.advance (cur : Cursor) (w : Write md) : Cursor := cur.enter R w (w.line R cur).length

variable {R}

theorem Write.body_wf (cur : Cursor) (w : Write md) : (Json.obj (w.body R cur)).Wf := by
  have hkeys : (w.body R cur).map Prod.fst =
      ["block", "blocks", "crc32", "data_b64", "previous_hash", "sequence"] := rfl
  refine ⟨Dict.sorted_of_keys hkeys (by decide), ?_⟩
  simp [Write.body, recordBody, Json.WfMembers, Json.Wf]

theorem Write.isLine (cur : Cursor) (w : Write md) : IsLine (w.line R cur) :=
  isLine_sealedLine _ _

theorem Write.loads_line (cur : Cursor) (w : Write md) :
    Json.loads (w.line R cur) =
      some (Json.obj (sealed R "record_hash" (w.body R cur)) : R.Value) :=
  loads_sealedLine (w.body_wf cur)

theorem Write.blank_line (cur : Cursor) (w : Write md) : blank (w.line R cur) = false :=
  blank_sealedLine _ _

/-- **`append` moves the cursor by `advance`.** -/
theorem prepare_write (cur : Cursor) (tail : Option TailRecovery) (w : Write md) :
    DurableJournal.prepare R ⟨md, cur, tail⟩ w.start w.data =
      .ok (w.line R cur, ⟨md, cur.advance R w, tail⟩) := by
  have hc : ¬ (w.data = [] ∨ w.data.length % md.blockSize ≠ 0) := by
    rintro (h | h)
    · exact w.nonempty h
    · exact h w.aligned
  have hr := w.checkRange
  unfold DurableJournal.prepare
  simp only [if_neg hc]
  simp only [Write.count] at hr
  simp only [hr, bind, Except.bind, pure, Except.pure, Int.toNat_natCast]
  rfl

/-- `append` accepts nothing else. -/
theorem prepare_inv {cur : Cursor} {tail : Option TailRecovery} {start : Int} {data : Bytes}
    {r : Bytes × DurableJournal} (h : DurableJournal.prepare R ⟨md, cur, tail⟩ start data = .ok r) :
    ∃ w : Write md, start = w.start ∧ data = w.data := by
  unfold DurableJournal.prepare at h
  by_cases hc : data = [] ∨ data.length % md.blockSize ≠ 0
  · simp only [if_pos hc] at h
    cases h
  · simp only [if_neg hc] at h
    cases hr : md.checkRange start (data.length / md.blockSize : Nat) with
    | error e =>
      simp only [hr, bind, Except.bind] at h
      cases h
    | ok u =>
      push Not at hc
      have hlt := Metadata.checkRange_ok.mp hr
      have hstart : start = (start.toNat : Int) := by omega
      exact ⟨⟨start.toNat, data, hc.1, hc.2, by omega⟩, hstart, rfl⟩

/-! ## 3. Reading a record back -/

/-- What the structural part of replay takes out of a record. -/
def Write.parsed (cur : Cursor) (w : Write md) : Parsed R where
  value := fileDict (w.body R cur)
  storedHash := .str (PyStr.ofString (R.hexdigest (R.canonicalBytes (.obj (w.body R cur)))))
  data := w.data
  previousHash := .str (PyStr.ofString cur.lastHash)
  sequence := cur.nextSequence
  crc := crc32 w.data
  blocks := w.count
  block := w.start

theorem sealed_get_hash (cur : Cursor) (w : Write md) :
    FileValue.get (fileDict (sealed R "record_hash" (w.body R cur))) "record_hash" =
      some (.str (PyStr.ofString (R.hexdigest (R.canonicalBytes (.obj (w.body R cur)))))) := by
  rw [get_fileDict, sealed, Dict.get_set_self]
  rfl

theorem sealed_pop_hash (cur : Cursor) (w : Write md) :
    FileValue.pop (fileDict (sealed R "record_hash" (w.body R cur))) "record_hash" =
      fileDict (w.body R cur) := by
  rw [pop_fileDict, sealed, Dict.pop_set (by simp [Write.body, recordBody])]

/-- A field of the body. -/
theorem get_body (cur : Cursor) (w : Write md) (key : String) {v : R.Value}
    (h : (w.body R cur).get key = some v) :
    FileValue.get (fileDict (w.body R cur)) key = some v.toPy := by
  rw [get_fileDict, h, Option.map_some]

/-- A field of the record that stands on the line. -/
theorem get_sealed (cur : Cursor) (w : Write md) (key : String) (hkey : key ≠ "record_hash")
    {v : R.Value} (h : (w.body R cur).get key = some v) :
    FileValue.get (fileDict (sealed R "record_hash" (w.body R cur))) key = some v.toPy := by
  rw [get_fileDict, sealed, Dict.get_set_of_ne hkey, h, Option.map_some]

theorem getItem_sealed (cur : Cursor) (w : Write md) (key : String) (hkey : key ≠ "record_hash")
    {v : R.Value} (h : (w.body R cur).get key = some v) :
    FileValue.getItem (fileDict (sealed R "record_hash" (w.body R cur))) key = .ok v.toPy := by
  rw [FileValue.getItem, get_sealed cur w key hkey h, Option.elim_some]

/-- The payload as the text of a field. -/
theorem chars_b64encode (data : Bytes) :
    (PyStr.ofString (String.ofList (b64encode data))).chars = some (b64encode data) := by
  rw [PyStr.chars_ofString, String.toList_ofList]

theorem parseRecord_eq {raw : Bytes} {cur : Cursor} {w : Write md}
    (h : Json.loads raw = some (Json.obj (sealed R "record_hash" (w.body R cur)) : R.Value)) :
    parseRecord R .off raw = some (w.parsed cur) := by
  unfold parseRecord
  refine Option.bind_eq_some_iff.mpr ⟨_, Json.loads_toPy h, ?_⟩
  refine Option.bind_eq_some_iff.mpr ⟨_, rfl, ?_⟩
  refine Option.bind_eq_some_iff.mpr ⟨_, sealed_get_hash cur w, ?_⟩
  rw [sealed_pop_hash]
  refine Option.bind_eq_some_iff.mpr ⟨_, get_body cur w "data_b64" rfl, ?_⟩
  refine Option.bind_eq_some_iff.mpr ⟨_, rfl, ?_⟩
  refine Option.bind_eq_some_iff.mpr ⟨_, chars_b64encode w.data, ?_⟩
  refine Option.bind_eq_some_iff.mpr ⟨_, b64decode_b64encode true w.data, ?_⟩
  refine Option.bind_eq_some_iff.mpr ⟨_, get_body cur w "previous_hash" rfl, ?_⟩
  refine Option.bind_eq_some_iff.mpr ⟨_, get_body cur w "sequence" rfl, ?_⟩
  refine Option.bind_eq_some_iff.mpr ⟨_, rfl, ?_⟩
  refine Option.bind_eq_some_iff.mpr ⟨_, get_body cur w "crc32" rfl, ?_⟩
  refine Option.bind_eq_some_iff.mpr ⟨_, rfl, ?_⟩
  rw [get_body cur w "blocks" rfl]
  refine Option.bind_eq_some_iff.mpr ⟨_, rfl, ?_⟩
  refine Option.bind_eq_some_iff.mpr ⟨_, get_body cur w "block" rfl, ?_⟩
  exact Option.bind_eq_some_iff.mpr ⟨_, rfl, rfl⟩

/-- The integrity checks hold on a record the journal wrote, in the cursor it was written in. -/
theorem acceptRecord_parsed (cur : Cursor) (w : Write md) (line length : Nat) :
    acceptRecord R .off md cur line length (w.parsed cur) = .ok (cur.enter R w length) := by
  have hsize : ¬ ((w.count : Int) < 1 ∨ (w.data.length : Int) ≠ (w.count : Int) * md.blockSize) := by
    have h1 := w.count_pos
    have h2 := w.length_data
    rintro (h | h)
    · omega
    · exact h (by rw [h2]; push_cast; ring)
  unfold acceptRecord
  rw [FileValue.hashed_off]
  simp only [Write.parsed, bodyHash_fileDict, FileValue.asStr, ne_eq, not_true_eq_false, if_false,
    hsize, w.checkRange, Runtime.hexdigest, fromHex_hex, Option.elim_some, bind, Except.bind, pure,
    Except.pure, Int.toNat_natCast]
  rfl

/-- **Replay of a record moves the cursor by `enter`.** -/
theorem replayLines_record {raw : Bytes} {cur : Cursor} {w : Write md}
    (h : Json.loads raw = some (Json.obj (sealed R "record_hash" (w.body R cur)) : R.Value))
    (hblank : blank raw = false) (fileSize line : Nat) (rest : List Bytes) :
    replayLines R .off md fileSize cur line (raw :: rest) =
      replayLines R .off md fileSize (cur.enter R w raw.length) (line + 1) rest := by
  rw [replayLines, hblank, if_neg (by simp), parseRecord_eq h]
  simp only [acceptRecord_parsed, bind, Except.bind]

/-! ## 4. A whole log -/

variable (R)

/-- The log after the writes `ws`. -/
def logOf (ws : List (Write md)) : Bytes :=
  written (fun cur w => w.line R cur) (fun cur w => cur.advance R w) Cursor.empty ws

/-- The cursor after the writes `ws`. -/
def cursorOf (ws : List (Write md)) : Cursor :=
  ws.foldl (fun cur w => cur.advance R w) Cursor.empty

variable {R}

@[simp] theorem cursorOf_concat (ws : List (Write md)) (w : Write md) :
    cursorOf R (ws ++ [w]) = (cursorOf R ws).advance R w := by
  simp [cursorOf]

theorem logOf_concat (ws : List (Write md)) (w : Write md) :
    logOf R (ws ++ [w]) = logOf R ws ++ w.line R (cursorOf R ws) :=
  written_concat _ _ _ _ _

/-- The cursor's `logSize` is the size of the log. -/
theorem logSize_cursorOf (ws : List (Write md)) :
    (cursorOf R ws).logSize = (logOf R ws).length := by
  induction ws using List.reverseRecOn with
  | nil => rfl
  | append_singleton ws w ih =>
    rw [cursorOf_concat, logOf_concat, List.length_append, Cursor.advance, Cursor.enter, ih]

theorem replayLines_written (fileSize : Nat) (ws : List (Write md)) (rest : List Bytes) :
    ∀ (cur : Cursor) (line : Nat), replayLines R .off md fileSize cur line
        (writtenLines (fun cur w => w.line R cur) (fun cur w => cur.advance R w) cur ws ++ rest) =
      replayLines R .off md fileSize (ws.foldl (fun cur w => cur.advance R w) cur)
        (line + ws.length) rest := by
  induction ws with
  | nil => intro cur line; rfl
  | cons w ws ih =>
    intro cur line
    have hline : line + (w :: ws).length = line + 1 + ws.length := by
      rw [List.length_cons]; omega
    rw [writtenLines, List.cons_append, replayLines_record (w.loads_line cur) (w.blank_line cur),
      hline]
    exact ih (cur.advance R w) (line + 1)

/-- Replay of a log, with anything behind the records in it. -/
theorem replayLines_log (ws : List (Write md)) (tail : Bytes) (fileSize : Nat) :
    replayLines R .off md fileSize Cursor.empty 1 (splitLines (logOf R ws ++ tail)) =
      replayLines R .off md fileSize (cursorOf R ws) (1 + ws.length) (splitLines tail) := by
  rw [logOf, splitLines_written _ _ (fun cur w => w.isLine cur), replayLines_written]
  rfl

/-! ## 5. A prefix of one more record -/

/-- A prefix of a record that lacks more than the newline does not decode. -/
theorem parseRecord_torn {cur : Cursor} (w : Write md) {k : Nat}
    (hk : k < (w.line R cur).length - 1) (lim : Limits) :
    parseRecord R lim ((w.line R cur).take k) = none := by
  have h : (PyJson.loads lim ((w.line R cur).take k) : Option R.FileValue) = none :=
    FileValue.loads_take_sealedLine (w.body_wf cur) hk lim
  rw [parseRecord, h]
  rfl

/-- **A tail that lacks more than the newline is torn**: it is dropped, at its own offset. -/
theorem replayLines_torn {cur : Cursor} (w : Write md) {k : Nat} (hpos : 0 < k)
    (hk : k < (w.line R cur).length - 1) (line : Nat) :
    replayLines R .off md (cur.logSize + k) cur line (splitLines ((w.line R cur).take k)) =
      .ok (cur, some cur.logSize) := by
  have hlen : ((w.line R cur).take k).length = k := by
    rw [List.length_take]; omega
  have hne : (w.line R cur).take k ≠ [] := by
    intro h
    rw [h] at hlen
    exact absurd hlen (Nat.ne_of_lt hpos)
  have hsplit : splitLines ((w.line R cur).take k) = [(w.line R cur).take k] :=
    splitLines_tail ((w.isLine cur).not_mem_take (by omega)) hne
  have hblank : blank ((w.line R cur).take k) = false := by
    have h := blank_sealedLine_prefix (List.take_append_drop k (w.line R cur)) hne []
    rwa [List.append_nil] at h
  rw [hsplit, replayLines, hblank, if_neg (by simp), parseRecord_torn w hk]
  exact if_pos (by rw [hlen])

/-- **A tail that lacks only its newline is a record.** -/
theorem replayLines_unterminated (cur : Cursor) (w : Write md) (fileSize line : Nat) :
    replayLines R .off md fileSize cur line
        (splitLines ((w.line R cur).take ((w.line R cur).length - 1))) =
      .ok (cur.enter R w ((w.line R cur).length - 1), none) := by
  have htake : (w.line R cur).take ((w.line R cur).length - 1) =
      R.canonicalBytes (.obj (sealed R "record_hash" (w.body R cur))) :=
    take_pred_sealedLine _ _
  obtain ⟨t, ht⟩ := canonicalBytes_obj_head (sealed R "record_hash" (w.body R cur))
  have hne : R.canonicalBytes (.obj (sealed R "record_hash" (w.body R cur))) ≠ [] := by
    rw [ht]; exact List.cons_ne_nil _ _
  have hlen : (w.line R cur).length - 1 =
      (R.canonicalBytes (.obj (sealed R "record_hash" (w.body R cur)))).length := by
    rw [← htake, List.length_take]; omega
  have hblank : blank (R.canonicalBytes (.obj (sealed R "record_hash" (w.body R cur)))) = false := by
    rw [ht]; rfl
  rw [htake, splitLines_tail (canonicalBytes_no_newline _) hne,
    replayLines_record (loads_unterminated (w.body_wf cur)) hblank, hlen]
  rfl

end Record

/-! ## 6. Opening a directory -/

section Open

variable (R : Runtime) {md : Metadata}

/-- The contents of `metadata.json`. -/
def Metadata.file (md : Metadata) : Bytes := R.canonicalBytes md.toJson ++ [newline]

variable {R}

theorem sizeField_int (n : Nat) : sizeField (.int n : R.Value) = .ok n := by
  rw [sizeField, bind_of_ok (pyInt_int _), if_neg (by omega)]
  rfl

theorem Metadata.toJson_wf (md : Metadata) : (md.toJson : R.Value).Wf := by
  refine ⟨Dict.sorted_of_keys (rfl : _ = ["block_size", "blocks", "device_id", "format"])
    (by decide), ?_⟩
  simp [Json.WfMembers, Json.Wf]

/-- `metadata.json` reads back. -/
theorem Metadata.read_file (md : Metadata) : Metadata.read R (md.file R) = .ok md := by
  have hfile : md.file R = utf8 ((md.toJson : R.Value).canonical ++ ['\n']) := by
    rw [utf8_append]; rfl
  have hload : Json.loadsText ((md.toJson : R.Value).canonical ++ ['\n']) =
      some (md.toJson : R.Value) := by
    refine Json.loadsText_dump .compact (Metadata.toJson_wf md) ?_
    intro c hc
    rw [List.mem_singleton.mp hc]
    rfl
  rw [Metadata.read, hfile, decodeUtf8_utf8, Option.elim_some, bind_of_ok rfl, hload,
    Option.elim_some, bind_of_ok rfl]
  refine bind_eq_ok.mpr ⟨_, rfl, ?_⟩
  rw [if_neg (fun h => h rfl)]
  refine bind_eq_ok.mpr ⟨_, rfl, ?_⟩
  refine bind_eq_ok.mpr ⟨md.deviceId, rfl, ?_⟩
  refine bind_eq_ok.mpr ⟨_, rfl, ?_⟩
  refine bind_eq_ok.mpr ⟨_, sizeField_int md.blocks, ?_⟩
  refine bind_eq_ok.mpr ⟨_, rfl, ?_⟩
  exact bind_eq_ok.mpr ⟨_, sizeField_int md.blockSize, rfl⟩

/-- A directory whose log replays to its end opens, and is left as it is. -/
theorem init_clean {d : Dir} {cur : Cursor} (hm : d.metadata = md.file R)
    (hb : d.base.length = md.blocks * md.blockSize)
    (hr : replayLines R .off md d.log.length Cursor.empty 1 (splitLines d.log) = .ok (cur, none)) :
    DurableJournal.init R d = .ok (⟨md, cur, none⟩, d) := by
  rw [DurableJournal.init, DurableJournal.initUnder, hm, bind_of_ok (Metadata.read_file md)]
  simp only [hb, ne_eq, not_true_eq_false, if_false]
  exact bind_eq_ok.mpr ⟨_, hr, rfl⟩

/-- A directory whose log ends in a torn record opens, and the tail is moved aside. -/
theorem init_torn {d : Dir} {cur : Cursor} {offset : Nat} (hm : d.metadata = md.file R)
    (hb : d.base.length = md.blocks * md.blockSize)
    (hr : replayLines R .off md d.log.length Cursor.empty 1 (splitLines d.log) =
      .ok (cur, some offset)) :
    DurableJournal.init R d =
      .ok (⟨md, cur, some (discardTornTail d offset "incomplete final record").1⟩,
        (discardTornTail d offset "incomplete final record").2) := by
  rw [DurableJournal.init, DurableJournal.initUnder, hm, bind_of_ok (Metadata.read_file md)]
  simp only [hb, ne_eq, not_true_eq_false, if_false]
  exact bind_eq_ok.mpr ⟨_, hr, rfl⟩

end Open

end AegisShield
