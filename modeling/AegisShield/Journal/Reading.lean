/-
# Reading

A journal object holds no payloads, so what `read` returns depends on the file as well: every
offset in the index has to lead to the record it was made for.  `Backed` says that it does, and
that the overlay names the newest record of each block.  It is deliberately silent about the rest
of the file: a log with bytes behind the last record, or without its last newline, still backs the
object.

Under `Backed`, both lookup paths of `read` return the blocks of the base image with the writes
applied in order (`Backed.read_current`, `Backed.read_at`).
-/
import AegisShield.Journal.Canonical
import AegisShield.Lib.BlockImage

namespace AegisShield

open Lib

/-! ## 1. The specification: a block image with a history -/

section Spec

variable {md : Metadata}

/-- A write as a patch of the block image. -/
def Write.patch (w : Write md) : Patch Bytes where
  start := w.start
  count := w.count
  content b := (w.data.drop ((b - w.start) * md.blockSize)).take md.blockSize

/-- The image after the writes `ws` on a base image. -/
def imageOf (base : Bytes) (ws : List (Write md)) : Nat → Bytes :=
  Patch.patched (blockOf md.blockSize base) (ws.map Write.patch)

/-- `count` blocks of an image, from `block` on. -/
def blocksOf (image : Nat → Bytes) (block count : Nat) : Bytes :=
  ((List.range' block count).map image).flatten

end Spec

/-! ## 2. The object and the file agree -/

section Backed

variable (R : Runtime) {md : Metadata}

/-- The line that an index entry points at holds the write `w`. -/
structure Holds (log : Bytes) (e : RecordIndex) (w : Write md) : Prop where
  block : e.block = w.start
  blocks : e.blocks = w.count
  line : ∃ cur : Cursor, cur.nextSequence = e.sequence ∧
    Json.loads (readline (log.drop e.offset)) =
      some (Json.obj (sealed R "record_hash" (w.body R cur)) : R.Value)

/-- The object is right about the writes `ws`, and the log has their payloads. -/
structure Backed (log : Bytes) (cur : Cursor) (ws : List (Write md)) : Prop where
  length : cur.index.length = ws.length
  sequence : cur.nextSequence = ws.length + 1
  holds : ∀ i w, ws[i]? = some w →
    ∃ e, cur.index[i]? = some e ∧ e.sequence = i + 1 ∧ Holds R log e w
  overlay : ∀ b, cur.overlay b = Patch.newest (ws.map Write.patch) b

variable {R}

theorem coverRange_apply (overlay : Nat → Option Nat) (start count position b : Nat) :
    coverRange overlay start count position b =
      if start ≤ b ∧ b < start + count then some position else overlay b := by
  induction count with
  | zero =>
    have h : ¬ (start ≤ b ∧ b < start + 0) := by omega
    rw [if_neg h]
    rfl
  | succ n ih =>
    rw [coverRange] at ih ⊢
    rw [List.range_succ, List.foldl_append, List.foldl_cons, List.foldl_nil]
    by_cases hb : b = start + n
    · subst hb
      rw [Function.update_self, if_pos (by omega)]
    · rw [Function.update_of_ne hb, ih]
      by_cases hc : start ≤ b ∧ b < start + n
      · rw [if_pos hc, if_pos (by omega)]
      · rw [if_neg hc, if_neg (by omega)]

/-- The empty journal is backed by any log. -/
theorem Backed.empty (log : Bytes) : Backed R log Cursor.empty ([] : List (Write md)) where
  length := rfl
  sequence := rfl
  holds i w h := by simp at h
  overlay _ := rfl

/-- An entered record whose line reads back from its offset keeps the object backed. -/
theorem Backed.enter {log : Bytes} {cur : Cursor} {ws : List (Write md)} (h : Backed R log cur ws)
    {w : Write md} {length : Nat}
    (hline : Json.loads (readline (log.drop cur.logSize)) =
      some (Json.obj (sealed R "record_hash" (w.body R cur)) : R.Value)) :
    Backed R log (cur.enter R w length) (ws ++ [w]) where
  length := by simp [Cursor.enter, h.length]
  sequence := by simp [Cursor.enter, h.sequence]
  holds i v hv := by
    rcases Nat.lt_or_ge i ws.length with hi | hi
    · rw [List.getElem?_append_left hi] at hv
      obtain ⟨e, he, hs, hh⟩ := h.holds i v hv
      refine ⟨e, ?_, hs, hh⟩
      rw [Cursor.enter, List.getElem?_append_left (h.length ▸ hi)]
      exact he
    · have hil : i < (ws ++ [w]).length := (List.getElem?_eq_some_iff.mp hv).1
      have hie : i = ws.length := by
        rw [List.length_append, List.length_singleton] at hil
        omega
      subst hie
      rw [List.getElem?_concat_length] at hv
      cases hv
      refine ⟨⟨cur.nextSequence, w.start, w.count, cur.logSize,
        recordDigest R cur w.start w.count w.data⟩, ?_, h.sequence, rfl, rfl, cur, rfl, hline⟩
      rw [Cursor.enter, ← h.length, List.getElem?_concat_length]
  overlay b := by
    have hcover : (cur.enter R w length).overlay b =
        if w.start ≤ b ∧ b < w.start + w.count then some cur.index.length else cur.overlay b :=
      coverRange_apply _ _ _ _ _
    rw [hcover, h.overlay, h.length, List.map_append, List.map_singleton, Patch.newest_concat,
      List.length_map]
    rfl

/-! ## 3. `_payload_at` -/

theorem payloadAt_of_holds {j : DurableJournal} {d : Dir} {i : Nat} {e : RecordIndex}
    {w : Write md} (hmd : j.toMetadata = md) (he : j.index[i]? = some e) (h : Holds R d.log e w) :
    j.payloadAt R d i = .ok w.data := by
  obtain ⟨cur, hseq, hline⟩ := h.line
  have hlen : w.data.length = e.blocks * j.blockSize := by
    rw [h.blocks, hmd]
    exact w.length_data
  have h64 : (FileValue.get (fileDict (sealed R "record_hash" (w.body R cur))) "data_b64").bind
      FileValue.asStr = some (PyStr.ofString (String.ofList (b64encode w.data))) := by
    rw [get_sealed cur w "data_b64" (by decide) rfl]
    rfl
  have hdata : (PyStr.ofString (String.ofList (b64encode w.data))).chars.bind (b64decode true) =
      some w.data := by
    rw [chars_b64encode, Option.bind_some, b64decode_b64encode]
  have hsq : FileValue.getItem (fileDict (sealed R "record_hash" (w.body R cur))) "sequence" =
      .ok (.int cur.nextSequence) := getItem_sealed cur w "sequence" (by decide) rfl
  have hcrc : FileValue.getItem (fileDict (sealed R "record_hash" (w.body R cur))) "crc32" =
      .ok (.int (crc32 w.data)) := getItem_sealed cur w "crc32" (by decide) rfl
  have hkvs : ∀ e' : Raised, ((FileValue.loads R .off (readline (d.log.drop e.offset))).bind
      (FileValue.asDict .typeError)).mapError (fun _ => e') =
        .ok (fileDict (sealed R "record_hash" (w.body R cur))) := by
    intro e'
    rw [FileValue.loads_fileDict hline]
    rfl
  rw [DurableJournal.payloadAt, he, Option.elim_some, bind_of_ok rfl]
  refine bind_eq_ok.mpr ⟨_, hkvs _, ?_⟩
  rw [h64, Option.elim_some, bind_of_ok rfl, hdata, Option.elim_some, bind_of_ok rfl]
  refine bind_eq_ok.mpr ⟨_, hsq, ?_⟩
  refine bind_eq_ok.mpr ⟨_, rfl, ?_⟩
  rw [if_neg (by rw [hseq]; simp)]
  refine bind_eq_ok.mpr ⟨_, hcrc, ?_⟩
  refine bind_eq_ok.mpr ⟨_, rfl, ?_⟩
  rw [if_neg (by simp), if_neg (by simpa using hlen)]
  rfl

/-! ## 4. The two lookup paths -/

theorem blockFrom_of_holds {j : DurableJournal} {d : Dir} {i b : Nat} {e : RecordIndex}
    {w : Write md} (hmd : j.toMetadata = md) (he : j.index[i]? = some e) (h : Holds R d.log e w) :
    j.blockFrom R d i b = .ok (w.patch.content b) := by
  rw [DurableJournal.blockFrom, he, Option.elim_some, bind_of_ok rfl,
    bind_of_ok (payloadAt_of_holds hmd he h), h.block, hmd]
  rfl

/-- A block is read from the record that owns it, or from the base. -/
theorem Backed.readBlock {j : DurableJournal} {d : Dir} {ws : List (Write md)}
    (h : Backed R d.log j.toCursor ws) (hmd : j.toMetadata = md) {atSequence : Option Int}
    {b n : Nat} (howner : j.owner atSequence b = Patch.newest ((ws.take n).map Write.patch) b) :
    j.readBlock R d atSequence b = .ok (imageOf d.base (ws.take n) b) := by
  rw [DurableJournal.readBlock, howner, imageOf, Patch.patched_eq]
  cases hn : Patch.newest ((ws.take n).map Write.patch) b with
  | none =>
    rw [Option.bind_none, hmd]
    rfl
  | some i =>
    obtain ⟨p, hp, -⟩ := Patch.newest_some hn
    rw [List.getElem?_map, Option.map_eq_some_iff] at hp
    obtain ⟨w, hw, rfl⟩ := hp
    have hi : ws[i]? = some w := by
      rw [List.getElem?_take] at hw
      split at hw
      · exact hw
      · cases hw
    obtain ⟨e, he, -, hh⟩ := h.holds i w hi
    rw [Option.bind_some, List.getElem?_map, hw, Option.map_some]
    exact blockFrom_of_holds hmd he hh

/-- The reverse scan finds the newest of the first `s` records that covers the block. -/
theorem Backed.scanBack {j : DurableJournal} {log : Bytes} {ws : List (Write md)}
    (h : Backed R log j.toCursor ws) (s b : Nat) :
    j.scanBack s b = Patch.newest ((ws.take s).map Write.patch) b := by
  obtain ⟨hlen, -, hholds, -⟩ := h
  rw [DurableJournal.scanBack]
  generalize j.index = index at hlen hholds
  -- the newest record comes first in the scan, so the induction peels records off the end
  induction ws using List.reverseRecOn generalizing index with
  | nil =>
    rw [List.length_eq_zero_iff.mp hlen, List.take_nil]
    rfl
  | append_singleton ws w ih =>
    obtain ⟨idx, e, rfl⟩ : ∃ idx e, index = idx ++ [e] := by
      refine ⟨index.dropLast, index.getLast ?_, (List.dropLast_append_getLast _).symm⟩
      rintro rfl
      simp at hlen
    have hidx : idx.length = ws.length := by simpa using hlen
    obtain ⟨e', he', hs, hh⟩ := hholds ws.length w (by simp)
    rw [← hidx, List.getElem?_concat_length] at he'
    cases he'
    have hrest := ih idx hidx fun i v hv => by
      have hi : i < ws.length := (List.getElem?_eq_some_iff.mp hv).1
      obtain ⟨e', he', hr⟩ := hholds i v (by rw [List.getElem?_append_left hi]; exact hv)
      rw [List.getElem?_append_left (hidx ▸ hi)] at he'
      exact ⟨e', he', hr⟩
    rw [List.zipIdx_append, List.reverse_append]
    rcases Nat.lt_or_ge ws.length s with hlt | hge
    · have htake : (ws ++ [w]).take s = ws ++ [w] :=
        List.take_of_length_le (by simpa using hlt)
      have htake' : ws.take s = ws := List.take_of_length_le (by omega)
      have hseq : ¬ ((e.sequence : Int) > s) := by omega
      rw [htake, List.map_append, List.map_singleton, Patch.newest_concat, List.length_map]
      rw [htake'] at hrest
      by_cases hc : w.patch.Covers b
      · have hc' : e.block ≤ b ∧ b < e.block + e.blocks := by rw [hh.block, hh.blocks]; exact hc
        rw [if_pos hc]
        simp only [List.zipIdx_singleton, List.reverse_singleton, List.singleton_append,
          List.find?_cons, hseq, hc', not_false_eq_true, and_self, decide_true, Option.map_some,
          hidx, Nat.zero_add]
      · have hc' : ¬ (e.block ≤ b ∧ b < e.block + e.blocks) := by
          rw [hh.block, hh.blocks]; exact hc
        rw [if_neg hc, ← hrest]
        simp only [List.zipIdx_singleton, List.reverse_singleton, List.singleton_append,
          List.find?_cons, hseq, hc', and_false, decide_false]
    · have htake : (ws ++ [w]).take s = ws.take s := List.take_append_of_le_length hge
      have hseq : (e.sequence : Int) > s := by omega
      rw [htake, ← hrest]
      simp only [List.zipIdx_singleton, List.reverse_singleton, List.singleton_append,
        List.find?_cons, hseq, not_true_eq_false, false_and, decide_false]

/-! ## 5. `read` -/

theorem read_of_blocks {j : DurableJournal} {d : Dir} {image : Nat → Bytes} {block count : Nat}
    {atSequence : Option Int} (hrange : j.checkRange block count = .ok ())
    (hseq : ∀ s, atSequence = some s → 0 ≤ s ∧ s ≤ (j.lastSequence : Int))
    (hblocks : ∀ b, j.readBlock R d atSequence b = .ok (image b)) :
    j.read R d block count atSequence = .ok (blocksOf image block count) := by
  have hany : atSequence.any (fun s => ¬ (0 ≤ s ∧ s ≤ (j.lastSequence : Int))) = false := by
    cases atSequence with
    | none => rfl
    | some s => simpa using hseq s rfl
  rw [DurableJournal.read, bind_of_ok hrange, hany, if_neg (by simp), Int.toNat_natCast,
    Int.toNat_natCast, bind_of_ok (mapM_of_ok fun b _ => hblocks b)]
  rfl

variable {j : DurableJournal} {d : Dir} {ws : List (Write md)}

/-- **The current image**, through the overlay. -/
theorem Backed.read_current (h : Backed R d.log j.toCursor ws) (hmd : j.toMetadata = md)
    {block count : Nat} (hcount : 1 ≤ count) (hrange : block + count ≤ md.blocks) :
    j.read R d block count none = .ok (blocksOf (imageOf d.base ws) block count) := by
  have hr : j.checkRange block count = .ok () := by
    rw [hmd]
    exact Metadata.checkRange_ok.mpr (by omega)
  refine read_of_blocks hr (by simp) fun b => ?_
  have hall : ws.take ws.length = ws := List.take_length
  have howner : j.owner none b = Patch.newest ((ws.take ws.length).map Write.patch) b := by
    rw [hall]
    exact h.overlay b
  have hb := h.readBlock hmd howner
  rwa [hall] at hb

/-- **A point in time**, through the reverse scan. -/
theorem Backed.read_at (h : Backed R d.log j.toCursor ws) (hmd : j.toMetadata = md)
    {block count s : Nat} (hcount : 1 ≤ count) (hrange : block + count ≤ md.blocks)
    (hs : s ≤ ws.length) :
    j.read R d block count (some s) =
      .ok (blocksOf (imageOf d.base (ws.take s)) block count) := by
  have hr : j.checkRange block count = .ok () := by
    rw [hmd]
    exact Metadata.checkRange_ok.mpr (by omega)
  have hlast : j.lastSequence = ws.length := by
    rw [DurableJournal.lastSequence, h.sequence, Nat.add_sub_cancel]
  refine read_of_blocks hr ?_ fun b => ?_
  · intro s' hs'
    cases hs'
    rw [hlast]
    omega
  · exact h.readBlock hmd (h.scanBack s b)

end Backed

end AegisShield
