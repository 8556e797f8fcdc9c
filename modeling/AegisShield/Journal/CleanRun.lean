/-
# Crash-free journals

`Canonical ws j d`: the object `j` and the files `d` are exactly what the accepted writes `ws`
leave behind.  Provisioning establishes it with no writes, `append` adds one write to the list,
and `compact` materialises the image and starts over with none.  Everything `read` returns and
everything a fresh opening computes is then a function of `ws` and the base image.
-/
import AegisShield.Journal.Reading

namespace AegisShield

open Lib

section CleanRun

variable (R : Runtime) {md : Metadata}

/-! ## 1. The invariant -/

/-- The object and the files are those of the writes `ws`. -/
structure Canonical (ws : List (Write md)) (j : DurableJournal) (d : Dir) : Prop where
  metadata : j.toMetadata = md
  cursor : j.toCursor = cursorOf R ws
  file : d.metadata = md.file R
  size : d.base.length = md.blocks * md.blockSize
  log : d.log = logOf R ws

variable {R}

/-- A log backs its own cursor, whatever stands behind its records. -/
theorem backed_logOf (ws : List (Write md)) :
    ∀ tail : Bytes, Backed R (logOf R ws ++ tail) (cursorOf R ws) ws := by
  induction ws using List.reverseRecOn with
  | nil => exact fun tail => Backed.empty _
  | append_singleton ws w ih =>
    intro tail
    rw [logOf_concat, cursorOf_concat, List.append_assoc]
    refine (ih (w.line R (cursorOf R ws) ++ tail)).enter ?_
    rw [logSize_cursorOf, List.drop_left, (w.isLine _).readline_append]
    exact w.loads_line _

theorem Canonical.backed {ws : List (Write md)} {j : DurableJournal} {d : Dir}
    (h : Canonical R ws j d) : Backed R d.log j.toCursor ws := by
  have hb := backed_logOf (R := R) ws []
  rw [List.append_nil, ← h.log, ← h.cursor] at hb
  exact hb

theorem Canonical.lastSequence {ws : List (Write md)} {j : DurableJournal} {d : Dir}
    (h : Canonical R ws j d) : j.lastSequence = ws.length := by
  rw [DurableJournal.lastSequence, h.backed.sequence, Nat.add_sub_cancel]

/-! ## 2. Opening -/

/-- Replay of a complete log. -/
theorem replayLines_logOf (ws : List (Write md)) (fileSize : Nat) :
    replayLines R .off md fileSize Cursor.empty 1 (splitLines (logOf R ws)) =
      .ok (cursorOf R ws, none) := by
  have h := replayLines_log (R := R) ws [] fileSize
  rw [List.append_nil] at h
  exact h

/-- **Replay reconstructs the cursor.** -/
theorem Canonical.init {ws : List (Write md)} {j : DurableJournal} {d : Dir}
    (h : Canonical R ws j d) :
    DurableJournal.init R d = .ok (⟨md, j.toCursor, none⟩, d) := by
  rw [h.cursor]
  refine init_clean h.file h.size ?_
  rw [h.log]
  exact replayLines_logOf ws _

/-- The log alone says how the journal is canonical. -/
theorem Canonical.of_log {ws ws' : List (Write md)} {j : DurableJournal} {d : Dir}
    (h : Canonical R ws j d) (hlog : d.log = logOf R ws') : Canonical R ws' j d := by
  have h' : Canonical R ws' ⟨md, cursorOf R ws', none⟩ d := ⟨rfl, rfl, h.file, h.size, hlog⟩
  have hsame := Except.ok.inj (h.init.symm.trans h'.init)
  exact ⟨h.metadata, congrArg (fun r => r.1.toCursor) hsame, h.file, h.size, hlog⟩

/-- A fresh opening computes the object in memory. -/
theorem Canonical.init_live {ws : List (Write md)} {j : DurableJournal} {d : Dir}
    (h : Canonical R ws j d) (htail : j.recoveredTail = none) :
    DurableJournal.init R d = .ok (j, d) := by
  have hsame : (⟨md, j.toCursor, none⟩ : DurableJournal) = j := by
    rw [← h.metadata, ← htail]
  rw [h.init, hsame]

/-- A freshly provisioned directory opens, as an empty journal. -/
theorem provision_canonical {blocks blockSize : Nat} {deviceId : String} {d : Dir}
    (h : provision R blocks blockSize deviceId = .ok d) :
    Canonical R ([] : List (Write ⟨deviceId, blocks, blockSize⟩))
      ⟨⟨deviceId, blocks, blockSize⟩, Cursor.empty, none⟩ d := by
  rw [provision] at h
  split at h
  · cases h
  · cases h
    exact ⟨rfl, rfl, rfl, List.length_replicate, rfl⟩

theorem provision_blockSize {blocks blockSize : Nat} {deviceId : String} {d : Dir}
    (h : provision R blocks blockSize deviceId = .ok d) : 0 < blockSize := by
  unfold provision at h
  split at h
  · cases h
  · omega

theorem provision_four_blocks : ∃ d, provision Runtime.reference 4 512 "dev" = .ok d := ⟨_, rfl⟩

/-! ## 3. Appending -/

/-- The directory with one more record in the log. -/
def Dir.extend (d : Dir) (bytes : Bytes) : Dir := { d with log := d.log ++ bytes }

theorem Canonical.prepare {ws : List (Write md)} {j : DurableJournal} {d : Dir}
    (h : Canonical R ws j d) (w : Write md) :
    j.prepare R w.start w.data =
      .ok (w.line R (cursorOf R ws), ⟨md, (cursorOf R ws).advance R w, j.recoveredTail⟩) := by
  obtain ⟨jmd, cur, tail⟩ := j
  obtain rfl : jmd = md := h.metadata
  obtain rfl : cur = cursorOf R ws := h.cursor
  exact prepare_write _ tail w

/-- **An accepted append adds its write.** -/
theorem Canonical.append {ws : List (Write md)} {j : DurableJournal} {d : Dir}
    (h : Canonical R ws j d) (w : Write md) :
    ∃ j' d', j.append R d w.start w.data = .ok (ws.length + 1, j', d') ∧
      Canonical R (ws ++ [w]) j' d' ∧ j'.recoveredTail = j.recoveredTail ∧ d'.base = d.base := by
  have hseq : j.nextSequence = ws.length + 1 := h.backed.sequence
  refine ⟨⟨md, (cursorOf R ws).advance R w, j.recoveredTail⟩,
    d.extend (w.line R (cursorOf R ws)), ?_, ?_, rfl, rfl⟩
  · rw [DurableJournal.append, bind_of_ok (h.prepare w), hseq]
    rfl
  · refine ⟨rfl, (cursorOf_concat ws w).symm, h.file, h.size, ?_⟩
    rw [Dir.extend, logOf_concat, ← h.log]

/-- Any other append is refused. -/
theorem Canonical.append_inv {ws : List (Write md)} {j : DurableJournal} {d : Dir}
    (h : Canonical R ws j d) {start : Int} {data : Bytes} {r : Nat × DurableJournal × Dir}
    (hr : j.append R d start data = .ok r) : ∃ w : Write md, start = w.start ∧ data = w.data := by
  obtain ⟨jmd, cur, tail⟩ := j
  obtain rfl : jmd = md := h.metadata
  obtain ⟨a, ha, -⟩ := bind_eq_ok.mp hr
  exact prepare_inv ha

/-! ## 4. Compaction -/

/-- A name `snapshot` accepts. -/
def ValidName (name : String) : Prop :=
  name ≠ "" ∧ ∀ c ∈ name.toList, DurableJournal.nameChar c = true

instance (name : String) : Decidable (ValidName name) :=
  @instDecidableAnd _ _ inferInstance (List.decidableBAll _ name.toList)

theorem ValidName.not_refused {name : String} (h : ValidName name) :
    ¬ (name = "" ∨ name.toList.any (fun c => !DurableJournal.nameChar c) = true) := by
  rintro (he | ha)
  · exact h.1 he
  · obtain ⟨c, hc, hf⟩ := List.any_eq_true.mp ha
    rw [h.2 c hc] at hf
    cases hf

/-- The check for a name that is taken. -/
theorem any_snapshots_iff {r : Root} {name : String} :
    (r.snapshots.any fun s => s.1 = name) = true ↔ name ∈ r.snapshots.map Prod.fst := by
  rw [List.any_eq_true, List.mem_map]
  exact exists_congr fun s => and_congr_right fun _ => decide_eq_true_iff

/-- A whole snapshot succeeds under a valid, unused name, and nothing but the snapshot changes. -/
theorem Canonical.snapshot {ws : List (Write md)} {j : DurableJournal} {r : Root}
    (h : Canonical R ws j r.toDir) {name : String} (hname : ValidName name)
    (hnew : name ∉ r.snapshots.map Prod.fst) :
    j.snapshot R r name none =
      .ok { r with snapshots := (name, ⟨r.metadata, r.base, r.log, []⟩) :: r.snapshots } := by
  have h1 := hname.not_refused
  have h2 := mt any_snapshots_iff.mp hnew
  have hcopy : Canonical R ws j ⟨r.metadata, r.base, r.log, []⟩ :=
    ⟨h.metadata, h.cursor, h.file, h.size, h.log⟩
  rw [DurableJournal.snapshot, if_neg h1, if_neg (by simp), if_neg h2]
  exact bind_eq_ok.mpr ⟨_, rfl, bind_eq_ok.mpr ⟨_, hcopy.init, rfl⟩⟩

theorem flatMap_chunks_aux (size blocks : Nat) : ∀ m : Nat,
    ((List.range m).map fun i => (i * size, min size (blocks - i * size))).flatMap
        (fun c => List.range' c.1 c.2) = List.range' 0 (min (m * size) blocks)
  | 0 => by simp
  | m + 1 => by
    have ih := flatMap_chunks_aux size blocks m
    have hmul : (m + 1) * size = m * size + size := by ring
    rw [List.range_succ, List.map_append, List.flatMap_append, ih, List.map_singleton,
      List.flatMap_singleton, hmul]
    generalize m * size = k
    rcases Nat.le_total k blocks with h | h
    · have h1 : min k blocks = k := Nat.min_eq_left h
      have h2 : min (k + size) blocks = k + min size (blocks - k) := by omega
      have happ := @List.range'_append_1 0 k (min size (blocks - k))
      rw [Nat.zero_add] at happ
      rw [h1, h2]
      exact happ
    · have h1 : min k blocks = blocks := Nat.min_eq_right h
      have h2 : min (k + size) blocks = blocks := by omega
      have h3 : min size (blocks - k) = 0 := by omega
      rw [h1, h2, h3]
      simp

/-- The chunks of a compaction are the blocks, once each and in order. -/
theorem flatMap_chunks (blocks : Nat) :
    (DurableJournal.chunks blocks).flatMap (fun c => List.range' c.1 c.2) =
      List.range' 0 blocks := by
  have h := flatMap_chunks_aux 256 blocks ((blocks + 255) / 256)
  have hmin : min ((blocks + 255) / 256 * 256) blocks = blocks := by omega
  rw [hmin] at h
  exact h

theorem mem_chunks {blocks : Nat} {c : Nat × Nat} (h : c ∈ DurableJournal.chunks blocks) :
    1 ≤ c.2 ∧ c.1 + c.2 ≤ blocks := by
  obtain ⟨i, hi, rfl⟩ := List.mem_map.mp h
  rw [List.mem_range, DurableJournal.compactChunkBlocks] at hi
  simp only [DurableJournal.compactChunkBlocks]
  omega

/-- `base.img.new` holds the current image. -/
theorem Canonical.materialise {ws : List (Write md)} {j : DurableJournal} {d : Dir}
    (h : Canonical R ws j d) :
    j.materialise R d = .ok (blocksOf (imageOf d.base ws) 0 md.blocks) := by
  have hread : ∀ c ∈ DurableJournal.chunks md.blocks,
      j.read R d c.1 c.2 none = .ok (blocksOf (imageOf d.base ws) c.1 c.2) := by
    intro c hc
    obtain ⟨h1, h2⟩ := mem_chunks hc
    exact h.backed.read_current h.metadata h1 h2
  have hflat : ((DurableJournal.chunks md.blocks).map fun c =>
      blocksOf (imageOf d.base ws) c.1 c.2).flatten = blocksOf (imageOf d.base ws) 0 md.blocks := by
    rw [blocksOf, ← flatMap_chunks]
    simp only [blocksOf, List.flatten_eq_flatMap, List.map_flatMap, List.flatMap_map,
      List.flatMap_assoc, id_eq]
  rw [DurableJournal.materialise, h.metadata, bind_of_ok (mapM_of_ok hread), hflat]
  rfl

/-- Every block of an image is a block long. -/
theorem length_imageOf {base : Bytes} (hbase : base.length = md.blocks * md.blockSize)
    (ws : List (Write md)) {b : Nat} (hb : b < md.blocks) :
    (imageOf base ws b).length = md.blockSize := by
  rw [imageOf]
  induction ws using List.reverseRecOn with
  | nil => exact length_blockOf hbase hb
  | append_singleton ws w ih =>
    rw [List.map_append, List.map_singleton, Patch.patched_concat, Patch.overwrite]
    split
    · rename_i hc
      have hc' : w.start ≤ b ∧ b < w.start + w.count := hc
      have hlen := w.length_data
      have hle : (b - w.start + 1) * md.blockSize ≤ w.count * md.blockSize :=
        Nat.mul_le_mul_right _ (by omega)
      rw [Nat.add_mul, Nat.one_mul] at hle
      simp only [Write.patch, List.length_take, List.length_drop, hlen]
      omega
    · exact ih

/-- **A compaction under a valid, unused name keeps the image and forgets the writes.** -/
theorem Canonical.compact {ws : List (Write md)} {j : DurableJournal} {r : Root}
    (h : Canonical R ws j r.toDir) {name : String} (hname : ValidName name)
    (hnew : name ∉ r.snapshots.map Prod.fst) :
    ∃ r', j.compact R r name = .ok (j.reset, r') ∧
      Canonical R ([] : List (Write md)) j.reset r'.toDir ∧
      r'.snapshots.map Prod.fst = name :: r.snapshots.map Prod.fst ∧
      ∀ b < md.blocks, blockOf md.blockSize r'.base b = imageOf r.base ws b := by
  have hlen : ∀ i, 0 ≤ i → i < 0 + md.blocks → (imageOf r.base ws i).length = md.blockSize :=
    fun i _ hi => length_imageOf h.size ws (by omega)
  refine ⟨_, bind_eq_ok.mpr ⟨_, h.snapshot hname hnew, bind_eq_ok.mpr ⟨_, h.materialise, rfl⟩⟩,
    ⟨h.metadata, rfl, h.file, ?_, rfl⟩, rfl, ?_⟩
  · exact length_flatten_blocks _ 0 md.blocks hlen
  · intro b hb
    have hblock := blockOf_flatten (imageOf r.base ws) 0 md.blocks b hlen hb
    rw [Nat.zero_add] at hblock
    exact hblock

/-- Any other snapshot is refused. -/
theorem snapshot_inv {j : DurableJournal} {r r' : Root} {name : String}
    (hs : j.snapshot R r name none = .ok r') : ValidName name ∧ name ∉ r.snapshots.map Prod.fst := by
  rw [DurableJournal.snapshot] at hs
  by_cases h1 : name = "" ∨ name.toList.any (fun c => !DurableJournal.nameChar c) = true
  · rw [if_pos h1] at hs
    cases hs
  rw [if_neg h1, if_neg (by simp)] at hs
  by_cases h2 : r.snapshots.any (fun s => s.1 = name) = true
  · rw [if_pos h2] at hs
    cases hs
  push Not at h1
  refine ⟨⟨h1.1, fun c hc => ?_⟩, mt any_snapshots_iff.mpr h2⟩
  have h3 := List.any_eq_false.mp (Bool.eq_false_iff.mpr h1.2) c hc
  simpa using h3

/-- Any other compaction is refused. -/
theorem compact_inv {j : DurableJournal} {r : Root} {name : String} {p : DurableJournal × Root}
    (h : j.compact R r name = .ok p) : ValidName name ∧ name ∉ r.snapshots.map Prod.fst := by
  obtain ⟨r', hs, -⟩ := bind_eq_ok.mp h
  exact snapshot_inv hs

end CleanRun

end AegisShield
