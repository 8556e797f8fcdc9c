/-
# The journal refines a block array, and replay reconstructs it

`BlockArray` is what the journal is for: a base image, the patches since the last compaction in
order, and the names of the snapshots taken.  Every run of `append` and `compact` on a provisioned
journal follows the same run of the block array (`Refines.step`), and the two main results read
off what that says about the code:

* `read_refines_block_array`: both lookup paths of `read` return the array's blocks, now and after
  any number of the appends;
* `reopen_reconstructs_live`: a fresh opening computes the object that is already in memory.
-/
import AegisShield.Journal.CleanRun
import AegisShield.Lib.Run

namespace AegisShield

open Lib

/-! ## 1. The abstract array -/

/-- A call on a journal. -/
inductive JournalCall
  | append (startBlock : Int) (data : Bytes)
  | compact (snapshotName : String)
  deriving DecidableEq, Repr

/-- A block array with its history since the last compaction. -/
structure BlockArray where
  base : Nat → Bytes
  appends : List (Patch Bytes)
  /-- The snapshot names that are taken. -/
  names : List String

/-- The patch of a write, if it is one the array takes. -/
def patchOf (md : Metadata) (startBlock : Int) (data : Bytes) : Option (Patch Bytes) :=
  if data ≠ [] ∧ data.length % md.blockSize = 0 ∧ 0 ≤ startBlock ∧
      startBlock + (data.length / md.blockSize : Nat) ≤ md.blocks then
    some { start := startBlock.toNat
           count := data.length / md.blockSize
           content := fun b =>
             (data.drop ((b - startBlock.toNat) * md.blockSize)).take md.blockSize }
  else none

namespace BlockArray

/-- The image after the first `n` appends since the last compaction. -/
def image (a : BlockArray) (n : Nat) : Nat → Bytes := Patch.patched a.base (a.appends.take n)

/-- What a call does to the array. -/
def step (md : Metadata) (a : BlockArray) : JournalCall → BlockArray
  | .append startBlock data =>
    match patchOf md startBlock data with
    | some p => { a with appends := a.appends ++ [p] }
    | none => a
  | .compact name =>
    if ValidName name ∧ name ∉ a.names then
      ⟨a.image a.appends.length, [], name :: a.names⟩
    else a

end BlockArray

/-! ## 2. The code's runs -/

/-- A call on an open journal.  A call that raises does so before it touches object or files. -/
def JournalCall.run (R : Runtime) (s : DurableJournal × Root) : JournalCall → DurableJournal × Root
  | .append startBlock data =>
    match s.1.append R s.2.toDir startBlock data with
    | .ok (_, j, d) => (j, { s.2 with toDir := d })
    | .error _ => s
  | .compact name =>
    match s.1.compact R s.2 name with
    | .ok s' => s'
    | .error _ => s

/-! ## 3. The simulation -/

section Refines

variable (R : Runtime) (md : Metadata)

/-- The object and the files are those of some writes, and the array has the same ones. -/
def Refines (s : DurableJournal × Root) (a : BlockArray) : Prop :=
  ∃ ws : List (Write md), Canonical R ws s.1 s.2.toDir ∧ s.1.recoveredTail = none ∧
    a.appends = ws.map Write.patch ∧ a.names = s.2.snapshots.map Prod.fst ∧
    ∀ b < md.blocks, a.base b = blockOf md.blockSize s.2.base b

variable {R md}

theorem patchOf_write (w : Write md) : patchOf md w.start w.data = some w.patch := by
  have h : w.start + w.data.length / md.blockSize ≤ md.blocks := w.inRange
  rw [patchOf, if_pos ⟨w.nonempty, w.aligned, by omega, by omega⟩]
  rfl

theorem patchOf_inv {start : Int} {data : Bytes} {p : Patch Bytes}
    (h : patchOf md start data = some p) : ∃ w : Write md, start = w.start ∧ data = w.data := by
  rw [patchOf] at h
  split at h
  · rename_i hc
    obtain ⟨h1, h2, h3, h4⟩ := hc
    have hstart : start = (start.toNat : Int) := by omega
    exact ⟨⟨start.toNat, data, h1, h2, by omega⟩, hstart, rfl⟩
  · cases h

theorem Refines.append {s : DurableJournal × Root} {a : BlockArray} (h : Refines R md s a)
    (start : Int) (data : Bytes) :
    Refines R md ((JournalCall.append start data).run R s)
      (a.step md (.append start data)) := by
  obtain ⟨ws, hc, ht, happ, hnames, hbase⟩ := h
  by_cases hw : ∃ w : Write md, start = w.start ∧ data = w.data
  · obtain ⟨w, rfl, rfl⟩ := hw
    obtain ⟨j', d', hrun, hc', ht', hb'⟩ := hc.append w
    rw [JournalCall.run, hrun, BlockArray.step, patchOf_write]
    refine ⟨ws ++ [w], hc', ht'.trans ht, ?_, hnames, ?_⟩
    · rw [List.map_append, happ, List.map_singleton]
    · intro b hb
      rw [hbase b hb]
      exact congrArg (fun base => blockOf md.blockSize base b) hb'.symm
  · -- both sides refuse the write
    have hrefused : ∃ e, s.1.append R s.2.toDir start data = .error e := by
      cases hr : s.1.append R s.2.toDir start data with
      | error e => exact ⟨e, rfl⟩
      | ok r => exact absurd (hc.append_inv hr) hw
    have hnone : patchOf md start data = none := by
      cases hp : patchOf md start data with
      | none => rfl
      | some p => exact absurd (patchOf_inv hp) hw
    obtain ⟨e, he⟩ := hrefused
    rw [JournalCall.run, he, BlockArray.step, hnone]
    exact ⟨ws, hc, ht, happ, hnames, hbase⟩

/-- The array's image and the files' image agree on the namespace. -/
theorem image_eq {a : BlockArray} {ws : List (Write md)} {base : Bytes}
    (happ : a.appends = ws.map Write.patch)
    (hbase : ∀ b < md.blocks, a.base b = blockOf md.blockSize base b) (n : Nat) {b : Nat}
    (hb : b < md.blocks) : a.image n b = imageOf base (ws.take n) b := by
  rw [BlockArray.image, imageOf, happ, List.map_take]
  exact Patch.patched_congr (hbase b hb) _

theorem Refines.compact {s : DurableJournal × Root} {a : BlockArray} (h : Refines R md s a)
    (name : String) :
    Refines R md ((JournalCall.compact name).run R s) (a.step md (.compact name)) := by
  obtain ⟨ws, hc, ht, happ, hnames, hbase⟩ := h
  by_cases hn : ValidName name ∧ name ∉ s.2.snapshots.map Prod.fst
  · obtain ⟨r', hrun, hc', hnames', himage⟩ := hc.compact hn.1 hn.2
    rw [JournalCall.run, hrun, BlockArray.step, if_pos (by rw [hnames]; exact hn)]
    refine ⟨[], hc', ht, rfl, ?_, ?_⟩
    · rw [hnames', hnames]
    · intro b hb
      have hall : ws.take a.appends.length = ws := by
        rw [happ, List.length_map, List.take_length]
      have hcur := image_eq happ hbase a.appends.length hb
      rw [hall] at hcur
      rw [himage b hb]
      exact hcur
  · have hrefused : ∃ e, s.1.compact R s.2 name = .error e := by
      cases hr : s.1.compact R s.2 name with
      | error e => exact ⟨e, rfl⟩
      | ok p => exact absurd (compact_inv hr) hn
    obtain ⟨e, he⟩ := hrefused
    rw [JournalCall.run, he, BlockArray.step, if_neg (by rw [hnames]; exact hn)]
    exact ⟨ws, hc, ht, happ, hnames, hbase⟩

/-- **Every call keeps the simulation.** -/
theorem Refines.step (s : DurableJournal × Root) (a : BlockArray) (call : JournalCall)
    (h : Refines R md s a) : Refines R md (call.run R s) (a.step md call) := by
  cases call with
  | append start data => exact h.append start data
  | compact name => exact h.compact name

theorem Refines.start {blocks blockSize : Nat} {deviceId : String} {d : Dir}
    (h : provision R blocks blockSize deviceId = .ok d) :
    Refines R ⟨deviceId, blocks, blockSize⟩
      (⟨⟨deviceId, blocks, blockSize⟩, Cursor.empty, none⟩, ⟨d, []⟩)
      ⟨blockOf blockSize d.base, [], []⟩ :=
  ⟨[], provision_canonical h, rfl, rfl, rfl, fun _ _ => rfl⟩

theorem blocksOf_congr {image image' : Nat → Bytes} {block count : Nat}
    (h : ∀ b, block ≤ b → b < block + count → image b = image' b) :
    blocksOf image block count = blocksOf image' block count := by
  rw [blocksOf, blocksOf]
  refine congrArg List.flatten (List.map_congr_left fun b hb => ?_)
  obtain ⟨h1, h2⟩ := List.mem_range'_1.mp hb
  exact h b h1 h2

/-- What `read` returns is the array's. -/
theorem Refines.read {s : DurableJournal × Root} {a : BlockArray} (h : Refines R md s a)
    {b n : Nat} (hn : 1 ≤ n) (hb : b + n ≤ md.blocks) :
    s.1.lastSequence = a.appends.length ∧
      s.1.read R s.2.toDir b n none = .ok (blocksOf (a.image a.appends.length) b n) ∧
      ∀ k ≤ a.appends.length,
        s.1.read R s.2.toDir b n (some k) = .ok (blocksOf (a.image k) b n) := by
  obtain ⟨ws, hc, -, happ, -, hbase⟩ := h
  have hlen : a.appends.length = ws.length := by rw [happ, List.length_map]
  have himage : ∀ k, blocksOf (imageOf s.2.base (ws.take k)) b n = blocksOf (a.image k) b n :=
    fun k => blocksOf_congr fun c _ hc => (image_eq happ hbase k (by omega)).symm
  refine ⟨?_, ?_, ?_⟩
  · rw [hlen]
    exact hc.lastSequence
  · have h1 := himage ws.length
    rw [List.take_length] at h1
    rw [hlen, ← h1]
    exact hc.backed.read_current hc.metadata hn hb
  · intro k hk
    rw [← himage k]
    exact hc.backed.read_at hc.metadata hn hb (hlen ▸ hk)

/-- A fresh opening computes the object in memory. -/
theorem Refines.reopen {s : DurableJournal × Root} {a : BlockArray} (h : Refines R md s a) :
    DurableJournal.init R s.2.toDir = .ok (s.1, s.2.toDir) ∧ s.1.recoveredTail = none := by
  obtain ⟨ws, hc, htail, -⟩ := h
  exact ⟨hc.init_live htail, htail⟩

end Refines

/-! ## 4. Main results -/

/-- **The offset-indexed journal refines a block array with history.**  Whatever the calls, `read`
returns the array's current blocks, `read` at a sequence returns them after that many appends
since the last compaction, and the two lookup paths agree at the last sequence. -/
theorem read_refines_block_array (R : Runtime) {blocks blockSize : Nat} {deviceId : String}
    {d : Dir} (hp : provision R blocks blockSize deviceId = .ok d) (calls : List JournalCall) :
    ∃ j, DurableJournal.init R d = .ok (j, d) ∧
      let s := calls.foldl (JournalCall.run R) (j, ⟨d, []⟩)
      let a := calls.foldl (BlockArray.step ⟨deviceId, blocks, blockSize⟩)
        ⟨blockOf blockSize d.base, [], []⟩
      s.1.lastSequence = a.appends.length ∧
        ∀ b n : Nat, 1 ≤ n → b + n ≤ blocks →
          s.1.read R s.2.toDir b n none = .ok (blocksOf (a.image a.appends.length) b n) ∧
          (∀ k ≤ s.1.lastSequence,
            s.1.read R s.2.toDir b n (some k) = .ok (blocksOf (a.image k) b n)) ∧
          s.1.read R s.2.toDir b n (some s.1.lastSequence) = s.1.read R s.2.toDir b n none := by
  refine ⟨_, (provision_canonical hp).init, ?_⟩
  have h := run_simulation (fun s a call => Refines.step s a call) (Refines.start hp) calls
  have hlast : ∀ s a, Refines R ⟨deviceId, blocks, blockSize⟩ s a →
      s.1.lastSequence = a.appends.length := by
    rintro s a ⟨ws, hc, -, happ, -⟩
    rw [hc.lastSequence, happ, List.length_map]
  refine ⟨hlast _ _ h, fun b n hn hb => ?_⟩
  obtain ⟨hl, hcur, hat⟩ := h.read hn hb
  refine ⟨hcur, fun k hk => hat k (hl ▸ hk), ?_⟩
  rw [hl]
  exact (hat _ (Nat.le_refl _)).trans hcur.symm

theorem read_refines_block_array_four_blocks : ∃ d j,
    provision Runtime.reference 4 512 "dev" = .ok d ∧
      DurableJournal.init Runtime.reference d = .ok (j, d) ∧
      let calls := [.append 1 (List.replicate 512 7), .compact "a"]
      let s := calls.foldl (JournalCall.run Runtime.reference) (j, ⟨d, []⟩)
      let a := calls.foldl (BlockArray.step ⟨"dev", 4, 512⟩) ⟨blockOf 512 d.base, [], []⟩
      s.1.read Runtime.reference s.2.toDir 0 4 none =
        .ok (blocksOf (a.image a.appends.length) 0 4) := by
  obtain ⟨d, hd⟩ := provision_four_blocks
  obtain ⟨j, hj, -, hread⟩ := read_refines_block_array Runtime.reference hd
    [.append 1 (List.replicate 512 7), .compact "a"]
  exact ⟨d, j, hd, hj, (hread 0 4 (by decide) (by decide)).1⟩

/-- **Replay reconstructs exactly the live journal.**  After any calls, a fresh opening of the
directory succeeds without touching it, reports no recovered tail, holds the same index, overlay,
hash, sequence and size, and appends the same bytes. -/
theorem reopen_reconstructs_live (R : Runtime) {blocks blockSize : Nat} {deviceId : String}
    {d : Dir} (hp : provision R blocks blockSize deviceId = .ok d) (calls : List JournalCall) :
    ∃ j, DurableJournal.init R d = .ok (j, d) ∧
      let s := calls.foldl (JournalCall.run R) (j, ⟨d, []⟩)
      ∃ fresh, DurableJournal.init R s.2.toDir = .ok (fresh, s.2.toDir) ∧
        fresh.recoveredTail = none ∧
        fresh.index = s.1.index ∧ fresh.overlay = s.1.overlay ∧ fresh.lastHash = s.1.lastHash ∧
        fresh.nextSequence = s.1.nextSequence ∧ fresh.logSize = s.1.logSize ∧
        ∀ start data, fresh.append R s.2.toDir start data = s.1.append R s.2.toDir start data := by
  refine ⟨_, (provision_canonical hp).init, ?_⟩
  have h := run_simulation (fun s a call => Refines.step s a call) (Refines.start hp) calls
  obtain ⟨hinit, htail⟩ := h.reopen
  exact ⟨_, hinit, htail, rfl, rfl, rfl, rfl, rfl, fun _ _ => rfl⟩

theorem reopen_reconstructs_live_four_blocks : ∃ d j,
    provision Runtime.reference 4 512 "dev" = .ok d ∧
      DurableJournal.init Runtime.reference d = .ok (j, d) ∧
      let s := [.append 1 (List.replicate 512 7), .append 0 (List.replicate 1024 9)].foldl
        (JournalCall.run Runtime.reference) (j, ⟨d, []⟩)
      ∃ fresh, DurableJournal.init Runtime.reference s.2.toDir = .ok (fresh, s.2.toDir) ∧
        fresh.index = s.1.index := by
  obtain ⟨d, hd⟩ := provision_four_blocks
  obtain ⟨j, hj, fresh, hfresh, -, hindex, -⟩ := reopen_reconstructs_live Runtime.reference hd
    [.append 1 (List.replicate 512 7), .append 0 (List.replicate 1024 9)]
  exact ⟨d, j, hd, hj, fresh, hfresh, hindex⟩

/-! ## 5. A journal with one write -/

/-- One block of sevens. -/
def sevens : Write ⟨"dev", 4, 512⟩ := Write.fill 1 7 (by decide) (by decide)

/-- The same block, of nines. -/
def nines : Write ⟨"dev", 4, 512⟩ := Write.fill 1 9 (by decide) (by decide)

theorem sevens_written : ∃ d j, provision Runtime.reference 4 512 "dev" = .ok d ∧
    DurableJournal.init Runtime.reference d = .ok (j, d) ∧
    let s := [.append 1 (List.replicate 512 7)].foldl (JournalCall.run Runtime.reference)
      (j, ⟨d, []⟩)
    Canonical Runtime.reference [sevens] s.1 s.2.toDir ∧ s.2.base = List.replicate 2048 0 ∧
      s.2.snapshots = [] := by
  obtain ⟨d, hd⟩ := provision_four_blocks
  have hc := provision_canonical hd
  obtain ⟨j', d', hrun, hc', -, hbase⟩ := hc.append sevens
  have hd0 : d.base = List.replicate 2048 0 := by
    rw [provision, if_neg (by decide)] at hd
    rw [← Except.ok.inj hd]
  have hstep : (JournalCall.append 1 (List.replicate 512 7)).run Runtime.reference
      (⟨⟨"dev", 4, 512⟩, Cursor.empty, none⟩, ⟨d, []⟩) = (j', ⟨d', []⟩) := by
    have hrun' : DurableJournal.append Runtime.reference ⟨⟨"dev", 4, 512⟩, Cursor.empty, none⟩ d 1
        (List.replicate 512 7) = .ok (0 + 1, j', d') := hrun
    rw [JournalCall.run, hrun']
  refine ⟨d, _, hd, hc.init, ?_⟩
  rw [List.foldl_cons, List.foldl_nil, hstep]
  exact ⟨hc', hbase.trans hd0, rfl⟩

end AegisShield
