/-
# Compaction, step by step

`compact` first makes a bundle of the journal under `snapshots/`, then writes the current image to
`base.img.new`, and then replaces two files, one after the other: `base.img` by the new image, and
`journal.jsonl` by an empty log.  A power cut can fall between any two of these steps, and inside
any of the writes (`interrupted`).

Only the two replacements touch a file that an opening reads, so a cut leaves one of three
directories (`Shape`): the one before, the one after, or the NEW base under the OLD log.  The third
still has the current image, because applying a history of writes twice is applying it once
(`compaction_keeps_image`).  It does not have the past: a block that no write had reached by
sequence `s` is looked up in the base, and that is already the image of the last one
(`interrupted_history_kept_iff`).
-/
import AegisShield.Journal.Refinement

namespace AegisShield

open Lib

/-! ## 1. The steps -/

/-- A directory under `snapshots/` while its files are copied. -/
structure Bundle where
  metadata : Option Bytes
  base : Option Bytes
  log : Option Bytes
  deriving DecidableEq, Repr

/-- A namespace directory, with what a compaction has in the making. -/
structure Site extends Root where
  bundle : Option (String × Bundle)
  /-- `base.img.new`. -/
  baseNew : Option Bytes
  /-- `journal.jsonl.new`. -/
  logNew : Option Bytes

/-- A directory in which nothing is in the making. -/
def Site.of (r : Root) : Site := ⟨r, none, none, none⟩

/-- A durable step of `compact`. -/
inductive CompactStep
  /-- `snapshots/<name>` is created. -/
  | makeBundle (name : String)
  | copyMetadata (bytes : Bytes)
  | copyBase (bytes : Bytes)
  | copyLog (bytes : Bytes)
  /-- The bundle is synced, and its files are there to stay. -/
  | syncBundle
  /-- `base.img.new` is created, or emptied. -/
  | createBase
  /-- One chunk goes to `base.img.new`. -/
  | writeBase (bytes : Bytes)
  /-- `base.img.new` becomes `base.img`. -/
  | replaceBase
  /-- An empty `journal.jsonl.new` is written. -/
  | createLog
  /-- `journal.jsonl.new` becomes `journal.jsonl`. -/
  | replaceLog
  deriving DecidableEq, Repr

/-- A file of the bundle in the making. -/
def Site.inBundle (s : Site) (f : Bundle → Bundle) : Site :=
  { s with bundle := s.bundle.map fun b => (b.1, f b.2) }

namespace CompactStep

/-- What a step does to the directory. -/
def apply : CompactStep → Site → Site
  | .makeBundle name, s => { s with bundle := some (name, ⟨none, none, none⟩) }
  | .copyMetadata bytes, s => s.inBundle fun b => { b with metadata := some bytes }
  | .copyBase bytes, s => s.inBundle fun b => { b with base := some bytes }
  | .copyLog bytes, s => s.inBundle fun b => { b with log := some bytes }
  | .syncBundle, s =>
    match s.bundle with
    | some (name, ⟨some metadata, some base, some log⟩) =>
      { s with bundle := none, snapshots := (name, ⟨metadata, base, log, []⟩) :: s.snapshots }
    | _ => s
  | .createBase, s => { s with baseNew := some [] }
  | .writeBase bytes, s => { s with baseNew := s.baseNew.map (· ++ bytes) }
  | .replaceBase, s => { s with base := s.baseNew.getD s.base, baseNew := none }
  | .createLog, s => { s with logNew := some [] }
  | .replaceLog, s => { s with log := s.logNew.getD s.log, logNew := none }

/-- What is there of a step that was cut: some of the bytes of a file.  Creating a directory or a
file and renaming one happen or do not. -/
def cut (n : Nat) : CompactStep → Option CompactStep
  | .copyMetadata bytes => some (.copyMetadata (bytes.take n))
  | .copyBase bytes => some (.copyBase (bytes.take n))
  | .copyLog bytes => some (.copyLog (bytes.take n))
  | .writeBase bytes => some (.writeBase (bytes.take n))
  | _ => none

end CompactStep

/-- The directory after a list of steps. -/
def Site.after (s : Site) (steps : List CompactStep) : Site := steps.foldl (fun s c => c.apply s) s

/-- The steps that a power cut lets happen: the first `k`, and perhaps `n` bytes of the next. -/
def interrupted (steps : List CompactStep) (k : Nat) (n : Option Nat) : List CompactStep :=
  steps.take k ++ ((n.bind fun n => steps[k]?.bind (CompactStep.cut n))).toList

namespace DurableJournal

/-- The chunks `compact` reads, in the order in which it writes them. -/
def imageParts (R : Runtime) (j : DurableJournal) (d : Dir) : Except Raised (List Bytes) :=
  (chunks j.blocks).mapM fun c => j.read R d c.1 c.2 none

/-- The steps before anything that an opening reads is touched. -/
def bundleSteps (r : Root) (name : String) (parts : List Bytes) : List CompactStep :=
  [.makeBundle name, .copyMetadata r.metadata, .copyBase r.base, .copyLog r.log, .syncBundle,
    .createBase] ++ parts.map CompactStep.writeBase

/-- The durable steps of a `compact` that returns. -/
def compactSteps (R : Runtime) (j : DurableJournal) (r : Root) (snapshotName : String) :
    Except Raised (List CompactStep) := do
  let r' ← j.snapshot R r snapshotName none
  let parts ← j.imageParts R r'.toDir
  return bundleSteps r snapshotName parts ++ [.replaceBase, .createLog, .replaceLog]

end DurableJournal

/-! ## 2. What the steps do -/

section Steps

variable {s : Site}

/-- A step that leaves the files alone that an opening reads. -/
def CompactStep.Quiet : CompactStep → Prop
  | .replaceBase => False
  | .replaceLog => False
  | _ => True

theorem CompactStep.Quiet.toDir_apply {c : CompactStep} (h : c.Quiet) (s : Site) :
    (c.apply s).toDir = s.toDir := by
  cases c with
  | replaceBase => exact h.elim
  | replaceLog => exact h.elim
  | syncBundle =>
    rw [apply]
    split <;> rfl
  | _ => rfl

theorem Site.toDir_after {steps : List CompactStep} (h : ∀ c ∈ steps, c.Quiet) (s : Site) :
    (s.after steps).toDir = s.toDir := by
  induction steps generalizing s with
  | nil => rfl
  | cons c steps ih =>
    have hc : c.Quiet := h c List.mem_cons_self
    have hrest := ih (fun c hc => h c (List.mem_cons_of_mem _ hc)) (c.apply s)
    exact hrest.trans (hc.toDir_apply s)

theorem Site.after_append (s : Site) (as bs : List CompactStep) :
    s.after (as ++ bs) = (s.after as).after bs := List.foldl_append

theorem CompactStep.Quiet.cut {c c' : CompactStep} {n : Nat} (h : c.cut n = some c') : c'.Quiet := by
  cases c with
  | copyMetadata | copyBase | copyLog | writeBase =>
    cases h
    trivial
  | _ => cases h

theorem quiet_bundleSteps (r : Root) (name : String) (parts : List Bytes) :
    ∀ c ∈ DurableJournal.bundleSteps r name parts, c.Quiet := by
  intro c hc
  rcases List.mem_append.mp hc with hc | hc
  · simp only [List.mem_cons, List.not_mem_nil, or_false] at hc
    rcases hc with rfl | rfl | rfl | rfl | rfl | rfl <;> trivial
  · obtain ⟨part, -, rfl⟩ := List.mem_map.mp hc
    trivial

/-- The chunks add up in `base.img.new`. -/
theorem Site.after_writeBase (parts : List Bytes) : ∀ (s : Site) (bytes : Bytes),
    s.baseNew = some bytes →
      s.after (parts.map CompactStep.writeBase) =
        { s with baseNew := some (bytes ++ parts.flatten) } := by
  induction parts with
  | nil =>
    intro s bytes h
    simp [Site.after, ← h]
  | cons part parts ih =>
    intro s bytes h
    have hstep : (CompactStep.writeBase part).apply s = { s with baseNew := some (bytes ++ part) } := by
      simp [CompactStep.apply, h]
    have hrest := ih { s with baseNew := some (bytes ++ part) } (bytes ++ part) rfl
    have hcons : s.after ((part :: parts).map CompactStep.writeBase) =
        ((CompactStep.writeBase part).apply s).after (parts.map CompactStep.writeBase) := rfl
    rw [hcons, hstep, hrest, List.flatten_cons, List.append_assoc]

/-- The directory once the bundle is kept and the image is written. -/
theorem Site.after_bundleSteps (r : Root) (name : String) (parts : List Bytes) :
    (Site.of r).after (DurableJournal.bundleSteps r name parts) =
      ⟨{ r with snapshots := (name, ⟨r.metadata, r.base, r.log, []⟩) :: r.snapshots }, none,
        some parts.flatten, none⟩ := by
  rw [DurableJournal.bundleSteps, Site.after_append, Site.after_writeBase parts _ [] rfl]
  rfl

end Steps

/-! ## 3. The three directories -/

section Shapes

variable {R : Runtime} {md : Metadata} {ws : List (Write md)} {j : DurableJournal} {r : Root}
  {name : String}

/-- The image a compaction writes. -/
def newBase (base : Bytes) (ws : List (Write md)) : Bytes := blocksOf (imageOf base ws) 0 md.blocks

/-- The files between the two replacements: the new image under the old log. -/
def halfCompacted (d : Dir) (ws : List (Write md)) : Dir := { d with base := newBase d.base ws }

/-- What a power cut leaves: which of the two replacements has happened. -/
inductive Shape (d : Dir) (ws : List (Write md)) (done : List CompactStep) : Dir → Prop
  | before (hb : CompactStep.replaceBase ∉ done) (hl : CompactStep.replaceLog ∉ done) :
    Shape d ws done d
  | between (hb : CompactStep.replaceBase ∈ done) (hl : CompactStep.replaceLog ∉ done) :
    Shape d ws done (halfCompacted d ws)
  | after (hb : CompactStep.replaceBase ∈ done) (hl : CompactStep.replaceLog ∈ done) :
    Shape d ws done { d with base := newBase d.base ws, log := [] }

theorem Canonical.imageParts (h : Canonical R ws j r.toDir) :
    ∃ parts, j.imageParts R r.toDir = .ok parts ∧ parts.flatten = newBase r.base ws := by
  obtain ⟨parts, hparts, hflat⟩ := bind_eq_ok.mp h.materialise
  exact ⟨parts, hparts, Except.ok.inj hflat⟩

/-- The steps of a compaction under a valid, unused name. -/
theorem Canonical.compactSteps (h : Canonical R ws j r.toDir) (hname : ValidName name)
    (hnew : name ∉ r.snapshots.map Prod.fst) :
    ∃ parts, j.compactSteps R r name = .ok (DurableJournal.bundleSteps r name parts ++
      [.replaceBase, .createLog, .replaceLog]) ∧ parts.flatten = newBase r.base ws := by
  obtain ⟨parts, hparts, hflat⟩ := h.imageParts
  refine ⟨parts, ?_, hflat⟩
  exact bind_eq_ok.mpr ⟨_, h.snapshot hname hnew, bind_eq_ok.mpr ⟨parts, hparts, rfl⟩⟩

theorem not_mem_of_quiet {steps : List CompactStep} (h : ∀ c ∈ steps, c.Quiet) :
    CompactStep.replaceBase ∉ steps ∧ CompactStep.replaceLog ∉ steps :=
  ⟨fun hm => h _ hm, fun hm => h _ hm⟩

/-- A cut falls before the replacements, or behind some of them. -/
theorem interrupted_cases (pre : List CompactStep) (k : Nat) (n : Option Nat) :
    let steps := pre ++ [.replaceBase, .createLog, .replaceLog]
    (∃ c : Option CompactStep, (∀ c' ∈ c, c'.Quiet) ∧
      interrupted steps k n = pre.take k ++ c.toList) ∨
    ∃ i, interrupted steps k n = pre ++ [.replaceBase, .createLog, .replaceLog].take (i + 1) := by
  intro steps
  rcases Nat.lt_or_ge pre.length k with hk | hk
  · obtain ⟨i, rfl⟩ : ∃ i, k = pre.length + (i + 1) := ⟨k - pre.length - 1, by omega⟩
    -- none of the steps behind the first replacement is one that can be cut
    have hget : ∀ m, steps[pre.length + (i + 1)]?.bind (CompactStep.cut m) = none := by
      intro m
      rw [List.getElem?_append_right (by omega), Nat.add_sub_cancel_left]
      match i with
      | 0 => rfl
      | 1 => rfl
      | i + 2 => rfl
    have hnone : (n.bind fun m => steps[pre.length + (i + 1)]?.bind (CompactStep.cut m)) = none := by
      cases n with
      | none => rfl
      | some m => exact hget m
    refine Or.inr ⟨i, ?_⟩
    rw [interrupted, hnone, Option.toList_none, List.append_nil, List.take_append,
      List.take_of_length_le (by omega), Nat.add_sub_cancel_left]
  · refine Or.inl ⟨n.bind fun m => steps[k]?.bind (CompactStep.cut m), ?_, ?_⟩
    · intro c hc
      obtain ⟨m, -, hc⟩ := Option.bind_eq_some_iff.mp hc
      obtain ⟨c', -, hc⟩ := Option.bind_eq_some_iff.mp hc
      exact CompactStep.Quiet.cut hc
    · rw [interrupted, List.take_append_of_le_length hk]

/-- **A power cut leaves one of the three directories.** -/
theorem shape_interrupted (r : Root) (name : String) {parts : List Bytes}
    (hflat : parts.flatten = newBase r.base ws) (k : Nat) (n : Option Nat) {done : List CompactStep}
    (hdone : done = interrupted (DurableJournal.bundleSteps r name parts ++
      [.replaceBase, .createLog, .replaceLog]) k n) :
    Shape r.toDir ws done ((Site.of r).after done).toDir := by
  have hquiet := quiet_bundleSteps r name parts
  have hafter := Site.after_bundleSteps r name parts
  rw [hflat] at hafter
  rcases interrupted_cases (DurableJournal.bundleSteps r name parts) k n with ⟨c, hc, h⟩ | ⟨i, h⟩
  · have hq : ∀ c' ∈ done, c'.Quiet := by
      rw [hdone, h]
      intro c' hc'
      rcases List.mem_append.mp hc' with hm | hm
      · exact hquiet c' (List.mem_of_mem_take hm)
      · exact hc c' (Option.mem_toList.mp hm)
    have hdir : ((Site.of r).after done).toDir = r.toDir := Site.toDir_after hq _
    rw [hdir]
    exact .before (not_mem_of_quiet hq).1 (not_mem_of_quiet hq).2
  · have hpre := (not_mem_of_quiet hquiet).2
    rw [hdone, h, Site.after_append, hafter]
    match i with
    | 0 => exact .between (by simp) (by simp [hpre])
    | 1 => exact .between (by simp) (by simp [hpre])
    | i + 2 =>
      rw [List.take_of_length_le (by simp)]
      exact .after (by simp) (by simp)

theorem length_newBase (h : Canonical R ws j r.toDir) :
    (newBase r.base ws).length = md.blocks * md.blockSize :=
  length_flatten_blocks _ 0 md.blocks fun _ _ hi => length_imageOf h.size ws (by omega)

/-- The new base holds the current image. -/
theorem blockOf_newBase (h : Canonical R ws j r.toDir) {b : Nat} (hb : b < md.blocks) :
    blockOf md.blockSize (newBase r.base ws) b = imageOf r.base ws b := by
  have hblock := blockOf_flatten (imageOf r.base ws) 0 md.blocks b
    (fun _ _ hi => length_imageOf h.size ws (by omega)) hb
  rw [Nat.zero_add] at hblock
  exact hblock

theorem Canonical.half (h : Canonical R ws j r.toDir) : Canonical R ws j (halfCompacted r.toDir ws) :=
  ⟨h.metadata, h.cursor, h.file, length_newBase h, h.log⟩

/-- The writes that are still in the log. -/
def remaining (done : List CompactStep) (ws : List (Write md)) : List (Write md) :=
  if CompactStep.replaceLog ∈ done then [] else ws

theorem Canonical.reopened {d : Dir} (h : Canonical R ws j d) :
    Canonical R ws ⟨md, j.toCursor, none⟩ d :=
  ⟨rfl, h.cursor, h.file, h.size, h.log⟩

/-- **Each of the three opens**, with the writes that remain. -/
theorem Shape.init {d : Dir} {done : List CompactStep} (hs : Shape r.toDir ws done d)
    (h : Canonical R ws j r.toDir) :
    ∃ fresh, DurableJournal.init R d = .ok (fresh, d) ∧ Canonical R (remaining done ws) fresh d := by
  have hj : ∃ j', Canonical R (remaining done ws) j' d := by
    cases hs with
    | before _ hl => exact ⟨j, by rw [remaining, if_neg hl]; exact h⟩
    | between _ hl =>
      refine ⟨j, ?_⟩
      rw [remaining, if_neg hl]
      exact h.half
    | after _ hl =>
      refine ⟨j.reset, ?_⟩
      rw [remaining, if_pos hl]
      exact ⟨h.metadata, rfl, h.file, length_newBase h, rfl⟩
  obtain ⟨j', hc⟩ := hj
  exact ⟨_, hc.init, hc.reopened⟩

/-- **The current image is the same in all three.** -/
theorem Shape.image {d : Dir} {done : List CompactStep} (hs : Shape r.toDir ws done d)
    (h : Canonical R ws j r.toDir) {b : Nat} (hb : b < md.blocks) :
    imageOf d.base (remaining done ws) b = imageOf r.base ws b := by
  cases hs with
  | before _ hl => rw [remaining, if_neg hl]
  | between _ hl =>
    rw [remaining, if_neg hl]
    exact (Patch.patched_congr (blockOf_newBase h hb) _).trans (Patch.patched_patched _ _ _)
  | after _ hl =>
    rw [remaining, if_pos hl]
    exact blockOf_newBase h hb

theorem Canonical.read_current {d : Dir} (h : Canonical R ws j d) {b c : Nat} (hc : 1 ≤ c)
    (hb : b + c ≤ md.blocks) : j.read R d b c none = .ok (blocksOf (imageOf d.base ws) b c) :=
  h.backed.read_current h.metadata hc hb

/-- What a reopening reads after a power cut. -/
theorem Shape.read_current {d : Dir} {done : List CompactStep} (hs : Shape r.toDir ws done d)
    (h : Canonical R ws j r.toDir) {fresh : DurableJournal}
    (hf : Canonical R (remaining done ws) fresh d) {b c : Nat} (hc : 1 ≤ c)
    (hb : b + c ≤ md.blocks) : fresh.read R d b c none = j.read R r.toDir b c none := by
  rw [hf.read_current hc hb, h.read_current hc hb,
    blocksOf_congr fun i _ hi => hs.image h (by omega)]

end Shapes

/-! ## 4. The current image -/

section Image

variable {R : Runtime} {md : Metadata} {ws : List (Write md)} {j : DurableJournal} {r : Root}
  {name : String}

/-- All steps together are `compact`. -/
theorem Canonical.after_compactSteps (h : Canonical R ws j r.toDir) (hname : ValidName name)
    (hnew : name ∉ r.snapshots.map Prod.fst) :
    ∃ steps r', j.compactSteps R r name = .ok steps ∧ j.compact R r name = .ok (j.reset, r') ∧
      (Site.of r).after steps = Site.of r' ∧ Canonical R ([] : List (Write md)) j.reset r'.toDir ∧
      (name, ⟨r.metadata, r.base, r.log, []⟩) ∈ r'.snapshots := by
  obtain ⟨parts, hsteps, hflat⟩ := h.compactSteps hname hnew
  have hafter : (Site.of r).after (DurableJournal.bundleSteps r name parts ++
      [.replaceBase, .createLog, .replaceLog]) =
      Site.of ⟨⟨r.metadata, newBase r.base ws, [], r.torn⟩,
        (name, ⟨r.metadata, r.base, r.log, []⟩) :: r.snapshots⟩ := by
    rw [Site.after_append, Site.after_bundleSteps, hflat]
    rfl
  refine ⟨_, _, hsteps, ?_, hafter, ⟨h.metadata, rfl, h.file, length_newBase h, rfl⟩,
    List.mem_cons_self⟩
  exact bind_eq_ok.mpr ⟨_, h.snapshot hname hnew, bind_eq_ok.mpr ⟨_, h.materialise, rfl⟩⟩

/-- The bundle opens to the journal as it was. -/
theorem Canonical.init_bundle (h : Canonical R ws j r.toDir) (htail : j.recoveredTail = none) :
    DurableJournal.init R ⟨r.metadata, r.base, r.log, []⟩ =
      .ok (j, ⟨r.metadata, r.base, r.log, []⟩) := by
  have hcopy : Canonical R ws j ⟨r.metadata, r.base, r.log, []⟩ :=
    ⟨h.metadata, h.cursor, h.file, h.size, h.log⟩
  exact hcopy.init_live htail

end Image

/-- **Compaction preserves the current image at every crash point.**  After any calls, a compaction
under a valid, unused name can be cut anywhere: the directory opens, and every range reads as it
did before.  Once it has returned, a fresh opening computes the object in memory, the sequence is
back to 0, and the bundle opens to the journal as it was and reads like it at every sequence. -/
theorem compaction_keeps_image (R : Runtime) {blocks blockSize : Nat} {deviceId : String} {d : Dir}
    (hp : provision R blocks blockSize deviceId = .ok d) (calls : List JournalCall) {name : String}
    (hname : ValidName name) :
    ∃ j, DurableJournal.init R d = .ok (j, d) ∧
      let s := calls.foldl (JournalCall.run R) (j, ⟨d, []⟩)
      (name ∉ s.2.snapshots.map Prod.fst →
        ∃ steps j' r', s.1.compactSteps R s.2 name = .ok steps ∧
          s.1.compact R s.2 name = .ok (j', r') ∧ (Site.of s.2).after steps = Site.of r' ∧
          (∀ k n, let site := (Site.of s.2).after (interrupted steps k n)
            ∃ fresh, DurableJournal.init R site.toDir = .ok (fresh, site.toDir) ∧
              ∀ b c : Nat, 1 ≤ c → b + c ≤ blocks → ∃ bytes,
                s.1.read R s.2.toDir b c none = .ok bytes ∧
                  fresh.read R site.toDir b c none = .ok bytes) ∧
          DurableJournal.init R r'.toDir = .ok (j', r'.toDir) ∧ j'.lastSequence = 0 ∧
          ∃ bundle, (name, bundle) ∈ r'.snapshots ∧
            DurableJournal.init R bundle = .ok (s.1, bundle) ∧
            ∀ b c q, s.1.read R bundle b c q = s.1.read R s.2.toDir b c q) := by
  refine ⟨_, (provision_canonical hp).init, ?_⟩
  have href := run_simulation (fun s a call => Refines.step s a call) (Refines.start hp) calls
  intro s hnew
  obtain ⟨ws, h, htail, -⟩ := href
  obtain ⟨steps, r', hsteps, hcompact, hafter, hc', hmem⟩ := h.after_compactSteps hname hnew
  refine ⟨steps, s.1.reset, r', hsteps, hcompact, hafter, ?_, hc'.init_live htail, rfl, _, hmem,
    h.init_bundle htail, fun b c q => rfl⟩
  intro k n site
  obtain ⟨parts, hparts, hflat⟩ := h.compactSteps hname hnew
  obtain rfl := Except.ok.inj (hsteps.symm.trans hparts)
  -- a cut leaves one of three shapes, and all of them open to the same image
  have hs := shape_interrupted s.2 name hflat k n rfl
  obtain ⟨fresh, hinit, hf⟩ := hs.init h
  refine ⟨fresh, hinit, fun b c hc hb => ⟨_, h.read_current hc hb, ?_⟩⟩
  exact (hs.read_current h hf hc hb).trans (h.read_current hc hb)

theorem not_mem_of_no_snapshots {r : Root} (h : r.snapshots = []) (name : String) :
    name ∉ r.snapshots.map Prod.fst := by
  rw [h]
  simp

theorem blockOf_replicate (size n b : Nat) (byte : UInt8) (h : (b + 1) * size ≤ n) :
    blockOf size (List.replicate n byte) b = List.replicate size byte := by
  rw [Nat.add_mul, Nat.one_mul] at h
  rw [blockOf, List.drop_replicate, List.take_replicate, Nat.min_eq_left (by omega)]

theorem imageOf_fill {md : Metadata} (base : Bytes) (start : Nat) (byte : UInt8)
    (hsize : 0 < md.blockSize) (h : start < md.blocks) :
    imageOf base [Write.fill start byte hsize h] start = List.replicate md.blockSize byte := by
  have hcovers : (Write.fill start byte hsize h).patch.Covers start := by
    have hcount := Write.count_fill start byte hsize h
    exact ⟨Nat.le_refl _, by
      change start < start + (Write.fill start byte hsize h).count
      omega⟩
  change Patch.overwrite _ (Write.fill start byte hsize h).patch start = _
  rw [Patch.overwrite, if_pos hcovers]
  simp [Write.patch, Write.fill]

theorem compaction_keeps_image_four_blocks : ∃ d j,
    provision Runtime.reference 4 512 "dev" = .ok d ∧
      DurableJournal.init Runtime.reference d = .ok (j, d) ∧
      let s := [.append 1 (List.replicate 512 7)].foldl (JournalCall.run Runtime.reference)
        (j, ⟨d, []⟩)
      (ValidName "a" ∧ "a" ∉ s.2.snapshots.map Prod.fst) ∧
        ∃ j' r', s.1.compact Runtime.reference s.2 "a" = .ok (j', r') ∧ j'.lastSequence = 0 := by
  obtain ⟨d, j, hd, hj, -, -, hnone⟩ := sevens_written
  have hnew := not_mem_of_no_snapshots hnone "a"
  obtain ⟨j₁, hj₁, h⟩ := compaction_keeps_image Runtime.reference hd
    [.append 1 (List.replicate 512 7)] (by decide : ValidName "a")
  obtain rfl : j = j₁ := congrArg Prod.fst (Except.ok.inj (hj.symm.trans hj₁))
  obtain ⟨steps, j', r', -, hc, -, -, -, hl, -⟩ := h hnew
  exact ⟨d, j, hd, hj, ⟨by decide, hnew⟩, j', r', hc, hl⟩

/-! ## 5. The past -/

section History

variable {R : Runtime} {md : Metadata} {ws : List (Write md)} {j : DurableJournal} {r : Root}

/-- **What an interrupted compaction must not do**: once the directory is reopened as `fresh`, every
sequence it accepts reads as it did for `j`, except that a log that was reset has the last image
alone. -/
def HistoryKept (R : Runtime) (j : DurableJournal) (before : Dir) (fresh : DurableJournal)
    (after : Dir) : Prop :=
  ∀ q ≤ fresh.lastSequence, ∀ b c : Nat, 1 ≤ c → b + c ≤ j.blocks →
    fresh.read R after b c (some q) =
      j.read R before b c (if after.log = [] then none else some q)

/-- The last image is the one the base holds. -/
def ImageIsBase (R : Runtime) (j : DurableJournal) (d : Dir) : Prop :=
  ∀ b < j.blocks, j.read R d b 1 none = j.read R d b 1 (some 0)

theorem Canonical.read_at {d : Dir} (h : Canonical R ws j d) {b c q : Nat} (hc : 1 ≤ c)
    (hb : b + c ≤ md.blocks) (hq : q ≤ ws.length) :
    j.read R d b c (some q) = .ok (blocksOf (imageOf d.base (ws.take q)) b c) :=
  h.backed.read_at h.metadata hc hb hq

/-- Two readings of one log show the same images. -/
theorem Canonical.image_of_log {d : Dir} {ws' : List (Write md)} (h : Canonical R ws j d)
    (hlog : d.log = logOf R ws') {b c q : Nat} (hc : 1 ≤ c) (hb : b + c ≤ md.blocks)
    (hq : q ≤ ws.length) (hq' : q ≤ ws'.length) :
    blocksOf (imageOf d.base (ws'.take q)) b c = blocksOf (imageOf d.base (ws.take q)) b c :=
  Except.ok.inj (((h.of_log hlog).read_at hc hb hq').symm.trans (h.read_at hc hb hq))

theorem imageOf_take_zero (base : Bytes) (ws : List (Write md)) :
    imageOf base (ws.take 0) = blockOf md.blockSize base := rfl

theorem blocksOf_one (image : Nat → Bytes) (b : Nat) : blocksOf image b 1 = image b := by
  simp [blocksOf]

theorem Canonical.imageIsBase_iff (h : Canonical R ws j r.toDir) :
    ImageIsBase R j r.toDir ↔ ∀ b < md.blocks, imageOf r.base ws b = blockOf md.blockSize r.base b := by
  have hread : ∀ b < md.blocks, (j.read R r.toDir b 1 none = j.read R r.toDir b 1 (some 0) ↔
      imageOf r.base ws b = blockOf md.blockSize r.base b) := by
    intro b hb
    have h0 := h.read_at (b := b) (c := 1) (q := 0) (Nat.le_refl 1) hb (Nat.zero_le _)
    have h1 := h.read_current (b := b) (c := 1) (Nat.le_refl 1) hb
    rw [Nat.cast_one, blocksOf_one] at h0 h1
    have hcast : ((0 : Nat) : Int) = 0 := rfl
    rw [hcast] at h0
    rw [h0, h1]
    exact ⟨fun he => Except.ok.inj he, congrArg Except.ok⟩
  have hblocks : j.blocks = md.blocks := congrArg Metadata.blocks h.metadata
  rw [ImageIsBase, hblocks]
  exact forall₂_congr hread

theorem logOf_ne_nil {ws : List (Write md)} (h : ws ≠ []) : logOf R ws ≠ [] := by
  obtain ⟨vs, w, rfl⟩ := List.eq_nil_or_concat ws |>.resolve_left h
  rw [List.concat_eq_append, logOf_concat]
  intro hnil
  exact (w.isLine _).ne_nil (List.append_eq_nil_iff.mp hnil).2

/-- A canonical log is empty only if there is no write in it. -/
theorem Canonical.log_eq_nil {d : Dir} (h : Canonical R ws j d) : d.log = [] ↔ ws = [] := by
  rw [h.log]
  constructor
  · intro hnil
    by_contra hne
    exact logOf_ne_nil hne hnil
  · rintro rfl
    rfl

/-- The images decide it. -/
theorem HistoryKept.of_images {vs : List (Write md)} {d : Dir} {fresh : DurableJournal}
    (h : Canonical R ws j r.toDir) (hf : Canonical R vs fresh d)
    (hlen : d.log ≠ [] → vs.length ≤ ws.length)
    (himage : ∀ q ≤ vs.length, ∀ b < md.blocks, imageOf d.base (vs.take q) b =
      if d.log = [] then imageOf r.base ws b else imageOf r.base (ws.take q) b) :
    HistoryKept R j r.toDir fresh d := by
  intro q hq b c hc hb
  have hblocks : j.blocks = md.blocks := congrArg Metadata.blocks h.metadata
  rw [hf.lastSequence] at hq
  rw [hblocks] at hb
  rw [hf.read_at hc hb hq]
  by_cases hlog : d.log = []
  · rw [if_pos hlog, h.read_current hc hb,
      blocksOf_congr fun i _ hi => (himage q hq i (by omega)).trans (if_pos hlog)]
  · rw [if_neg hlog, h.read_at hc hb (Nat.le_trans hq (hlen hlog)),
      blocksOf_congr fun i _ hi => (himage q hq i (by omega)).trans (if_neg hlog)]

/-- At sequence 0 a reopening reads the base alone. -/
theorem HistoryKept.imageIsBase {d : Dir} {fresh : DurableJournal} (h : Canonical R ws j r.toDir)
    (hf : Canonical R ws fresh d)
    (himage : ∀ b < md.blocks, blockOf md.blockSize d.base b = imageOf r.base ws b)
    (hkept : HistoryKept R j r.toDir fresh d) : ImageIsBase R j r.toDir := by
  intro b hb
  have hblocks : j.blocks = md.blocks := congrArg Metadata.blocks h.metadata
  rw [hblocks] at hb
  have hfresh : fresh.read R d b (1 : Nat) (some (0 : Nat)) = .ok (imageOf r.base ws b) := by
    rw [hf.read_at (Nat.le_refl 1) hb (Nat.zero_le _), blocksOf_one, ← himage b hb]
    rfl
  have hcurrent : j.read R r.toDir b (1 : Nat) none = .ok (imageOf r.base ws b) := by
    rw [h.read_current (Nat.le_refl 1) hb, blocksOf_one]
  have hsame := hkept 0 (Nat.zero_le _) b 1 (Nat.le_refl 1) (by omega)
  by_cases hlog : d.log = []
  · -- there is no write, and both sides read the base
    obtain rfl := hf.log_eq_nil.mp hlog
    have h0 := h.read_at (q := 0) (Nat.le_refl 1) hb (Nat.zero_le _)
    rw [blocksOf_one] at h0
    exact hcurrent.trans h0.symm
  · rw [if_neg hlog] at hsame
    exact hcurrent.trans (hfresh.symm.trans hsame)

/-- **When the past is kept**, for a directory of one of the three shapes. -/
theorem Shape.historyKept_iff {d : Dir} {done : List CompactStep} (hs : Shape r.toDir ws done d)
    (h : Canonical R ws j r.toDir) {fresh : DurableJournal}
    (hf : Canonical R (remaining done ws) fresh d) :
    HistoryKept R j r.toDir fresh d ↔
      ((CompactStep.replaceBase ∈ done → CompactStep.replaceLog ∈ done) ∨
        ImageIsBase R j r.toDir) := by
  cases hs with
  | before hb hl =>
    rw [remaining, if_neg hl] at hf
    refine ⟨fun _ => Or.inl fun hb' => absurd hb' hb, fun _ => ?_⟩
    -- neither file is replaced: the log replays over its own base
    refine HistoryKept.of_images h hf (fun _ => Nat.le_refl _) fun q _ b _ => ?_
    split
    · rename_i hlog
      obtain rfl := h.log_eq_nil.mp hlog
      rw [List.take_nil]
    · rfl
  | between hb hl =>
    rw [remaining, if_neg hl] at hf
    constructor
    · -- the old log over the new base: sequence 0 already has the writes
      intro hkept
      exact Or.inr (hkept.imageIsBase h hf fun b hb => blockOf_newBase h hb)
    · rintro (himp | hbase)
      · exact absurd (himp hb) hl
      · have himage := h.imageIsBase_iff.mp hbase
        refine HistoryKept.of_images h hf (fun _ => Nat.le_refl _) fun q _ b hb => ?_
        have hsame : imageOf (newBase r.base ws) (ws.take q) b = imageOf r.base (ws.take q) b :=
          Patch.patched_congr ((blockOf_newBase h hb).trans (himage b hb)) _
        split
        · rename_i hlog
          obtain rfl := h.log_eq_nil.mp hlog
          rw [List.take_nil] at hsame ⊢
          exact hsame
        · exact hsame
  | after hb hl =>
    rw [remaining, if_pos hl] at hf
    refine ⟨fun _ => Or.inl fun _ => hl, fun _ => ?_⟩
    -- an empty log over the new base
    refine HistoryKept.of_images h hf (fun hne => absurd rfl hne) fun q _ b hb => ?_
    rw [if_pos rfl, List.take_nil]
    exact blockOf_newBase h hb

end History

/-- **When an interrupted compaction keeps the past.**  After any calls and a power cut anywhere in
a compaction under a valid, unused name, the directory opens; every sequence the reopened journal
accepts reads as before if and only if the cut does not fall between the two replacements, or the
compaction had nothing to materialise. -/
theorem interrupted_history_kept_iff (R : Runtime) {blocks blockSize : Nat} {deviceId : String}
    {d : Dir} (hp : provision R blocks blockSize deviceId = .ok d) (calls : List JournalCall)
    {name : String} (hname : ValidName name) :
    ∃ j, DurableJournal.init R d = .ok (j, d) ∧
      let s := calls.foldl (JournalCall.run R) (j, ⟨d, []⟩)
      (name ∉ s.2.snapshots.map Prod.fst →
        ∃ steps, s.1.compactSteps R s.2 name = .ok steps ∧
          ∀ k n, let done := interrupted steps k n
            let site := (Site.of s.2).after done
            ∃ fresh, DurableJournal.init R site.toDir = .ok (fresh, site.toDir) ∧
              (HistoryKept R s.1 s.2.toDir fresh site.toDir ↔
                ((.replaceBase ∈ done → .replaceLog ∈ done) ∨ ImageIsBase R s.1 s.2.toDir))) := by
  refine ⟨_, (provision_canonical hp).init, ?_⟩
  have href := run_simulation (fun s a call => Refines.step s a call) (Refines.start hp) calls
  intro s hnew
  obtain ⟨ws, h, -⟩ := href
  obtain ⟨parts, hsteps, hflat⟩ := h.compactSteps hname hnew
  refine ⟨_, hsteps, fun k n => ?_⟩
  have hs := shape_interrupted s.2 name hflat k n rfl
  obtain ⟨fresh, hinit, hf⟩ := hs.init h
  exact ⟨fresh, hinit, hs.historyKept_iff h hf⟩

/-- A cut before the last two steps leaves them. -/
theorem Canonical.cut_between {R : Runtime} {md : Metadata} {ws : List (Write md)}
    {j : DurableJournal} {r : Root} {name : String} (h : Canonical R ws j r.toDir)
    (hname : ValidName name) (hnew : name ∉ r.snapshots.map Prod.fst) :
    ∃ steps, j.compactSteps R r name = .ok steps ∧
      ((Site.of r).after (interrupted steps (steps.length - 2) none)).toDir = halfCompacted r.toDir ws := by
  obtain ⟨parts, hsteps, hflat⟩ := h.compactSteps hname hnew
  refine ⟨_, hsteps, ?_⟩
  have hafter := Site.after_bundleSteps r name parts
  generalize DurableJournal.bundleSteps r name parts = pre at *
  have hlen : (pre ++ [CompactStep.replaceBase, .createLog, .replaceLog]).length - 2 =
      pre.length + 1 := by
    rw [List.length_append]
    rfl
  have hdone : interrupted (pre ++ [.replaceBase, .createLog, .replaceLog]) (pre.length + 1) none =
      pre ++ [.replaceBase] := by
    rw [interrupted, List.take_append, List.take_of_length_le (by omega), Nat.add_sub_cancel_left]
    simp
  rw [hlen, hdone, Site.after_append, hafter, hflat]
  rfl

/-- **A compaction that is cut between the two replacements rewrites history.**  Block 1 was zeros
at sequence 0; the reopened journal still has sequence 0, and there it reads the write that came
after it. -/
theorem interrupted_compaction_rewrites_history : ∃ d j steps fresh,
    provision Runtime.reference 4 512 "dev" = .ok d ∧
      DurableJournal.init Runtime.reference d = .ok (j, d) ∧
      let s := [.append 1 (List.replicate 512 7)].foldl (JournalCall.run Runtime.reference)
        (j, ⟨d, []⟩)
      ValidName "a" ∧ "a" ∉ s.2.snapshots.map Prod.fst ∧
        s.1.compactSteps Runtime.reference s.2 "a" = .ok steps ∧
        let site := (Site.of s.2).after (interrupted steps (steps.length - 2) none)
        DurableJournal.init Runtime.reference site.toDir = .ok (fresh, site.toDir) ∧
          fresh.lastSequence = 1 ∧ site.log ≠ [] ∧
          fresh.read Runtime.reference site.toDir 1 1 (some 0) = .ok (List.replicate 512 7) ∧
          s.1.read Runtime.reference s.2.toDir 1 1 (some 0) = .ok (List.replicate 512 0) := by
  obtain ⟨d, j, hd, hj, h, hbase, hnone⟩ := sevens_written
  have hnew := not_mem_of_no_snapshots hnone "a"
  obtain ⟨steps, hsteps, hsite⟩ := h.cut_between (by decide : ValidName "a") hnew
  generalize hs : [JournalCall.append 1 (List.replicate 512 7)].foldl
    (JournalCall.run Runtime.reference) (j, ⟨d, []⟩) = s at *
  refine ⟨d, j, steps, ⟨⟨"dev", 4, 512⟩, s.1.toCursor, none⟩, hd, hj, ?_⟩
  simp only [hs, hsite]
  refine ⟨by decide, hnew, hsteps, ?_⟩
  refine ⟨h.half.init, h.half.reopened.lastSequence, ?_, ?_, ?_⟩
  · exact fun hlog => absurd (h.half.log_eq_nil.mp hlog) (by simp)
  · have hread := h.half.reopened.read_at (b := 1) (c := 1) (q := 0) (Nat.le_refl 1) (by decide)
      (Nat.zero_le _)
    refine hread.trans (congrArg Except.ok ?_)
    rw [blocksOf_one]
    -- at sequence 0 the reopened journal shows the new base, which has the write in it
    have hblock := blockOf_newBase h (b := 1) (by decide)
    exact hblock.trans (imageOf_fill _ 1 7 (by decide) (by decide))
  · have hread := h.read_at (b := 1) (c := 1) (q := 0) (Nat.le_refl 1) (by decide) (Nat.zero_le _)
    refine hread.trans (congrArg Except.ok ?_)
    rw [blocksOf_one, imageOf_take_zero, hbase]
    exact blockOf_replicate 512 2048 1 0 (by decide)

theorem interrupted_history_kept_iff_four_blocks : ∃ d j,
    provision Runtime.reference 4 512 "dev" = .ok d ∧
      DurableJournal.init Runtime.reference d = .ok (j, d) ∧
      let s := [.append 1 (List.replicate 512 7)].foldl (JournalCall.run Runtime.reference)
        (j, ⟨d, []⟩)
      (ValidName "a" ∧ "a" ∉ s.2.snapshots.map Prod.fst) ∧
        ∃ steps fresh, s.1.compactSteps Runtime.reference s.2 "a" = .ok steps ∧
          let site := (Site.of s.2).after (interrupted steps 0 none)
          DurableJournal.init Runtime.reference site.toDir = .ok (fresh, site.toDir) ∧
            HistoryKept Runtime.reference s.1 s.2.toDir fresh site.toDir := by
  obtain ⟨d, j, hd, hj, -, -, hnone⟩ := sevens_written
  have hnew := not_mem_of_no_snapshots hnone "a"
  obtain ⟨j', hj', h⟩ := interrupted_history_kept_iff Runtime.reference hd
    [.append 1 (List.replicate 512 7)] (by decide : ValidName "a")
  obtain rfl : j = j' := congrArg Prod.fst (Except.ok.inj (hj.symm.trans hj'))
  obtain ⟨steps, hsteps, hcut⟩ := h hnew
  obtain ⟨fresh, hfresh, hiff⟩ := hcut 0 none
  refine ⟨d, j, hd, hj, ⟨by decide, hnew⟩, steps, fresh, hsteps, hfresh, hiff.mpr (Or.inl ?_)⟩
  intro hmem
  simp [interrupted] at hmem

end AegisShield
