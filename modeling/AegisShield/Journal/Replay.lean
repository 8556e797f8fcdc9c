/-
# Replay of an arbitrary log

The files before this one look at logs that the program wrote.  Here the log is any byte string.
`_replay` reads it line by line and does one of three things with a line: it skips a blank one, it
takes a record that decodes and passes every check (`Parsed.Checks`), or it stops.  `Replays` is
the relation of the first two, and `replayLines_eq_ok` says what a replay that returns has done:
it took every line, or every line but a last one that does not decode, which it discards.
-/
import AegisShield.Journal.Canonical

namespace AegisShield

open Lib

section Replay

variable (R : Runtime) (lim : Limits) (md : Metadata)

/-! ## 1. One record -/

/-- The integrity checks of `_replay`. -/
structure Parsed.Checks {R : Runtime} (lim : Limits) (md : Metadata) (cur : Cursor) (p : Parsed R) :
    Prop where
  depth : Limits.Admits lim.dumps (PyJson.obj p.value).depth
  hash : FileValue.asStr p.storedHash = some (PyStr.ofString (FileValue.bodyHash R p.value))
  chain : FileValue.asStr p.previousHash = some (PyStr.ofString cur.lastHash)
  sequence : p.sequence = cur.nextSequence
  crc : (crc32 p.data : Int) = p.crc
  blocks : 1 ≤ p.blocks
  size : (p.data.length : Int) = p.blocks * md.blockSize
  range : 0 ≤ p.block ∧ p.block + p.blocks ≤ md.blocks

/-- The cursor behind a record that passed them, on a line of `length` bytes. -/
def Cursor.record {R : Runtime} (cur : Cursor) (p : Parsed R) (length : Nat) : Cursor where
  index := cur.index ++ [⟨cur.nextSequence, p.block.toNat, p.blocks.toNat, cur.logSize,
    R.sha256 (FileValue.canonicalBytes p.value)⟩]
  overlay := coverRange cur.overlay p.block.toNat p.blocks.toNat cur.index.length
  lastHash := FileValue.bodyHash R p.value
  nextSequence := cur.nextSequence + 1
  logSize := cur.logSize + length

variable {R lim md}

theorem Parsed.Checks.checkRange {cur : Cursor} {p : Parsed R} (h : p.Checks lim md cur) :
    md.checkRange p.block p.blocks = .ok () :=
  Metadata.checkRange_ok.mpr ⟨h.range.1, h.blocks, h.range.2⟩

theorem acceptRecord_of_checks {cur : Cursor} {p : Parsed R} (h : p.Checks lim md cur)
    (line length : Nat) : acceptRecord R lim md cur line length p = .ok (cur.record p length) := by
  have hsize : ¬ (p.blocks < 1 ∨ (p.data.length : Int) ≠ p.blocks * md.blockSize) := by
    rintro (hlt | hne)
    · exact absurd h.blocks (by omega)
    · exact hne h.size
  have hdigest : fromHex (FileValue.bodyHash R p.value) =
      some (R.sha256 (FileValue.canonicalBytes p.value)) := fromHex_hex _
  have hhashed : FileValue.hashed R lim p.value = .ok (FileValue.bodyHash R p.value) := if_pos h.depth
  unfold acceptRecord
  rw [hhashed]
  simp only [h.hash, h.chain, h.sequence, h.crc, hsize, h.checkRange, hdigest, ne_eq,
    not_true_eq_false, if_false, Option.elim_some, bind, Except.bind, pure, Except.pure]
  rfl

theorem checks_of_acceptRecord {cur cur' : Cursor} {p : Parsed R} {line length : Nat}
    (h : acceptRecord R lim md cur line length p = .ok cur') : p.Checks lim md cur := by
  obtain ⟨expected, hexpected, h⟩ := bind_eq_ok.mp h
  obtain ⟨hdepth, rfl⟩ := FileValue.hashed_eq_ok.mp hexpected
  simp only [bind, Except.bind, throw, throwThe, MonadExceptOf.throw] at h
  by_cases h1 : FileValue.asStr p.storedHash =
      some (PyStr.ofString (FileValue.bodyHash R p.value))
  case neg =>
    rw [if_pos h1] at h
    cases h
  rw [if_neg (not_not_intro h1)] at h
  by_cases h2 : FileValue.asStr p.previousHash = some (PyStr.ofString cur.lastHash)
  case neg =>
    simp only [if_pos h2] at h
    cases h
  simp only [if_neg (not_not_intro h2)] at h
  by_cases h3 : p.sequence = cur.nextSequence
  case neg =>
    simp only [if_pos h3] at h
    cases h
  simp only [if_neg (not_not_intro h3)] at h
  by_cases h4 : (crc32 p.data : Int) = p.crc
  case neg =>
    simp only [if_pos h4] at h
    cases h
  simp only [if_neg (not_not_intro h4)] at h
  by_cases h5 : p.blocks < 1 ∨ (p.data.length : Int) ≠ p.blocks * md.blockSize
  case pos =>
    simp only [if_pos h5] at h
    cases h
  simp only [if_neg h5] at h
  cases hr : md.checkRange p.block p.blocks with
  | error e =>
    simp only [hr] at h
    cases h
  | ok u =>
    obtain ⟨hb, -, hle⟩ := Metadata.checkRange_ok.mp hr
    push Not at h5
    exact ⟨hdepth, h1, h2, h3, h4, h5.1, h5.2, hb, hle⟩

/-- **A record is taken exactly if every check holds.** -/
theorem acceptRecord_eq_ok {cur cur' : Cursor} {p : Parsed R} {line length : Nat} :
    acceptRecord R lim md cur line length p = .ok cur' ↔ p.Checks lim md cur ∧ cur' = cur.record p length := by
  constructor
  · intro h
    have hc := checks_of_acceptRecord h
    rw [acceptRecord_of_checks hc] at h
    exact ⟨hc, (Except.ok.inj h).symm⟩
  · rintro ⟨hc, rfl⟩
    exact acceptRecord_of_checks hc line length

/-! ## 2. All lines -/

variable (R lim md) in
/-- Replay takes all the lines and moves the cursor. -/
inductive Replays : Cursor → List Bytes → Cursor → Prop
  | nil (cur : Cursor) : Replays cur [] cur
  | blank {cur cur' : Cursor} {raw : Bytes} {rest : List Bytes} (hblank : blank raw = true)
    (h : Replays { cur with logSize := cur.logSize + raw.length } rest cur') :
    Replays cur (raw :: rest) cur'
  | record {cur cur' : Cursor} {raw : Bytes} {rest : List Bytes} {p : Parsed R}
    (hblank : blank raw = false) (hparse : parseRecord R lim raw = some p) (hchecks : p.Checks lim md cur)
    (h : Replays (cur.record p raw.length) rest cur') : Replays cur (raw :: rest) cur'

/-- A line that is not blank and does not decode. -/
def Undecodable (R : Runtime) (lim : Limits) (raw : Bytes) : Prop :=
  blank raw = false ∧ parseRecord R lim raw = none

/-- The cursor ends behind the lines. -/
theorem Replays.logSize {cur cur' : Cursor} {lines : List Bytes} (h : Replays R lim md cur lines cur') :
    cur'.logSize = cur.logSize + lines.flatten.length := by
  induction h with
  | nil => simp
  | blank _ _ ih =>
    simp only [List.flatten_cons, List.length_append] at ih ⊢
    omega
  | record _ _ _ _ ih =>
    simp only [Cursor.record, List.flatten_cons, List.length_append] at ih ⊢
    omega

/-- The lines that are taken are read one after the other, whatever follows them. -/
theorem Replays.replayLines_append {cur cur' : Cursor} {lines : List Bytes}
    (h : Replays R lim md cur lines cur') (fileSize : Nat) (rest : List Bytes) (line : Nat) :
    replayLines R lim md fileSize cur line (lines ++ rest) =
      replayLines R lim md fileSize cur' (line + lines.length) rest := by
  induction h generalizing line with
  | nil => rfl
  | blank hblank _ ih =>
    rw [List.cons_append, replayLines, if_pos hblank, ih, List.length_cons]
    congr 1
    omega
  | record hblank hparse hchecks _ ih =>
    rw [List.cons_append, replayLines, hblank, if_neg (by simp), hparse]
    simp only [acceptRecord_of_checks hchecks, bind, Except.bind]
    rw [ih, List.length_cons]
    congr 1
    omega

theorem Replays.replayLines_eq {cur cur' : Cursor} {lines : List Bytes}
    (h : Replays R lim md cur lines cur') (fileSize line : Nat) :
    replayLines R lim md fileSize cur line lines = .ok (cur', none) := by
  have happ := h.replayLines_append fileSize [] line
  rw [List.append_nil] at happ
  exact happ

/-- Behind them, a last line that does not decode is a torn tail. -/
theorem Replays.replayLines_torn {cur cur' : Cursor} {lines : List Bytes}
    (h : Replays R lim md cur lines cur') {last : Bytes} (hlast : Undecodable R lim last) (line : Nat) :
    replayLines R lim md (cur.logSize + (lines ++ [last]).flatten.length) cur line (lines ++ [last]) =
      .ok (cur', some cur'.logSize) := by
  have hsize : cur.logSize + (lines ++ [last]).flatten.length = cur'.logSize + last.length := by
    rw [h.logSize, List.flatten_append, List.length_append, List.flatten_singleton]
    omega
  rw [h.replayLines_append, replayLines, hlast.1, if_neg (by simp), hlast.2, hsize,
    if_pos (Nat.le_refl _)]

/-- **What a replay that returns has done.** -/
theorem replayLines_inv {fileSize : Nat} : ∀ {lines : List Bytes} {cur cur' : Cursor} {line : Nat}
    {torn : Option Nat}, (∀ l ∈ lines, l ≠ []) → fileSize = cur.logSize + lines.flatten.length →
    replayLines R lim md fileSize cur line lines = .ok (cur', torn) →
    (torn = none ∧ Replays R lim md cur lines cur') ∨
      ∃ pre last, lines = pre ++ [last] ∧ Replays R lim md cur pre cur' ∧ Undecodable R lim last ∧
        torn = some cur'.logSize
  | [], cur, cur', line, torn, _, _, h => by
    rw [replayLines] at h
    cases h
    exact Or.inl ⟨rfl, .nil _⟩
  | raw :: rest, cur, cur', line, torn, hne, hsize, h => by
    have hrest : ∀ l ∈ rest, l ≠ [] := fun l hl => hne l (List.mem_cons_of_mem _ hl)
    rw [List.flatten_cons, List.length_append] at hsize
    rw [replayLines] at h
    split at h
    · rename_i hblank
      rcases replayLines_inv hrest (by simp only; omega) h with ⟨ht, hr⟩ | ⟨pre, last, rfl, hr, hl, ht⟩
      · exact Or.inl ⟨ht, .blank hblank hr⟩
      · exact Or.inr ⟨raw :: pre, last, rfl, .blank hblank hr, hl, ht⟩
    · rename_i hblank
      have hblank' : blank raw = false := by simpa using hblank
      split at h
      · rename_i hparse
        split at h
        · rename_i hle
          -- the end of the file is reached, so there is no line behind this one
          have hnil : rest.flatten = [] := by
            rw [← List.length_eq_zero_iff]
            omega
          have hempty : rest = [] := by
            cases rest with
            | nil => rfl
            | cons l ls =>
              rw [List.flatten_cons] at hnil
              exact absurd (List.append_eq_nil_iff.mp hnil).1 (hrest l List.mem_cons_self)
          cases h
          subst hempty
          exact Or.inr ⟨[], raw, rfl, .nil _, ⟨hblank', hparse⟩, rfl⟩
        · cases h
      · rename_i p hparse
        obtain ⟨cur₁, haccept, h⟩ := bind_eq_ok.mp h
        obtain ⟨hchecks, rfl⟩ := acceptRecord_eq_ok.mp haccept
        have hsize' : fileSize = (cur.record p raw.length).logSize + rest.flatten.length := by
          simp only [Cursor.record]
          omega
        rcases replayLines_inv hrest hsize' h with ⟨ht, hr⟩ | ⟨pre, last, rfl, hr, hl, ht⟩
        · exact Or.inl ⟨ht, .record hblank' hparse hchecks hr⟩
        · exact Or.inr ⟨raw :: pre, last, rfl, .record hblank' hparse hchecks hr, hl, ht⟩

/-! ## 3. Opening -/

/-- The object that a replay with this result makes, and the directory it leaves. -/
def openedAs (md : Metadata) (cur : Cursor) (d : Dir) : Option Nat → DurableJournal × Dir
  | none => (⟨md, cur, none⟩, d)
  | some offset =>
    (⟨md, cur, some (discardTornTail d offset "incomplete final record").1⟩,
      (discardTornTail d offset "incomplete final record").2)

theorem initUnder_eq_ok {d : Dir} {r : DurableJournal × Dir} :
    DurableJournal.initUnder lim R d = .ok r ↔
      ∃ md cur torn, Metadata.read R d.metadata = .ok md ∧
        d.base.length = md.blocks * md.blockSize ∧
        replayLines R lim md d.log.length Cursor.empty 1 (splitLines d.log) = .ok (cur, torn) ∧
        r = openedAs md cur d torn := by
  constructor
  · intro h
    obtain ⟨md, hmd, h⟩ := bind_eq_ok.mp h
    by_cases hb : d.base.length = md.blocks * md.blockSize
    · rw [if_neg (not_not_intro hb)] at h
      obtain ⟨⟨cur, torn⟩, hreplay, h⟩ := bind_eq_ok.mp h
      refine ⟨md, cur, torn, hmd, hb, hreplay, ?_⟩
      cases torn with
      | none => exact (Except.ok.inj h).symm
      | some offset => exact (Except.ok.inj h).symm
    · rw [if_pos hb] at h
      cases h
  · rintro ⟨md, cur, torn, hmd, hb, hreplay, rfl⟩
    refine bind_eq_ok.mpr ⟨md, hmd, ?_⟩
    rw [if_neg (not_not_intro hb)]
    refine bind_eq_ok.mpr ⟨_, hreplay, ?_⟩
    cases torn with
    | none => rfl
    | some offset => rfl

theorem init_eq_ok {d : Dir} {r : DurableJournal × Dir} :
    DurableJournal.init R d = .ok r ↔
      ∃ md cur torn, Metadata.read R d.metadata = .ok md ∧
        d.base.length = md.blocks * md.blockSize ∧
        replayLines R .off md d.log.length Cursor.empty 1 (splitLines d.log) = .ok (cur, torn) ∧
        r = openedAs md cur d torn := initUnder_eq_ok

end Replay

end AegisShield
