/-
# Torn or tampered

`_replay` discards a last record that fails STRUCTURALLY, and raises on one that decodes and fails
a check.  The comment there gives the reason: a torn write leaves an incomplete record, so only an
incomplete record may be dropped, or an attacker could delete the newest evidence by flipping bits
in it.

What the code looks at is whether the line decodes, not whether it is incomplete.  The two differ
on two kinds of last lines that do not decode: those that are complete, i.e. still have their
newline, and those that are not the beginning of any record.  One bit of the opening brace is enough
(`flipped_bit_drops_record`).  `only_torn_discarded_iff` says that these are all.
-/
import AegisShield.Journal.Replay
import AegisShield.Journal.Refinement

namespace AegisShield

open Lib

/-! ## 1. Torn records -/

section Torn

variable {R : Runtime} {lim : Limits}

/-- The bytes are a strict prefix of what some `append` to the open journal `j` would write. -/
def TornRecord (R : Runtime) (j : DurableJournal) (bytes : Bytes) : Prop :=
  ∃ startBlock data line j', j.prepare R startBlock data = .ok (line, j') ∧
    ∃ k < line.length, bytes = line.take k

/-- **What the comment promises**: if opening the directory discards a tail, the tail is a torn
record.  The bytes that are gone are those behind the log as the opening leaves it. -/
def OnlyTornDiscarded (R : Runtime) (lim : Limits) (d : Dir) : Prop :=
  ∀ j d', DurableJournal.initUnder lim R d = .ok (j, d') → j.recoveredTail ≠ none →
    TornRecord R j (d.log.drop d'.log.length) ∧
      (d.log.drop d'.log.length).getLast? ≠ some newline

/-- The directory without the last line of its log. -/
def Dir.dropLine (d : Dir) (pre : List Bytes) : Dir := { d with log := pre.flatten }

/-- The files open, and the last line is neither blank nor decodes. -/
structure DropsLast (R : Runtime) (lim : Limits) (d : Dir) (md : Metadata) (pre : List Bytes)
    (last : Bytes) (cur : Cursor) : Prop where
  metadata : Metadata.read R d.metadata = .ok md
  base : d.base.length = md.blocks * md.blockSize
  lines : splitLines d.log = pre ++ [last]
  replays : Replays R lim md Cursor.empty pre cur
  undecodable : Undecodable R lim last

/-- **The changes that the code takes for a tear**: the last line does not decode, and yet it has
its newline, or some byte in it is not that of any record behind the lines before it. -/
def DropsAltered (R : Runtime) (lim : Limits) (d : Dir) : Prop :=
  ∃ md pre last cur, DropsLast R lim d md pre last cur ∧
    (last.getLast? = some newline ∨ ∀ w : Write md, ¬ last <+: w.line R cur)

theorem tornRecord_iff {md : Metadata} {cur : Cursor} {tail : Option TailRecovery} {bytes : Bytes} :
    TornRecord R ⟨md, cur, tail⟩ bytes ↔
      ∃ w : Write md, ∃ k < (w.line R cur).length, bytes = (w.line R cur).take k := by
  constructor
  · rintro ⟨start, data, line, j', hprep, k, hk, rfl⟩
    obtain ⟨w, rfl, rfl⟩ := prepare_inv hprep
    rw [prepare_write] at hprep
    obtain ⟨rfl, -⟩ := Prod.mk.inj (Except.ok.inj hprep)
    exact ⟨w, k, hk, rfl⟩
  · rintro ⟨w, k, hk, rfl⟩
    exact ⟨w.start, w.data, _, _, prepare_write cur tail w, k, hk, rfl⟩

/-- The beginning of a record without its newline is torn. -/
theorem tornRecord_of_begins {md : Metadata} {cur : Cursor} {tail : Option TailRecovery}
    {bytes : Bytes} {w : Write md} (hbegins : bytes <+: w.line R cur)
    (hopen : bytes.getLast? ≠ some newline) : TornRecord R ⟨md, cur, tail⟩ bytes := by
  have htake : bytes = (w.line R cur).take bytes.length := List.prefix_iff_eq_take.mp hbegins
  refine tornRecord_iff.mpr ⟨w, bytes.length, lt_of_le_of_ne hbegins.length_le ?_, htake⟩
  intro hlength
  -- all of the line would be there, and with it the newline
  rw [hlength, List.take_length] at htake
  obtain ⟨content, -, hline⟩ := w.isLine (R := R) cur
  rw [htake, hline] at hopen
  exact hopen List.getLast?_concat

/-! ## 2. What an opening discards -/

/-- The lines before the last, as a file of their own. -/
theorem splitLines_dropLine {log last : Bytes} {pre : List Bytes}
    (h : splitLines log = pre ++ [last]) : splitLines pre.flatten = pre ∧ log = pre.flatten ++ last := by
  constructor
  · have hlines := splitLines_lines [] (isLine_of_splitLines h)
    rw [List.append_nil] at hlines
    exact hlines.trans (List.append_nil pre)
  · have hflat := flatten_splitLines log
    rw [h, List.flatten_append, List.flatten_singleton] at hflat
    exact hflat.symm

theorem replayLines_file {md : Metadata} {log : Bytes} {cur : Cursor} {torn : Option Nat}
    (h : replayLines R lim md log.length Cursor.empty 1 (splitLines log) = .ok (cur, torn)) :
    (torn = none ∧ Replays R lim md Cursor.empty (splitLines log) cur) ∨
      ∃ pre last, splitLines log = pre ++ [last] ∧ Replays R lim md Cursor.empty pre cur ∧
        Undecodable R lim last ∧ torn = some cur.logSize := by
  refine replayLines_inv (fun l hl => ne_nil_of_mem_splitLines hl) ?_ h
  rw [flatten_splitLines]
  exact (Nat.zero_add _).symm

/-- The bytes behind the log that an opening leaves, when it discards the last line. -/
theorem drop_discarded {d : Dir} {pre : List Bytes} {last : Bytes} {offset : Nat}
    (hlog : d.log = pre.flatten ++ last) (hoffset : offset = pre.flatten.length) (reason : String) :
    d.log.drop (discardTornTail d offset reason).2.log.length = last := by
  have htake : (discardTornTail d offset reason).2.log = pre.flatten := by
    rw [discardTornTail, hlog, hoffset, List.take_left]
  rw [htake, hlog, List.drop_left]

theorem Replays.logSize_empty {md : Metadata} {cur : Cursor} {lines : List Bytes}
    (h : Replays R lim md Cursor.empty lines cur) : cur.logSize = lines.flatten.length := by
  rw [h.logSize]
  exact Nat.zero_add _

/-- **An opening that discards** has taken every line but the last, which does not decode. -/
theorem initUnder_discards {d d' : Dir} {j : DurableJournal}
    (h : DurableJournal.initUnder lim R d = .ok (j, d')) (htail : j.recoveredTail ≠ none) :
    ∃ pre last, DropsLast R lim d j.toMetadata pre last j.toCursor ∧
      d.log.drop d'.log.length = last := by
  obtain ⟨md, cur, torn, hmd, hb, hreplay, hopened⟩ := initUnder_eq_ok.mp h
  rcases replayLines_file hreplay with ⟨rfl, -⟩ | ⟨pre, last, hlines, hr, hlast, rfl⟩
  · obtain ⟨rfl, -⟩ := Prod.mk.inj hopened
    exact absurd rfl htail
  · obtain ⟨rfl, rfl⟩ := Prod.mk.inj hopened
    exact ⟨pre, last, ⟨hmd, hb, hlines, hr, hlast⟩,
      drop_discarded (splitLines_dropLine hlines).2 hr.logSize_empty _⟩

/-- **Every such file is opened like that.** -/
theorem DropsLast.initUnder {d : Dir} {md : Metadata} {pre : List Bytes} {last : Bytes} {cur : Cursor}
    (h : DropsLast R lim d md pre last cur) :
    ∃ t d', DurableJournal.initUnder lim R d = .ok (⟨md, cur, some t⟩, d') ∧
      d.log.drop d'.log.length = last := by
  have hsize : d.log.length = Cursor.empty.logSize + (pre ++ [last]).flatten.length := by
    rw [← h.lines, flatten_splitLines]
    exact (Nat.zero_add _).symm
  have htorn := h.replays.replayLines_torn h.undecodable 1
  rw [← hsize, ← h.lines] at htorn
  exact ⟨_, _, initUnder_eq_ok.mpr ⟨md, cur, _, h.metadata, h.base, htorn, rfl⟩,
    drop_discarded (splitLines_dropLine h.lines).2 h.replays.logSize_empty _⟩

/-- Without that line nothing is discarded. -/
theorem DropsLast.initUnder_dropLine {d : Dir} {md : Metadata} {pre : List Bytes} {last : Bytes}
    {cur : Cursor} (h : DropsLast R lim d md pre last cur) :
    DurableJournal.initUnder lim R (d.dropLine pre) = .ok (⟨md, cur, none⟩, d.dropLine pre) := by
  refine initUnder_eq_ok.mpr ⟨md, cur, none, h.metadata, h.base, ?_, rfl⟩
  change replayLines R lim md pre.flatten.length Cursor.empty 1 (splitLines pre.flatten) = _
  rw [(splitLines_dropLine h.lines).1]
  exact h.replays.replayLines_eq _ _

end Torn

/-! ## 3. Main results -/

/-- **Only a torn record is discarded, unless the last line is one of the two kinds.** -/
theorem only_torn_discarded_iff (R : Runtime) (lim : Limits) (d : Dir) :
    OnlyTornDiscarded R lim d ↔ ¬ DropsAltered R lim d := by
  constructor
  · rintro honly ⟨md, pre, last, cur, hdrops, haltered⟩
    obtain ⟨t, d', hinit, hdrop⟩ := hdrops.initUnder
    obtain ⟨htorn, hopen⟩ := honly _ _ hinit (by simp)
    rw [hdrop] at htorn hopen
    rcases haltered with hcomplete | hdiffers
    · exact hopen hcomplete
    · obtain ⟨w, k, -, rfl⟩ := tornRecord_iff.mp htorn
      exact hdiffers w (List.take_prefix k _)
  · intro hsound j d' hinit htail
    obtain ⟨pre, last, hdrops, hdrop⟩ := initUnder_discards hinit htail
    rw [hdrop]
    have hopen : last.getLast? ≠ some newline := fun hcomplete =>
      hsound ⟨_, pre, last, _, hdrops, Or.inl hcomplete⟩
    have hbegins : ∃ w : Write j.toMetadata, last <+: w.line R j.toCursor := by
      by_contra hdiffers
      exact hsound ⟨_, pre, last, _, hdrops, Or.inr fun w hw => hdiffers ⟨w, hw⟩⟩
    obtain ⟨w, hw⟩ := hbegins
    exact ⟨tornRecord_of_begins hw hopen, hopen⟩

/-- An object whose opening brace was changed into a `z` does not read. -/
theorem loads_flipped {R : Runtime} (kvs : Dict R.Value) {t : Bytes}
    (h : R.canonicalBytes (.obj kvs) = 123 :: t) :
    (PyJson.loads .off (122 :: (t ++ [newline])) : Option R.FileValue) = none := by
  obtain ⟨cs, hcs⟩ : ∃ cs, (Json.obj kvs : R.Value).canonical = '{' :: cs := by
    match kvs with
    | [] => exact ⟨_, by rw [Json.canonical, Json.dump]⟩
    | (k, v) :: kvs => exact ⟨_, by rw [Json.canonical, Json.dump]⟩
  have ht : t = utf8 cs := by
    rw [Runtime.canonicalBytes, hcs] at h
    exact (List.cons.inj h).2.symm
  have hascii : ∀ c ∈ 'z' :: (cs ++ ['\n']), IsAscii c := by
    intro c hc
    have hprint := Json.canonical_printable (Json.obj kvs : R.Value)
    rw [hcs] at hprint
    simp only [List.mem_cons, List.mem_append, List.not_mem_nil, or_false] at hc
    rcases hc with rfl | hc | rfl
    · exact ⟨by decide, by decide⟩
    · exact (hprint c (List.mem_cons_of_mem _ hc)).isAscii
    · exact ⟨by decide, by decide⟩
  have hbytes : 122 :: (t ++ [newline]) = utf8 ('z' :: (cs ++ ['\n'])) := by
    have hsplit : utf8 ('z' :: (cs ++ ['\n'])) = utf8 ['z'] ++ (utf8 cs ++ utf8 ['\n']) := by
      rw [← utf8_append, ← utf8_append]
      rfl
    rw [hsplit, ht]
    rfl
  rw [hbytes, Json.loads_ascii hascii, PyJson.loadsText_off]
  rfl

/-- A record's line with the lowest bit of its first byte flipped. -/
theorem undecodable_flipped {R : Runtime} {md : Metadata} (lim : Limits) (cur : Cursor) (w : Write md) :
    ∃ t, w.line R cur = 123 :: (t ++ [newline]) ∧ IsLine (122 :: (t ++ [newline])) ∧
      Undecodable R lim (122 :: (t ++ [newline])) := by
  obtain ⟨t, ht⟩ := canonicalBytes_obj_head (sealed R "record_hash" (w.body R cur))
  have hnl : newline ∉ t := by
    intro hmem
    refine canonicalBytes_no_newline (.obj (sealed R "record_hash" (w.body R cur))) ?_
    rw [ht]
    exact List.mem_cons_of_mem _ hmem
  refine ⟨t, congrArg (· ++ [newline]) ht, ⟨122 :: t, ?_, rfl⟩, ?_, ?_⟩
  · rintro (_ | ⟨_, hmem⟩)
    exact hnl hmem
  · simp [blank, isSpace]
  · rw [parseRecord, PyJson.loads_of_off_none (loads_flipped _ ht) lim]
    rfl

/-- **One flipped bit drops a complete record.**  The opening brace of the only record becomes a
`z`; the line still ends in its newline, and the journal opens without it, whatever the limits. -/
theorem flipped_bit_drops_record : ∃ d j, provision Runtime.reference 4 512 "dev" = .ok d ∧
    DurableJournal.init Runtime.reference d = .ok (j, d) ∧
    let s := [.append 1 (List.replicate 512 7)].foldl (JournalCall.run Runtime.reference)
      (j, ⟨d, []⟩)
    ∃ rest, s.1.lastSequence = 1 ∧ s.2.log = 123 :: (rest ++ [newline]) ∧
      let altered : Dir := { s.2.toDir with log := 122 :: (rest ++ [newline]) }
      ∀ lim : Limits, ∃ j' d', DurableJournal.initUnder lim Runtime.reference altered = .ok (j', d') ∧
        j'.lastSequence = 0 ∧ j'.recoveredTail ≠ none ∧
        altered.log.drop d'.log.length = 122 :: (rest ++ [newline]) ∧
        ¬ OnlyTornDiscarded Runtime.reference lim altered := by
  obtain ⟨d, j, hd, hj, h, -, -⟩ := sevens_written
  refine ⟨d, j, hd, hj, ?_⟩
  generalize [JournalCall.append 1 (List.replicate 512 7)].foldl
    (JournalCall.run Runtime.reference) (j, ⟨d, []⟩) = s at *
  -- the one record of the log, with its first bit flipped, is a line that does not decode
  obtain ⟨t, hline, hisline, -⟩ :=
    undecodable_flipped (R := Runtime.reference) .off Cursor.empty sevens
  have hlog : s.2.log = 123 :: (t ++ [newline]) := by
    rw [h.log, ← hline]
    exact (logOf_concat (R := Runtime.reference) [] sevens).trans (List.nil_append _)
  refine ⟨t, h.lastSequence, hlog, fun lim => ?_⟩
  obtain ⟨t', hline', -, hbad⟩ :=
    undecodable_flipped (R := Runtime.reference) lim Cursor.empty sevens
  have htext : t' ++ [newline] = t ++ [newline] := (List.cons.inj (hline'.symm.trans hline)).2
  rw [htext] at hbad
  have hlines : splitLines (122 :: (t ++ [newline])) = [] ++ [122 :: (t ++ [newline])] := by
    have hsplit := hisline.splitLines_append []
    rwa [List.append_nil] at hsplit
  have hdrops : DropsLast Runtime.reference lim
      { s.2.toDir with log := 122 :: (t ++ [newline]) } ⟨"dev", 4, 512⟩ []
      (122 :: (t ++ [newline])) Cursor.empty :=
    { metadata := by
        rw [h.file]
        exact Metadata.read_file _
      base := h.size
      lines := hlines
      replays := .nil _
      undecodable := hbad }
  obtain ⟨tail, d', hinit, hdrop⟩ := hdrops.initUnder
  refine ⟨_, d', hinit, rfl, by simp, hdrop, fun honly => ?_⟩
  -- what was dropped ends in a newline, so it was no torn write
  have hlast := (honly _ _ hinit (by simp)).2
  rw [hdrop] at hlast
  exact hlast (List.getLast?_concat (l := 122 :: t))

end AegisShield
