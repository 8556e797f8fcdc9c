/-
# What the two verifiers accept, as chains

One step lemma for each verifier: `verifyLines_cons` says what `verify` has done with a line,
`acceptRecord_eq_ok` what `_replay` has checked about a record.  From them, a file that `verify`
accepts and a log that `_replay` takes are chains (`Linked`) from the zero hash to the head hash.
-/
import AegisShield.AnyFile.Basic
import AegisShield.Lib.HashChain
import AegisShield.Journal.Replay

namespace AegisShield

open Lib

namespace AnyFile

variable {R : Runtime} {lim : Limits}

/-! ## 1. The audit log -/

/-- The hash of an event. -/
def eventHash (R : Runtime) (v : R.FileValue) : String := FileValue.bodyHash R (eventBody v)

/-- Behind the hash `previous`, `verify` takes the event. -/
structure IsEvent (R : Runtime) (v : R.FileValue) (previous : String) : Prop where
  stored : ∃ kvs, v = .obj kvs ∧
    FileValue.get kvs "event_hash" = some (.str (PyStr.ofString (eventHash R v)))
  previous : FileValue.get (eventBody v) "previous_hash" = some (.str (PyStr.ofString previous))

theorem asStr_eq_some {v : R.FileValue} {s : PyStr} (h : FileValue.asStr v = some s) : v = .str s := by
  cases v with
  | str t =>
    cases h
    rfl
  | _ => cases h

theorem popHash_eq_ok {v stored : R.FileValue} {body : R.FileDict}
    (h : popHash v = .ok (stored, body)) :
    body = eventBody v ∧ ∃ kvs, v = .obj kvs ∧ FileValue.get kvs "event_hash" = some stored := by
  cases v with
  | obj kvs =>
    rw [popHash] at h
    split at h
    · rename_i found hget
      obtain ⟨rfl, rfl⟩ := Prod.mk.inj (Except.ok.inj h)
      exact ⟨rfl, kvs, rfl, hget⟩
    · cases h
  | _ => cases h

theorem popHash_obj {kvs : R.FileDict} {stored : R.FileValue}
    (h : FileValue.get kvs "event_hash" = some stored) :
    popHash (.obj kvs) = .ok (stored, eventBody (.obj kvs)) := by
  rw [popHash, h]
  rfl

/-- **One line of `verify`.** -/
theorem verifyLines_cons {expected head : String} {line : Nat} {raw : Bytes} {rest : List Bytes} :
    verifyLines R lim expected line (raw :: rest) = .ok head ↔
      ∃ v, PyJson.loads lim raw = some v ∧ IsEvent R v expected ∧
        Limits.Admits lim.dumps (PyJson.obj (eventBody v)).depth ∧
        verifyLines R lim (eventHash R v) (line + 1) rest = .ok head := by
  constructor
  · intro h
    -- the checks in the order of the code; each that fails ends the scan
    obtain ⟨v, hv, h⟩ := bind_eq_ok.mp h
    obtain ⟨⟨stored, body⟩, hpop, h⟩ := bind_eq_ok.mp h
    obtain ⟨rfl, kvs, hobj, hget⟩ := popHash_eq_ok hpop
    dsimp only at h
    by_cases hchain : (FileValue.get (eventBody v) "previous_hash").bind FileValue.asStr =
        some (PyStr.ofString expected)
    case neg =>
      rw [if_pos hchain] at h
      cases h
    rw [if_neg (not_not_intro hchain)] at h
    obtain ⟨calculated, hcalculated, h⟩ := bind_eq_ok.mp h
    obtain ⟨hdepth, rfl⟩ := FileValue.hashed_eq_ok.mp hcalculated
    by_cases hhash : FileValue.asStr stored =
        some (PyStr.ofString (FileValue.bodyHash R (eventBody v)))
    case neg =>
      rw [if_pos hhash] at h
      cases h
    rw [if_neg (not_not_intro hhash)] at h
    obtain ⟨p, hp, hprevious⟩ := Option.bind_eq_some_iff.mp hchain
    rw [asStr_eq_some hprevious] at hp
    rw [asStr_eq_some hhash] at hget
    exact ⟨v, FileValue.loads_eq_ok.mp hv, ⟨⟨kvs, hobj, hget⟩, hp⟩, hdepth, h⟩
  · rintro ⟨_, hv, ⟨⟨kvs, rfl, hget⟩, hprevious⟩, hdepth, h⟩
    refine bind_eq_ok.mpr ⟨_, FileValue.loads_eq_ok.mpr hv, bind_eq_ok.mpr ⟨_, popHash_obj hget, ?_⟩⟩
    have hchain : (FileValue.get (eventBody (.obj kvs)) "previous_hash").bind FileValue.asStr =
        some (PyStr.ofString expected) := by
      rw [hprevious]
      rfl
    have hhash : FileValue.asStr (R := R) (.str (PyStr.ofString (eventHash R (.obj kvs)))) =
        some (PyStr.ofString (FileValue.bodyHash R (eventBody (.obj kvs)))) := rfl
    dsimp only
    rw [if_neg (not_not_intro hchain)]
    refine bind_eq_ok.mpr ⟨_, FileValue.hashed_eq_ok.mpr ⟨hdepth, rfl⟩, ?_⟩
    rw [if_neg (not_not_intro hhash)]
    exact h

/-- **A file that `verify` accepts is a chain.** -/
theorem linked_of_verifyLines : ∀ {lines : List Bytes} {expected head : String} {line : Nat},
    verifyLines R lim expected line lines = .ok head →
      Linked (IsEvent R) (eventHash R) expected (lines.filterMap (PyJson.loads lim)) head
  | [], expected, head, line, h => by
    cases h
    exact .nil expected
  | raw :: rest, expected, head, line, h => by
    obtain ⟨v, hv, hevent, -, hrest⟩ := verifyLines_cons.mp h
    have ih := linked_of_verifyLines hrest
    rw [List.filterMap_cons, hv]
    exact .cons hevent ih

theorem inOrder_of_mem_events {file : Bytes} {v : R.FileValue} (h : v ∈ events R lim file) :
    v.InOrder := by
  obtain ⟨raw, -, hraw⟩ := List.mem_filterMap.mp h
  obtain ⟨s, -, htext⟩ := Option.bind_eq_some_iff.mp hraw
  exact PyJson.loadsText_inOrder htext

/-! ## 2. Records -/

end AnyFile

/-- The hash of a record. -/
def Parsed.hash {R : Runtime} (p : Parsed R) : String := FileValue.bodyHash R p.value

/-- Where the fields of a line come from. -/
structure Parsed.Reads {R : Runtime} (lim : Limits) (p : Parsed R) : Prop where
  data : ∃ text cs, FileValue.get p.value "data_b64" = some (.str text) ∧ text.chars = some cs ∧
    b64decode true cs = some p.data
  previousHash : FileValue.get p.value "previous_hash" = some p.previousHash
  sequence : ∃ v, FileValue.get p.value "sequence" = some v ∧
    (FileValue.pyInt lim v).toOption = some p.sequence
  blocks : (FileValue.pyInt lim ((FileValue.get p.value "blocks").getD (.int 1))).toOption =
    some p.blocks
  block : ∃ v, FileValue.get p.value "block" = some v ∧
    (FileValue.pyInt lim v).toOption = some p.block

/-- Behind the hash `previous`, `_replay` takes the record. -/
structure Parsed.Follows {R : Runtime} (p : Parsed R) (previous : String) : Prop where
  stored : p.storedHash = .str (PyStr.ofString p.hash)
  previous : p.previousHash = .str (PyStr.ofString previous)

namespace AnyFile

variable {R : Runtime} {lim : Limits}

theorem reads_of_parseRecord {raw : Bytes} {p : Parsed R} (h : parseRecord R lim raw = some p) :
    p.Reads lim := by
  obtain ⟨v, -, h⟩ := Option.bind_eq_some_iff.mp h
  obtain ⟨kvs, -, h⟩ := Option.bind_eq_some_iff.mp h
  obtain ⟨storedHash, -, h⟩ := Option.bind_eq_some_iff.mp h
  obtain ⟨t, ht, h⟩ := Option.bind_eq_some_iff.mp h
  obtain ⟨text, htext, h⟩ := Option.bind_eq_some_iff.mp h
  obtain ⟨cs, hcs, h⟩ := Option.bind_eq_some_iff.mp h
  obtain ⟨data, hdata, h⟩ := Option.bind_eq_some_iff.mp h
  obtain ⟨previous, hprevious, h⟩ := Option.bind_eq_some_iff.mp h
  obtain ⟨s, hs, h⟩ := Option.bind_eq_some_iff.mp h
  obtain ⟨sequence, hsequence, h⟩ := Option.bind_eq_some_iff.mp h
  obtain ⟨c, -, h⟩ := Option.bind_eq_some_iff.mp h
  obtain ⟨crc, -, h⟩ := Option.bind_eq_some_iff.mp h
  obtain ⟨blocks, hblocks, h⟩ := Option.bind_eq_some_iff.mp h
  obtain ⟨b, hb, h⟩ := Option.bind_eq_some_iff.mp h
  obtain ⟨block, hblock, h⟩ := Option.bind_eq_some_iff.mp h
  rw [asStr_eq_some htext] at ht
  cases h
  exact ⟨⟨text, cs, ht, hcs, hdata⟩, hprevious, ⟨s, hs, hsequence⟩, hblocks, ⟨b, hb, hblock⟩⟩

theorem follows_of_checks {md : Metadata} {cur : Cursor} {p : Parsed R} (h : p.Checks lim md cur) :
    p.Follows cur.lastHash := ⟨asStr_eq_some h.hash, asStr_eq_some h.chain⟩

/-! ## 3. The journal -/

theorem recordLines_blank {raw : Bytes} (h : blank raw = true) (rest : List Bytes) :
    recordLines R lim (raw :: rest) = recordLines R lim rest := by
  rw [recordLines, List.filter_cons_of_neg (by simp [h])]
  rfl

theorem recordLines_some {raw : Bytes} (hblank : blank raw = false) {p : Parsed R}
    (h : parseRecord R lim raw = some p) (rest : List Bytes) :
    recordLines R lim (raw :: rest) = p :: recordLines R lim rest := by
  rw [recordLines, List.filter_cons_of_pos (by simp [hblank]), List.filterMap_cons, h]
  rfl

/-- A last line that does not decode holds no record. -/
theorem recordLines_concat {last : Bytes} (h : Undecodable R lim last) (lines : List Bytes) :
    recordLines R lim (lines ++ [last]) = recordLines R lim lines := by
  rw [recordLines, List.filter_append, List.filterMap_append,
    List.filter_cons_of_pos (by simp [h.1]), List.filterMap_cons, h.2]
  exact List.append_nil _

/-- **The lines that replay takes are a chain.** -/
theorem linked_of_replays {md : Metadata} {cur cur' : Cursor} {lines : List Bytes}
    (h : Replays R lim md cur lines cur') :
    Linked Parsed.Follows Parsed.hash cur.lastHash (recordLines R lim lines) cur'.lastHash := by
  induction h with
  | nil cur => exact .nil _
  | blank hblank _ ih =>
    rw [recordLines_blank hblank]
    exact ih
  | record hblank hparse hchecks _ ih =>
    rw [recordLines_some hblank hparse]
    exact .cons (follows_of_checks hchecks) ih

/-- The same of a whole log, whose last line may be dropped. -/
theorem linked_of_replay {md : Metadata} {log : Bytes} {cur : Cursor} {torn : Option Nat}
    (h : replay R lim md log = .ok (cur, torn)) :
    Linked Parsed.Follows Parsed.hash zeroHash (recordLines R lim (splitLines log)) cur.lastHash := by
  have hsize : log.length = Cursor.empty.logSize + (splitLines log).flatten.length := by
    rw [flatten_splitLines]
    exact (Nat.zero_add _).symm
  rcases replayLines_inv (fun l hl => ne_nil_of_mem_splitLines hl) hsize h with
    ⟨-, hr⟩ | ⟨pre, last, hlines, hr, hlast, -⟩
  · exact linked_of_replays hr
  · rw [hlines, recordLines_concat hlast]
    exact linked_of_replays hr

theorem reads_of_mem_recordLines {lines : List Bytes} {p : Parsed R}
    (h : p ∈ recordLines R lim lines) : p.Reads lim := by
  obtain ⟨raw, -, hparse⟩ := List.mem_filterMap.mp h
  exact reads_of_parseRecord hparse

end AnyFile

end AegisShield
