/-
# Sealed lines

The journal and the audit log write their records the same way: a JSON object in canonical form,
to which the SHA-256 of that form is added under one more key, and a newline.  `sealedLine` is
that line.

What a reader makes of a sealed line depends only on how much of it is there:

* the whole line, or all of it but the newline, reads back as the object;
* a shorter prefix does not read;
* a line that lacks its newline and is followed by another one does not read.

This is said of the two readers, of the one for values whose texts are strings and of the one for
any file (`FileValue.loads`).
-/
import AegisShield.Runtime
import AegisShield.Lib.JsonRoundTrip

namespace AegisShield

open Lib

/-! ## 1. The line -/

variable {R : Runtime}

theorem sealed_wf {key : String} {body : Dict R.Value} (h : (Json.obj body).Wf) :
    (Json.obj (sealed R key body)).Wf := Json.Wf.set h trivial

theorem canonicalBytes_no_newline (v : R.Value) : newline ∉ R.canonicalBytes v :=
  newline_not_mem_utf8 (Json.canonical_printable v)

theorem isLine_sealedLine (key : String) (body : Dict R.Value) : IsLine (sealedLine R key body) :=
  ⟨_, canonicalBytes_no_newline _, rfl⟩

/-- An object's dump starts with a brace. -/
theorem canonicalBytes_obj_head (kvs : Dict R.Value) :
    ∃ t, R.canonicalBytes (.obj kvs) = 123 :: t := by
  have hhead : ∃ t, Json.dump .compact 0 (Json.obj kvs : R.Value) = '{' :: t := by
    match kvs with
    | [] => exact ⟨_, by rw [Json.dump]⟩
    | (k, v) :: kvs => exact ⟨_, by rw [Json.dump]⟩
  obtain ⟨t, ht⟩ := hhead
  refine ⟨utf8 t, ?_⟩
  rw [Runtime.canonicalBytes, Json.canonical, ht]
  rfl

/-! ## 2. Reading it back -/

/-- A non-empty prefix of a sealed line is not blank. -/
theorem blank_sealedLine_prefix {key : String} {body : Dict R.Value} {p t : Bytes}
    (h : p ++ t = sealedLine R key body) (hp : p ≠ []) (u : Bytes) : blank (p ++ u) = false := by
  obtain ⟨s, hs⟩ := canonicalBytes_obj_head (sealed R key body)
  match p, hp with
  | b :: p, _ =>
    have hb : b = 123 := by
      rw [sealedLine, hs] at h
      exact (List.cons.inj h).1
    simp [blank, hb, isSpace]

theorem blank_sealedLine (key : String) (body : Dict R.Value) :
    blank (sealedLine R key body) = false := by
  have h := blank_sealedLine_prefix (List.append_nil (sealedLine R key body))
    (isLine_sealedLine key body).ne_nil []
  simpa using h

/-- **A complete line reads back.** -/
theorem loads_sealedLine {key : String} {body : Dict R.Value} (h : (Json.obj body).Wf) :
    Json.loads (sealedLine R key body) = some (Json.obj (sealed R key body) : R.Value) :=
  Json.loads_dump_newline .compact (sealed_wf h)

/-- **A line that lacks only its newline reads back.** -/
theorem loads_unterminated {key : String} {body : Dict R.Value} (h : (Json.obj body).Wf) :
    Json.loads (R.canonicalBytes (.obj (sealed R key body))) =
      some (Json.obj (sealed R key body) : R.Value) :=
  Json.loads_dump .compact (sealed_wf h)

theorem length_sealedLine (key : String) (body : Dict R.Value) :
    (sealedLine R key body).length =
      (R.canonicalBytes (.obj (sealed R key body))).length + 1 := by
  simp [sealedLine]

theorem take_pred_sealedLine (key : String) (body : Dict R.Value) :
    (sealedLine R key body).take ((sealedLine R key body).length - 1) =
      R.canonicalBytes (.obj (sealed R key body)) := by
  rw [length_sealedLine, Nat.add_sub_cancel, sealedLine, List.take_left']
  rfl

/-! ## 3. Any reader -/

section FileValue

/-- The object, as a reader of any file has it. -/
abbrev fileDict (kvs : Dict R.Value) : R.FileDict := Json.toPyMembers kvs

theorem canonicalBytes_fileDict (kvs : Dict R.Value) :
    FileValue.canonicalBytes (fileDict kvs) = R.canonicalBytes (.obj kvs) :=
  congrArg utf8 (Json.canonical_toPy (.obj kvs))

theorem bodyHash_fileDict (kvs : Dict R.Value) :
    FileValue.bodyHash R (fileDict kvs) = R.hexdigest (R.canonicalBytes (.obj kvs)) := by
  rw [FileValue.bodyHash, canonicalBytes_fileDict]

theorem FileValue.hashed_off (body : R.FileDict) :
    FileValue.hashed R .off body = .ok (FileValue.bodyHash R body) :=
  if_pos (Limits.admits_none _)

/-- A digest is computed exactly if the form is. -/
theorem FileValue.hashed_eq_ok {lim : Limits} {body : R.FileDict} {hash : String} :
    FileValue.hashed R lim body = .ok hash ↔
      Limits.Admits lim.dumps (PyJson.obj body).depth ∧ FileValue.bodyHash R body = hash := by
  unfold FileValue.hashed
  constructor
  · intro h
    split at h
    · rename_i hdepth
      exact ⟨hdepth, Except.ok.inj h⟩
    · cases h
  · rintro ⟨hdepth, rfl⟩
    exact if_pos hdepth

theorem get_fileDict (kvs : Dict R.Value) (key : String) :
    FileValue.get (fileDict kvs) key = (kvs.get key).map Json.toPy := Json.toPyMembers_lookup key kvs

theorem pop_fileDict (kvs : Dict R.Value) (key : String) :
    FileValue.pop (fileDict kvs) key = fileDict (kvs.pop key) := (Json.toPyMembers_pop key kvs).symm

theorem FileValue.loads_eq_ok {lim : Limits} {bs : Bytes} {v : R.FileValue} :
    FileValue.loads R lim bs = .ok v ↔ PyJson.loads lim bs = some v := by
  unfold FileValue.loads PyJson.loads
  cases PyStr.decode bs with
  | none => exact ⟨fun h => (by cases h), fun h => (by cases h)⟩
  | some s =>
    simp only [Option.bind_some]
    cases (PyJson.loadsText lim s : Option R.FileValue) with
    | none => exact ⟨fun h => (by cases h), fun h => (by cases h)⟩
    | some w =>
      exact ⟨fun h => congrArg some (Except.ok.inj h), fun h => congrArg Except.ok (Option.some.inj h)⟩

theorem FileValue.loads_eq_error {lim : Limits} {bs : Bytes}
    (h : (PyJson.loads lim bs : Option R.FileValue) = none) :
    ∃ e, FileValue.loads R lim bs = .error e := by
  cases hl : FileValue.loads R lim bs with
  | error e => exact ⟨e, rfl⟩
  | ok v =>
    rw [FileValue.loads_eq_ok.mp hl] at h
    cases h

/-- **What reads as an object reads as that object** from any file. -/
theorem FileValue.loads_fileDict {bs : Bytes} {kvs : Dict R.Value}
    (h : Json.loads bs = some (Json.obj kvs : R.Value)) :
    FileValue.loads R .off bs = .ok (.obj (fileDict kvs)) :=
  FileValue.loads_eq_ok.mpr (Json.loads_toPy h)

/-- A prefix of a sealed line that lacks more than the newline. -/
theorem FileValue.loads_take_sealedLine {key : String} {body : Dict R.Value}
    (h : (Json.obj body).Wf) {k : Nat} (hk : k < (sealedLine R key body).length - 1) (lim : Limits) :
    (PyJson.loads lim ((sealedLine R key body).take k) : Option R.FileValue) = none := by
  rw [length_sealedLine, Nat.add_sub_cancel] at hk
  rw [sealedLine, List.take_append_of_le_length hk.le]
  exact PyJson.loads_of_off_none (Json.pyLoads_take_obj .compact (sealed_wf h) hk) lim

/-- Two sealed objects on one line. -/
theorem FileValue.loads_glued {key key' : String} {body body' : Dict R.Value}
    (h : (Json.obj body).Wf) (lim : Limits) :
    (PyJson.loads lim (R.canonicalBytes (.obj (sealed R key body)) ++ sealedLine R key' body') :
      Option R.FileValue) = none :=
  PyJson.loads_of_off_none (Json.pyLoads_obj_append_obj .compact (sealed_wf h)) lim

end FileValue

/-! ## 4. Exceptions -/

/-- `json.loads` with its exception, on bytes that read. -/
theorem Runtime.loads_eq_ok {bs : Bytes} {v : R.Value} (h : Json.loads bs = some v) :
    R.loads bs = .ok v := by
  obtain ⟨cs, hcs, hv⟩ := Option.bind_eq_some_iff.mp h
  simp [Runtime.loads, hcs, hv]

theorem Runtime.loads_eq_ok_iff {bs : Bytes} {v : R.Value} :
    R.loads bs = .ok v ↔ Json.loads bs = some v := by
  refine ⟨fun h => ?_, Runtime.loads_eq_ok⟩
  rw [Runtime.loads] at h
  cases hcs : decodeText bs with
  | none =>
    rw [hcs] at h
    cases h
  | some cs =>
    rw [hcs] at h
    cases hv : (Json.loadsText cs : Option R.Value) with
    | none =>
      simp only [hv] at h
      cases h
    | some w =>
      simp only [hv] at h
      cases h
      exact Option.bind_eq_some_iff.mpr ⟨cs, hcs, hv⟩

/-- `json.loads` raises on bytes that do not read. -/
theorem Runtime.loads_eq_error {bs : Bytes} (h : (Json.loads bs : Option R.Value) = none) :
    ∃ e, R.loads bs = .error e ∧ (e = .unicodeDecodeError ∨ e = .jsonDecodeError) := by
  cases hcs : decodeText bs with
  | none => exact ⟨.unicodeDecodeError, by simp [Runtime.loads, hcs], Or.inl rfl⟩
  | some cs =>
    have hv : (Json.loadsText cs : Option R.Value) = none := by simpa [Json.loads, hcs] using h
    exact ⟨.jsonDecodeError, by simp [Runtime.loads, hcs, hv], Or.inr rfl⟩

end AegisShield
