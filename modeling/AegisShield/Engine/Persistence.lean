/-
# The state file and its digest

`Saved` is what `_save_state` persists.  Its bytes read back as its payload (`readState_bytes`),
and two payloads with the same bytes are the same (`statePayloadBytes_injective`), so a digest
stands for a payload as far as SHA-256 does not collide.

`_recorded_state_digest` looks through the ACTIVE audit file only: on a chain `es` it finds
`digestIn es`, which is nothing once a rotation has moved the last `state_persisted` entry into an
archive.  `_load_state` is then described by whether the chain records a state at all.
-/
import AegisShield.Engine.Basic
import AegisShield.Lib.JsonWf

namespace AegisShield

open Lib

/-! ## 1. The persisted fields -/

/-- The fields `_save_state` persists, as values that can be dumped. -/
structure Saved (R : Runtime) where
  state : AegisState
  stateVersion : Int
  containmentSequence : R.Value
  recoverySequence : R.Value
  usedNonces : Dict Int
  containment_wf : containmentSequence.Wf
  recovery_wf : recoverySequence.Wf
  nonces_sorted : usedNonces.Sorted

namespace AegisState

theorem ofValue_value {R : Runtime} (a : AegisState) : ofValue (.str a.value : R.Value) = some a := by
  cases a <;> rfl

end AegisState

namespace Saved

variable {R : Runtime}

/-- The payload. -/
def payload (p : Saved R) : Dict R.Value :=
  [("containment_sequence", p.containmentSequence), ("recovery_sequence", p.recoverySequence),
    ("state", .str p.state.value), ("state_version", .int p.stateVersion),
    ("used_nonces", .obj (p.usedNonces.map fun n => (n.1, .int n.2)))]

/-- The content of `engine_state.json`. -/
def bytes (p : Saved R) : Bytes := statePayloadBytes R (.obj p.payload)

/-- The digest that is recorded for it. -/
def digest (p : Saved R) : String := stateDigest R (.obj p.payload)

theorem payload_wf (p : Saved R) : (Json.obj p.payload).Wf := by
  have hnonces : (Json.obj (p.usedNonces.map fun n => (n.1, .int n.2)) : R.Value).Wf := by
    refine ⟨?_, Json.wfMembers_iff.mpr ?_⟩
    · exact List.pairwise_map.mpr p.nonces_sorted
    · intro kv hkv
      obtain ⟨n, -, rfl⟩ := List.mem_map.mp hkv
      trivial
  refine ⟨Dict.sorted_of_keys (rfl : _ = ["containment_sequence", "recovery_sequence", "state",
    "state_version", "used_nonces"]) (by decide), ?_⟩
  exact ⟨p.containment_wf, p.recovery_wf, trivial, trivial, hnonces, trivial⟩

theorem loads_bytes (p : Saved R) : R.loads p.bytes = .ok (.obj p.payload) :=
  Runtime.loads_eq_ok (Json.loads_dump_newline (.indented 2) p.payload_wf)

/-- **What was saved reads back.** -/
theorem readState_bytes (p : Saved R) : readState R p.bytes = .ok p.payload := by
  have hstate : getItem p.payload "state" = .ok (.str p.state.value) := rfl
  have hversion : getItem p.payload "state_version" = .ok (.int p.stateVersion) := rfl
  unfold readState
  rw [bind_of_ok p.loads_bytes]
  refine (bind_of_ok (rfl : asDict _ (Json.obj p.payload : R.Value) = .ok p.payload)).trans ?_
  rw [bind_of_ok hstate, AegisState.ofValue_value]
  rfl

/-- The nonces read back. -/
theorem pruneNonces_payload (p : Saved R) (current : Int) :
    pruneNonces current ((p.payload.get "used_nonces").getD (.obj [])) =
      .ok (pruneDict current p.usedNonces) := by
  have hget : (p.payload.get "used_nonces").getD (.obj []) =
      (.obj (p.usedNonces.map fun n => (n.1, .int n.2)) : R.Value) := rfl
  have hmap : (p.usedNonces.map fun n => (n.1, (.int n.2 : R.Value))).mapM
      (fun kv => do return (kv.1, ← pyInt kv.2)) = .ok p.usedNonces := by
    have h := mapM_of_ok (l := p.usedNonces.map fun n => (n.1, (.int n.2 : R.Value)))
      (g := fun kv => do return (kv.1, ← pyInt kv.2))
      (h := fun kv => (kv.1, ((pyInt kv.2).toOption).getD 0)) (by
        intro kv hkv
        obtain ⟨n, -, rfl⟩ := List.mem_map.mp hkv
        rfl)
    rw [h, List.map_map]
    exact congrArg _ (List.map_id _)
  rw [hget, pruneNonces]
  exact bind_of_ok hmap

end Saved

/-- A payload is determined by its bytes. -/
theorem statePayloadBytes_injective {R : Runtime} {v w : R.Value} (hv : v.Wf) (hw : w.Wf)
    (h : statePayloadBytes R v = statePayloadBytes R w) : v = w := by
  have h1 : Json.loads (statePayloadBytes R v) = some v :=
    Json.loads_dump_newline (.indented 2) hv
  have h2 : Json.loads (statePayloadBytes R w) = some w :=
    Json.loads_dump_newline (.indented 2) hw
  rw [h, h2] at h1
  exact (Option.some.inj h1).symm

/-- So is the state it holds. -/
theorem Saved.state_of_bytes {R : Runtime} {p q : Saved R} (h : p.bytes = q.bytes) :
    p.state = q.state ∧ p.stateVersion = q.stateVersion := by
  have hobj := statePayloadBytes_injective p.payload_wf q.payload_wf h
  have hpayload : p.payload = q.payload := Json.obj.inj hobj
  simp only [payload, List.cons.injEq, Prod.mk.injEq, Json.str.injEq, Json.int.injEq, true_and]
    at hpayload
  obtain ⟨-, -, hvalue, hversion, -⟩ := hpayload
  have hp := AegisState.ofValue_value (R := R) p.state
  rw [hvalue, AegisState.ofValue_value] at hp
  exact ⟨(Option.some.inj hp).symm, hversion⟩

theorem readState_wf {R : Runtime} {raw : Bytes} {kvs : Dict R.Value}
    (h : readState R raw = .ok kvs) : R.loads raw = .ok (.obj kvs) ∧ (Json.obj kvs).Wf := by
  obtain ⟨v, hv, h⟩ := bind_eq_ok.mp h
  obtain ⟨kvs', hk, h⟩ := bind_eq_ok.mp h
  obtain ⟨state, -, h⟩ := bind_eq_ok.mp h
  obtain ⟨_, -, h⟩ := bind_eq_ok.mp h
  obtain ⟨version, -, h⟩ := bind_eq_ok.mp h
  obtain ⟨_, -, h⟩ := bind_eq_ok.mp h
  obtain rfl : kvs' = kvs := by cases h; rfl
  obtain rfl : v = .obj kvs' := by
    cases v with
    | obj kvs => cases hk; rfl
    | _ => cases hk
  refine ⟨hv, ?_⟩
  cases hl : (Json.loads raw : Option R.Value) with
  | none =>
    obtain ⟨e, he, -⟩ := Runtime.loads_eq_error hl
    rw [he] at hv
    cases hv
  | some v =>
    rw [Runtime.loads_eq_ok hl] at hv
    cases hv
    exact Json.loads_wf hl

/-! ## 2. The digest in a chain -/

section Digest

variable {R : Runtime}

/-- What one entry leaves of the digest found so far. -/
def AuditEntry.digestAfter (digest : R.Value) (e : AuditEntry R) : R.Value :=
  if e.event = "state_persisted" then (Dict.get e.details "digest").getD .null else digest

/-- The digest in the last `state_persisted` entry, or `null`. -/
def digestIn (es : List (AuditEntry R)) : R.Value := es.foldl AuditEntry.digestAfter .null

/-- No entry records a state. -/
def Unrecorded (es : List (AuditEntry R)) : Prop := ∀ e ∈ es, e.event ≠ "state_persisted"

theorem digestIn_concat (es : List (AuditEntry R)) (e : AuditEntry R) :
    digestIn (es ++ [e]) = e.digestAfter (digestIn es) := by
  rw [digestIn, List.foldl_append]
  rfl

theorem Unrecorded.digestIn {es : List (AuditEntry R)} (h : Unrecorded es) :
    digestIn es = .null := by
  induction es using List.reverseRecOn with
  | nil => rfl
  | append_singleton es e ih =>
    have he : e.event ≠ "state_persisted" := h e (by simp)
    rw [digestIn_concat, AuditEntry.digestAfter, if_neg he]
    exact ih fun f hf => h f (List.mem_append_left _ hf)

/-- A line that reads as an entry, in the loop. -/
theorem lastDigest_entry {raw : Bytes} {h : String} {e : AuditEntry R} (hblank : blank raw = false)
    (hraw : R.loads raw = .ok (.obj (sealed R "event_hash" (e.body h)))) (digest : R.Value)
    (rest : List Bytes) :
    lastDigest R digest (raw :: rest) = lastDigest R (e.digestAfter digest) rest := by
  have hevent : Dict.get (sealed R "event_hash" (e.body h)) "event" = some (.str e.event) :=
    Dict.get_set_of_ne (by decide) _
  have hdetails : Dict.get (sealed R "event_hash" (e.body h)) "details" = some (.obj e.details) :=
    Dict.get_set_of_ne (by decide) _
  rw [lastDigest, if_neg (by rw [hblank]; decide), hraw]
  simp only [hevent, hdetails, Option.bind_some, asStr, Option.some.injEq, AuditEntry.digestAfter]
  split <;> rfl

theorem lastDigest_written (es : List (AuditEntry R)) (rest : List Bytes) :
    ∀ (h : String) (digest : R.Value), lastDigest R digest
        (writtenLines (fun h e => e.line h) (fun h e => e.hash h) h es ++ rest) =
      lastDigest R (es.foldl AuditEntry.digestAfter digest) rest := by
  induction es with
  | nil => intro h digest; rfl
  | cons e es ih =>
    intro h digest
    have hblank : blank (e.line h) = false := blank_sealedLine _ _
    rw [writtenLines, List.cons_append, lastDigest_entry hblank (e.loads_line h)]
    exact ih (e.hash h) (e.digestAfter digest)

/-- **What `_recorded_state_digest` finds in a chain.** -/
theorem recordedStateDigest_chainOf (es : List (AuditEntry R)) :
    recordedStateDigest R (chainOf R es) = .ok (digestIn es) := by
  have hlines := splitLines_chainOf es []
  rw [List.append_nil] at hlines
  rw [recordedStateDigest, verifyFile_chainOf]
  simp only [hlines]
  exact lastDigest_written es (splitLines []) zeroHash .null

/-- The same, when the last line lacks its newline. -/
theorem recordedStateDigest_unterminated (es : List (AuditEntry R)) (e : AuditEntry R) :
    recordedStateDigest R (chainOf R es ++ e.text (hashOf R es)) = .ok (digestIn (es ++ [e])) := by
  have hlines := splitLines_chainOf es (e.text (hashOf R es))
  have hblank : blank (e.text (hashOf R es)) = false := by
    have h := blank_sealedLine_prefix (e.line_eq (hashOf R es)).symm (e.text_ne_nil _) []
    rwa [List.append_nil] at h
  rw [recordedStateDigest, verifyFile_unterminated]
  rw [splitLines_tail (e.newline_not_mem_text _) (e.text_ne_nil _)] at hlines
  simp only [hlines, lastDigest_written]
  rw [lastDigest_entry hblank (e.loads_text _), digestIn_concat]
  rfl

variable (R) in
/-- Some line of an audit file is a `state_persisted` entry. -/
def RecordsState (file : Bytes) : Prop :=
  ∃ raw ∈ splitLines file, ∃ kvs, R.loads raw = .ok (.obj kvs) ∧
    (Dict.get kvs "event").bind asStr = some "state_persisted"

theorem mem_writtenLines {raw : Bytes} : ∀ {es : List (AuditEntry R)} {h : String},
    raw ∈ writtenLines (fun h (e : AuditEntry R) => e.line h) (fun h e => e.hash h) h es →
      ∃ e ∈ es, ∃ h', raw = e.line h'
  | [], _, hm => by cases hm
  | e :: es, h, hm => by
    rcases List.mem_cons.mp hm with rfl | hm
    · exact ⟨e, List.mem_cons_self, h, rfl⟩
    · obtain ⟨f, hf, hf'⟩ := mem_writtenLines hm
      exact ⟨f, List.mem_cons_of_mem _ hf, hf'⟩

theorem line_mem_writtenLines {e : AuditEntry R} : ∀ {es : List (AuditEntry R)} (h : String),
    e ∈ es → ∃ h', e.line h' ∈
      writtenLines (fun h (e : AuditEntry R) => e.line h) (fun h e => e.hash h) h es
  | f :: es, h, hm => by
    rcases List.mem_cons.mp hm with rfl | hm
    · exact ⟨h, List.mem_cons_self⟩
    · obtain ⟨h', hf⟩ := line_mem_writtenLines (f.hash h) hm
      exact ⟨h', List.mem_cons_of_mem _ hf⟩

/-- A chain records a state if one of its entries does. -/
theorem recordsState_chainOf (es : List (AuditEntry R)) :
    RecordsState R (chainOf R es) ↔ ¬ Unrecorded es := by
  have hlines := splitLines_chainOf es []
  have hnil : splitLines [] = [] := rfl
  rw [List.append_nil, hnil, List.append_nil] at hlines
  have hevent : ∀ (h : String) (e : AuditEntry R),
      Dict.get (sealed R "event_hash" (e.body h)) "event" = some (.str e.event) :=
    fun h e => Dict.get_set_of_ne (by decide) _
  unfold RecordsState Unrecorded
  rw [hlines]
  push Not
  constructor
  · rintro ⟨raw, hraw, kvs, hload, hpersisted⟩
    obtain ⟨e, he, h, rfl⟩ := mem_writtenLines hraw
    rw [e.loads_line h] at hload
    cases hload
    rw [hevent] at hpersisted
    exact ⟨e, he, Option.some.inj hpersisted⟩
  · rintro ⟨e, he, hpersisted⟩
    obtain ⟨h, hm⟩ := line_mem_writtenLines zeroHash he
    refine ⟨_, hm, _, e.loads_line h, ?_⟩
    rw [hevent]
    exact congrArg some hpersisted

/-! ## 3. Loading -/

@[simp] theorem isNull_null : isNull (.null : R.Value) = true := rfl

@[simp] theorem isNull_str (s : String) : isNull (.str s : R.Value) = false := rfl

theorem loadState_missing {es : List (AuditEntry R)} {digest : String}
    (h : digestIn es = .str digest) :
    loadState R none (chainOf R es) =
      .ok (none, some "state file is missing but the audit log records one") := by
  unfold loadState
  refine (bind_of_ok (recordedStateDigest_chainOf es)).trans ?_
  rw [h]
  rfl

/-- **Without a file and without a record of one, the loader sees a first boot.** -/
theorem loadState_first_boot {es : List (AuditEntry R)} (h : Unrecorded es) :
    loadState R none (chainOf R es) = .ok (none, none) := by
  unfold loadState
  refine (bind_of_ok (recordedStateDigest_chainOf es)).trans ?_
  rw [h.digestIn]
  rfl

theorem loadState_unreadable {raw : Bytes} {e : Raised} (h : readState R raw = .error e)
    (file : Bytes) : ∃ reason, loadState R (some raw) file = .ok (none, some reason) := by
  unfold loadState
  simp only [h]
  exact ⟨_, rfl⟩

/-- The loader on a file that reads. -/
theorem loadState_readable {raw file : Bytes} {kvs : Dict R.Value} {digest : R.Value}
    (hr : readState R raw = .ok kvs) (hd : recordedStateDigest R file = .ok digest) :
    loadState R (some raw) file =
      if isNull digest then
        if file = [] then .ok (some kvs, none)
        else .ok (none, some "state file has no matching audit record")
      else if asStr digest ≠ some (stateDigest R (.obj kvs)) then
        .ok (none, some "state file digest does not match the audit record")
      else .ok (some kvs, none) := by
  unfold loadState
  simp only [hr]
  exact bind_of_ok hd

/-- **The file that the newest record stands for is accepted.** -/
theorem loadState_recorded (p : Saved R) {es : List (AuditEntry R)}
    (h : digestIn es = .str p.digest) :
    loadState R (some p.bytes) (chainOf R es) = .ok (some p.payload, none) := by
  have hsame : asStr (.str p.digest : R.Value) = some (stateDigest R (.obj p.payload)) := rfl
  rw [loadState_readable p.readState_bytes (recordedStateDigest_chainOf es), h,
    isNull_str, if_neg Bool.false_ne_true, if_neg (not_not.mpr hsame)]

/-- **Without a record in a non-empty audit file, no file is accepted.** -/
theorem loadState_unrecorded (raw : Bytes) {es : List (AuditEntry R)} (hne : es ≠ [])
    (h : Unrecorded es) :
    ∃ reason, loadState R (some raw) (chainOf R es) = .ok (none, some reason) := by
  cases hr : readState R raw with
  | error e => exact loadState_unreadable hr _
  | ok kvs =>
    rw [loadState_readable hr (recordedStateDigest_chainOf es), h.digestIn, isNull_null,
      if_pos rfl, if_neg (chainOf_ne_nil hne)]
    exact ⟨_, rfl⟩

/-- **A file with another digest than the recorded one is not accepted.** -/
theorem loadState_mismatch (raw : Bytes) {es : List (AuditEntry R)} {digest : String}
    (h : digestIn es = .str digest)
    (hother : ∀ kvs, readState R raw = .ok kvs → stateDigest R (.obj kvs) ≠ digest) :
    ∃ reason, loadState R (some raw) (chainOf R es) = .ok (none, some reason) := by
  cases hr : readState R raw with
  | error e => exact loadState_unreadable hr _
  | ok kvs =>
    have hne : asStr (.str digest : R.Value) ≠ some (stateDigest R (.obj kvs)) :=
      fun heq => hother kvs hr (Option.some.inj heq).symm
    rw [loadState_readable hr (recordedStateDigest_chainOf es), h, isNull_str,
      if_neg Bool.false_ne_true, if_pos hne]
    exact ⟨_, rfl⟩

/-- Without a file, the loader sees a first boot or a file that was removed. -/
theorem loadState_none {file : Bytes} {digest : R.Value}
    (h : recordedStateDigest R file = .ok digest) :
    loadState R none file = .ok (none, none) ∨
      ∃ reason, loadState R none file = .ok (none, some reason) := by
  have hload : loadState R none file =
      if isNull digest then .ok (none, none)
      else .ok (none, some "state file is missing but the audit log records one") := by
    unfold loadState
    exact bind_of_ok h
  rw [hload]
  split
  · exact Or.inl rfl
  · exact Or.inr ⟨_, rfl⟩

/-- **A saved file is accepted as what was saved, or it is refused.** -/
theorem loadState_saved (p : Saved R) {file : Bytes} {digest : R.Value}
    (h : recordedStateDigest R file = .ok digest) :
    loadState R (some p.bytes) file = .ok (some p.payload, none) ∨
      ∃ reason, loadState R (some p.bytes) file = .ok (none, some reason) := by
  rw [loadState_readable p.readState_bytes h]
  split
  · split
    · exact Or.inl rfl
    · exact Or.inr ⟨_, rfl⟩
  · split
    · exact Or.inr ⟨_, rfl⟩
    · exact Or.inl rfl

end Digest

/-! ## 4. Restoring -/

section Restore

variable {W : World}

/-- The object with the saved fields, and the nonces that have not expired by `current`. -/
def Engine.load (e : Engine W) (p : Saved W.R) (current : Int) : Engine W :=
  { e with state := p.state
           stateVersion := p.stateVersion
           containmentSequence := p.containmentSequence
           recoverySequence := p.recoverySequence
           usedNonces := pruneDict current p.usedNonces }

/-- The details of an `engine_restored` entry. -/
def restoredDetails (p : Saved W.R) : Dict W.R.Value :=
  [("containment_sequence", p.containmentSequence), ("state", .str p.state.value),
    ("state_version", .int p.stateVersion)]

/-- **Restoring takes over what was saved.** -/
theorem Sys.restore_payload (s : Sys W) (p : Saved W.R) :
    s.restore p.payload = .ok
      (((s.withEngine fun e => e.load p (W.clock.time s.ticks)).tick).audit "engine_restored"
        (restoredDetails p)) := by
  have hstate : getItem p.payload "state" = .ok (.str p.state.value) := rfl
  have hversion : getItem p.payload "state_version" = .ok (.int p.stateVersion) := rfl
  unfold Sys.restore
  rw [bind_of_ok hstate, AegisState.ofValue_value]
  refine bind_eq_ok.mpr ⟨p.state, rfl, ?_⟩
  rw [bind_of_ok hversion, bind_of_ok (pyInt_int _), bind_of_ok (p.pruneNonces_payload _)]
  rfl

end Restore

end AegisShield
