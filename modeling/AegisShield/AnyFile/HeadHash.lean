/-
# The head hash commits to the history

Both verifiers walk a chain (`Linked`): a line names the hash of the one before, and the hash of a
line is that of its canonical form.  So what the head says about a log is what a hash says about
one line: with no collision among the bytes that are hashed, the canonical form, and with it the
line UP TO CODE UNITS (`PyJson.units_of_canonical`).

Not the line itself.  `json.dumps` escapes what is not ASCII, a character past the first plane as
a pair of surrogates, and `json.loads` admits a pair of surrogates in the bytes of a file: a log
with the one and a log with the other have one head (`same_head_other_events`).  The fields that
`_replay` takes out of a record cannot hold surrogates, so for the journal the records are equal.
-/
import AegisShield.AnyFile.Chains

namespace AegisShield

open Lib

/-- Among these texts the hash has no collision, and none of them hashes to zeros. -/
structure Runtime.Distinguishes (R : Runtime) (texts : List Bytes) : Prop where
  collisionFree : ∀ a ∈ texts, ∀ b ∈ texts, R.sha256 a = R.sha256 b → a = b
  nonzero : ∀ a ∈ texts, R.sha256 a ≠ List.replicate 32 0

theorem hexdigest_ne_zeroHash {R : Runtime} {a : Bytes} (h : R.sha256 a ≠ List.replicate 32 0) :
    R.hexdigest a ≠ zeroHash := by
  intro heq
  have hread : fromHex (R.hexdigest a) = some (R.sha256 a) := fromHex_hex _
  have hzero : fromHex zeroHash = some (List.replicate 32 0) := by decide +kernel
  rw [heq, hzero] at hread
  exact h (Option.some.inj hread).symm

namespace AnyFile

variable {R : Runtime} {lim lim₁ lim₂ : Limits}

/-! ## 1. What a hash says about a body -/

/-- Equal canonical bytes are equal members, up to code units. -/
theorem sameUnits_of_canonicalBytes {body body' : R.FileDict}
    (h : FileValue.canonicalBytes body = FileValue.canonicalBytes body') : PyJson.SameUnits body body' := by
  have hread := congrArg decodeUtf8 h
  rw [FileValue.canonicalBytes, FileValue.canonicalBytes, decodeUtf8_utf8, decodeUtf8_utf8] at hread
  exact PyJson.obj.inj (PyJson.units_of_canonical (Option.some.inj hread))

theorem bodyHash_of_sameUnits {body body' : R.FileDict} (h : PyJson.SameUnits body body') :
    FileValue.bodyHash R body = FileValue.bodyHash R body' := by
  have hcanonical : PyJson.canonical (.obj body) = PyJson.canonical (.obj body') :=
    PyJson.canonical_of_units (congrArg PyJson.obj h)
  rw [FileValue.bodyHash, FileValue.bodyHash, FileValue.canonicalBytes, FileValue.canonicalBytes, hcanonical]

theorem sameUnits_of_bodyHash {texts : List Bytes} (hR : R.Distinguishes texts)
    {body body' : R.FileDict} (hb : FileValue.canonicalBytes body ∈ texts)
    (hb' : FileValue.canonicalBytes body' ∈ texts) (h : FileValue.bodyHash R body = FileValue.bodyHash R body') :
    PyJson.SameUnits body body' :=
  sameUnits_of_canonicalBytes (hR.collisionFree _ hb _ hb' (hexdigest_injective h))

/-- Where an ASCII key is in both, its values agree up to code units. -/
theorem get_sameUnits {body body' : R.FileDict} (h : PyJson.SameUnits body body') {key : String}
    (hkey : key.toList.all fun c => c.toNat < 128) {v w : R.FileValue} (hv : FileValue.get body key = some v)
    (hw : FileValue.get body' key = some w) : v.map PyStr.units = w.map PyStr.units := by
  have hlookup := h.lookup (PyStr.plain_ofString hkey)
  rw [FileValue.get] at hv hw
  rw [hv, hw] at hlookup
  exact Option.some.inj hlookup

/-- Two texts of hashes that agree up to code units are one hash. -/
theorem ofString_of_map {a b : String}
    (h : (PyJson.str (PyStr.ofString a) : R.FileValue).map PyStr.units =
      (PyJson.str (PyStr.ofString b)).map PyStr.units) : a = b :=
  PyStr.ofString_inj (PyJson.str.inj h)

/-! ## 2. The audit log -/

/-- Two events whose bodies agree up to code units do. -/
theorem IsEvent.map_units {v w : R.FileValue} {a b : String} (hv : IsEvent R v a)
    (hw : IsEvent R w b) (hvo : v.InOrder) (hwo : w.InOrder)
    (h : PyJson.SameUnits (eventBody v) (eventBody w)) :
    v.map PyStr.units = w.map PyStr.units := by
  have hhash : eventHash R v = eventHash R w := bodyHash_of_sameUnits h
  have hkey : PyStr.Plain (PyStr.ofString "event_hash") := PyStr.plain_ofString rfl
  obtain ⟨kvs, rfl, hget⟩ := hv.stored
  obtain ⟨lvs, rfl, hget'⟩ := hw.stored
  rw [← hhash] at hget'
  have hwhole : PyJson.SameUnits kvs lvs :=
    PyJson.SameUnits.of_pop hkey (hvo kvs rfl) (hwo lvs rfl) hget hget' rfl h
  exact congrArg PyJson.obj hwhole

theorem IsEvent.eq_previous {v w : R.FileValue} {a b : String} (hv : IsEvent R v a)
    (hw : IsEvent R w b) (h : PyJson.SameUnits (eventBody v) (eventBody w)) : a = b :=
  ofString_of_map (get_sameUnits h rfl hv.previous hw.previous)

/-- **Two files with one head hash hold the same events, up to code units.** -/
theorem events_of_verify {f₁ f₂ : Bytes} {head : String}
    (hR : R.Distinguishes (eventTexts R lim₁ f₁ ++ eventTexts R lim₂ f₂)) (h₁ : verifyUnder lim₁ R f₁ = .ok head)
    (h₂ : verifyUnder lim₂ R f₂ = .ok head) :
    (events R lim₁ f₁).map (PyJson.map PyStr.units) = (events R lim₂ f₂).map (PyJson.map PyStr.units) := by
  have hchain₁ : Linked (IsEvent R) (eventHash R) zeroHash (events R lim₁ f₁) head :=
    linked_of_verifyLines h₁
  have hchain₂ : Linked (IsEvent R) (eventHash R) zeroHash (events R lim₂ f₂) head :=
    linked_of_verifyLines h₂
  have htexts₁ : ∀ v ∈ events R lim₁ f₁, FileValue.canonicalBytes (eventBody v) ∈
      eventTexts R lim₁ f₁ ++ eventTexts R lim₂ f₂ :=
    fun v hv => List.mem_append_left _ (List.mem_map_of_mem hv)
  have htexts₂ : ∀ v ∈ events R lim₂ f₂, FileValue.canonicalBytes (eventBody v) ∈
      eventTexts R lim₁ f₁ ++ eventTexts R lim₂ f₂ :=
    fun v hv => List.mem_append_right _ (List.mem_map_of_mem hv)
  have hsame : ∀ v ∈ events R lim₁ f₁, ∀ w ∈ events R lim₂ f₂, eventHash R v = eventHash R w →
      PyJson.SameUnits (eventBody v) (eventBody w) ∧ v.map PyStr.units = w.map PyStr.units := by
    intro v hv w hw hhash
    obtain ⟨a, hevent⟩ := hchain₁.exists_names v hv
    obtain ⟨b, hevent'⟩ := hchain₂.exists_names w hw
    have hbody := sameUnits_of_bodyHash hR (htexts₁ v hv) (htexts₂ w hw) hhash
    exact ⟨hbody, hevent.map_units hevent' (inOrder_of_mem_events hv) (inOrder_of_mem_events hw)
      hbody⟩
  have hpairs := hchain₁.commits (fun h hv hw => hv.eq_previous hw h.1)
    (fun v hv => hexdigest_ne_zeroHash (hR.nonzero _ (htexts₁ v hv)))
    (fun w hw => hexdigest_ne_zeroHash (hR.nonzero _ (htexts₂ w hw))) hsame hchain₂
  exact List.forall₂_eq_eq_eq ▸ List.forall₂_map_left_iff.mpr
    (List.forall₂_map_right_iff.mpr (hpairs.imp fun _ _ h => h.2))

/-! ## 3. The journal -/

/-- `int()` gives the same on values that agree up to code units, if it returns: no literal has a
surrogate in it. -/
theorem pyInt_inj {v w : R.FileValue} (h : v.map PyStr.units = w.map PyStr.units) {i j : Int}
    (hi : (FileValue.pyInt lim₁ v).toOption = some i)
    (hj : (FileValue.pyInt lim₂ w).toOption = some j) : i = j := by
  cases v with
  | str s =>
    cases w with
    | str t =>
      have his : intOfStr lim₁ s = some i := by
        cases hs : intOfStr lim₁ s with
        | none => rw [FileValue.pyInt, hs] at hi; cases hi
        | some k => rw [FileValue.pyInt, hs] at hi; exact hi
      have hjt : intOfStr lim₂ t = some j := by
        cases ht : intOfStr lim₂ t with
        | none => rw [FileValue.pyInt, ht] at hj; cases hj
        | some k => rw [FileValue.pyInt, ht] at hj; exact hj
      have hst : s = t := PyStr.units_inj (not_high_of_intOfStr his) (not_high_of_intOfStr hjt)
        (PyJson.str.inj h)
      subst hst
      exact Option.some.inj ((intOfStr_off_of_some his).symm.trans (intOfStr_off_of_some hjt))
    | _ => cases h
  | int k =>
    cases w with
    | int l =>
      cases h
      exact Option.some.inj (hi.symm.trans hj)
    | _ => cases h
  | bool b =>
    cases w with
    | bool c =>
      cases h
      exact Option.some.inj (hi.symm.trans hj)
    | _ => cases h
  | float x =>
    cases w with
    | float y =>
      cases h
      exact Option.some.inj (hi.symm.trans hj)
    | _ => cases h
  | _ => cases hi

theorem eq_previous_of_follows {p q : Parsed R} {a b : String} (hp : p.Follows a)
    (hq : q.Follows b) (hpr : p.Reads lim₁) (hqr : q.Reads lim₂) (h : PyJson.SameUnits p.value q.value) :
    a = b := by
  have hvalues := get_sameUnits h rfl hpr.previousHash hqr.previousHash
  rw [hp.previous, hq.previous] at hvalues
  exact ofString_of_map hvalues

/-- Two records that are taken, with bodies that agree up to code units, are equal. -/
theorem record_eq_of_follows {p q : Parsed R} {a b : String} (hp : p.Follows a)
    (hq : q.Follows b) (hpr : p.Reads lim₁) (hqr : q.Reads lim₂) (h : PyJson.SameUnits p.value q.value) :
    record p = record q := by
  have hsequence : p.sequence = q.sequence := by
    obtain ⟨v, hv, hi⟩ := hpr.sequence
    obtain ⟨w, hw, hj⟩ := hqr.sequence
    exact pyInt_inj (get_sameUnits h rfl hv hw) hi hj
  have hblock : p.block = q.block := by
    obtain ⟨v, hv, hi⟩ := hpr.block
    obtain ⟨w, hw, hj⟩ := hqr.block
    exact pyInt_inj (get_sameUnits h rfl hv hw) hi hj
  have hblocks : p.blocks = q.blocks := by
    refine pyInt_inj ?_ hpr.blocks hqr.blocks
    have hlookup := h.lookup (k := PyStr.ofString "blocks") (PyStr.plain_ofString rfl)
    -- the default is the same where the key is missing
    cases hv : FileValue.get p.value "blocks" with
    | none =>
      cases hw : FileValue.get q.value "blocks" with
      | none => rfl
      | some w =>
        rw [FileValue.get] at hv hw
        rw [hv, hw] at hlookup
        cases hlookup
    | some v =>
      cases hw : FileValue.get q.value "blocks" with
      | none =>
        rw [FileValue.get] at hv hw
        rw [hv, hw] at hlookup
        cases hlookup
      | some w => exact get_sameUnits h rfl hv hw
  have hdata : p.data = q.data := by
    obtain ⟨s, cs, hs, hcs, hp⟩ := hpr.data
    obtain ⟨t, ds, ht, hds, hq⟩ := hqr.data
    have hunits := PyJson.str.inj (get_sameUnits h rfl hs ht)
    rw [PyStr.eq_of_chars hcs hds hunits, hds] at hcs
    cases hcs
    exact Option.some.inj (hp.symm.trans hq)
  have hprevious : p.previousHash = q.previousHash := by
    rw [hp.previous, hq.previous, eq_previous_of_follows hp hq hpr hqr h]
  have hstored : p.storedHash = q.storedHash := by
    rw [hp.stored, hq.stored, Parsed.hash, Parsed.hash, bodyHash_of_sameUnits h]
  simp only [record, hsequence, hblock, hblocks, hdata, hprevious, hstored]

/-- **Two logs with one head hash hold the same records.** -/
theorem records_of_replay {md₁ md₂ : Metadata} {l₁ l₂ : Bytes} {cur₁ cur₂ : Cursor}
    {torn₁ torn₂ : Option Nat} (hR : R.Distinguishes (recordTexts R lim₁ l₁ ++ recordTexts R lim₂ l₂))
    (h₁ : replay R lim₁ md₁ l₁ = .ok (cur₁, torn₁)) (h₂ : replay R lim₂ md₂ l₂ = .ok (cur₂, torn₂))
    (hhead : cur₁.lastHash = cur₂.lastHash) : records R lim₁ l₁ = records R lim₂ l₂ := by
  have hchain₁ := linked_of_replay h₁
  have hchain₂ := linked_of_replay h₂
  rw [← hhead] at hchain₂
  have htexts₁ : ∀ p ∈ recordLines R lim₁ (splitLines l₁), FileValue.canonicalBytes p.value ∈
      recordTexts R lim₁ l₁ ++ recordTexts R lim₂ l₂ :=
    fun p hp => List.mem_append_left _ (List.mem_map_of_mem hp)
  have htexts₂ : ∀ p ∈ recordLines R lim₂ (splitLines l₂), FileValue.canonicalBytes p.value ∈
      recordTexts R lim₁ l₁ ++ recordTexts R lim₂ l₂ :=
    fun p hp => List.mem_append_right _ (List.mem_map_of_mem hp)
  have hsame : ∀ p ∈ recordLines R lim₁ (splitLines l₁), ∀ q ∈ recordLines R lim₂ (splitLines l₂),
      p.hash = q.hash → (PyJson.SameUnits p.value q.value ∧ p.Reads lim₁ ∧ q.Reads lim₂) ∧
        record p = record q := by
    intro p hp q hq hhash
    obtain ⟨a, hfollows⟩ := hchain₁.exists_names p hp
    obtain ⟨b, hfollows'⟩ := hchain₂.exists_names q hq
    have hpr := reads_of_mem_recordLines hp
    have hqr := reads_of_mem_recordLines hq
    have hbody := sameUnits_of_bodyHash hR (htexts₁ p hp) (htexts₂ q hq) hhash
    exact ⟨⟨hbody, hpr, hqr⟩, record_eq_of_follows hfollows hfollows' hpr hqr hbody⟩
  have hpairs := hchain₁.commits (fun h hp hq =>
      eq_previous_of_follows hp hq h.1.2.1 h.1.2.2 h.1.1)
    (fun p hp => hexdigest_ne_zeroHash (hR.nonzero _ (htexts₁ p hp)))
    (fun q hq => hexdigest_ne_zeroHash (hR.nonzero _ (htexts₂ q hq))) hsame hchain₂
  exact List.forall₂_eq_eq_eq ▸ List.forall₂_map_left_iff.mpr
    (List.forall₂_map_right_iff.mpr (hpairs.imp fun _ _ h => h.2))

/-! ## 4. The head hash -/

/-- **The head hash commits to the history**: to the events of an audit file up to code units, and
to the records of a journal. -/
theorem head_hash_commits (R : Runtime) :
    (∀ (lim₁ lim₂ : Limits) (f₁ f₂ : Bytes) (head : String),
      R.Distinguishes (eventTexts R lim₁ f₁ ++ eventTexts R lim₂ f₂) →
      verifyUnder lim₁ R f₁ = .ok head → verifyUnder lim₂ R f₂ = .ok head →
        (events R lim₁ f₁).map (PyJson.map PyStr.units) =
          (events R lim₂ f₂).map (PyJson.map PyStr.units)) ∧
    (∀ (lim₁ lim₂ : Limits) (md₁ md₂ : Metadata) (l₁ l₂ : Bytes) (cur₁ cur₂ : Cursor)
      (torn₁ torn₂ : Option Nat), R.Distinguishes (recordTexts R lim₁ l₁ ++ recordTexts R lim₂ l₂) →
      replay R lim₁ md₁ l₁ = .ok (cur₁, torn₁) → replay R lim₂ md₂ l₂ = .ok (cur₂, torn₂) →
        cur₁.lastHash = cur₂.lastHash → records R lim₁ l₁ = records R lim₂ l₂) := by
  constructor
  · intro lim₁ lim₂ f₁ f₂ head hR h₁ h₂
    exact events_of_verify hR h₁ h₂
  · intro lim₁ lim₂ md₁ md₂ l₁ l₂ cur₁ cur₂ torn₁ torn₂ hR h₁ h₂ hhead
    exact records_of_replay hR h₁ h₂ hhead

/-- The bytes of ASCII text. -/
def ascii (text : String) : Bytes := text.toList.map fun c => UInt8.ofNat c.toNat

/-- The dictionary on a line. -/
def dictOf (R : Runtime) (raw : Bytes) : Option R.FileDict :=
  (PyJson.loads .off raw).bind fun v => (FileValue.asDict .typeError v).toOption

/-- The event that a file opens with; `text` is what is hashed of it. -/
def Opens (R : Runtime) (text : Bytes) (hash : String) (kvs : R.FileDict) : Prop :=
  FileValue.canonicalBytes (FileValue.pop kvs "event_hash") = text ∧
    (FileValue.get kvs "event_hash").bind FileValue.asStr = some (PyStr.ofString hash) ∧
    (FileValue.get (FileValue.pop kvs "event_hash") "previous_hash").bind FileValue.asStr =
      some (PyStr.ofString zeroHash)

instance (text : Bytes) (hash : String) : DecidablePred (Opens R text hash) :=
  fun _ => inferInstanceAs (Decidable (_ ∧ _ ∧ _))

theorem bind_asStr_eq_some {v : Option R.FileValue} {s : PyStr} (h : v.bind FileValue.asStr = some s) :
    v = some (.str s) := by
  obtain ⟨w, rfl, hw⟩ := Option.bind_eq_some_iff.mp h
  rw [asStr_eq_some hw]

theorem loads_of_dictOf {raw : Bytes} {kvs : R.FileDict} (h : dictOf R raw = some kvs) :
    PyJson.loads .off raw = some (.obj kvs) := by
  obtain ⟨v, hv, h⟩ := Option.bind_eq_some_iff.mp h
  cases v with
  | obj lvs =>
    cases h
    exact hv
  | _ => cases h

theorem events_of_dictOf {file : Bytes} {kvs : R.FileDict} (hlines : splitLines file = [file])
    (h : dictOf R file = some kvs) : events R .off file = [.obj kvs] := by
  rw [events, hlines, List.filterMap_cons, loads_of_dictOf h]
  rfl

/-- A file of one event. -/
theorem verify_of_opens {file text : Bytes} {hash : String} (hhash : R.hexdigest text = hash)
    (hlines : splitLines file = [file])
    (hopens : (dictOf R file).any (Opens R text hash)) :
    verifyFile R file = .ok hash ∧ eventTexts R .off file = [text] := by
  obtain ⟨kvs, hkvs, hkvs'⟩ := (Option.any_eq_true _ _).mp hopens
  obtain ⟨htext, hstored, hprevious⟩ := of_decide_eq_true hkvs'
  have hload := loads_of_dictOf hkvs
  have heventHash : eventHash R (.obj kvs) = hash := by
    rw [← hhash, ← htext]
    rfl
  have hevent : IsEvent R (.obj kvs) zeroHash := by
    refine ⟨⟨kvs, rfl, ?_⟩, bind_asStr_eq_some hprevious⟩
    rw [heventHash]
    exact bind_asStr_eq_some hstored
  constructor
  · rw [verifyFile, verifyUnder, hlines]
    exact verifyLines_cons.mpr ⟨_, hload, hevent, Limits.admits_none _, by
      rw [verifyLines, heventHash]⟩
  · rw [eventTexts, events_of_dictOf hlines hkvs]
    exact congrArg (fun t => [t]) htext

/-- The record that a log opens with. -/
def Begins (R : Runtime) (text : Bytes) (hash : String) (md : Metadata) (p : Parsed R) : Prop :=
  FileValue.canonicalBytes p.value = text ∧ FileValue.asStr p.storedHash = some (PyStr.ofString hash) ∧
    FileValue.asStr p.previousHash = some (PyStr.ofString zeroHash) ∧ p.sequence = 1 ∧
    (crc32 p.data : Int) = p.crc ∧ 1 ≤ p.blocks ∧
    (p.data.length : Int) = p.blocks * md.blockSize ∧ 0 ≤ p.block ∧ p.block + p.blocks ≤ md.blocks

instance (text : Bytes) (hash : String) (md : Metadata) : DecidablePred (Begins R text hash md) :=
  fun _ => inferInstanceAs (Decidable (_ ∧ _ ∧ _ ∧ _ ∧ _ ∧ _ ∧ _ ∧ _ ∧ _))

/-- A log of one record. -/
theorem replay_of_begins {log text : Bytes} {hash : String} {md : Metadata}
    (hhash : R.hexdigest text = hash) (hlines : splitLines log = [log]) (hblank : blank log = false)
    (hbegins : (parseRecord R .off log).any (Begins R text hash md)) :
    (∃ cur, replay R .off md log = .ok (cur, none) ∧ cur.lastHash = hash) ∧
      recordTexts R .off log = [text] := by
  obtain ⟨p, hparse, hp⟩ := (Option.any_eq_true _ _).mp hbegins
  obtain ⟨htext, hstored, hprevious, hsequence, hcrc, hblocks, hsize, hrange⟩ := of_decide_eq_true hp
  have hphash : p.hash = hash := by
    rw [← hhash, ← htext]
    rfl
  rw [← hphash] at hstored
  have hchecks : p.Checks .off md Cursor.empty :=
    ⟨Limits.admits_none _, hstored, hprevious, hsequence, hcrc, hblocks, hsize, hrange⟩
  constructor
  · refine ⟨Cursor.empty.record p log.length, ?_, hphash⟩
    rw [replay, hlines, replayLines, if_neg (by simp [hblank]), hparse]
    exact bind_of_ok (acceptRecord_of_checks hchecks 1 log.length)
  · rw [recordTexts, hlines, recordLines_some hblank hparse]
    exact congrArg (fun t => [t]) htext

/-- Copies of one text. -/
theorem distinguishes_of_eq {text : Bytes} {texts : List Bytes} (h : ∀ t ∈ texts, t = text)
    (hhash : R.hexdigest text ≠ zeroHash) : R.Distinguishes texts where
  collisionFree s hs t ht _ := (h s hs).trans (h t ht).symm
  nonzero s hs heq := by
    rw [h s hs] at heq
    refine hhash ?_
    rw [Runtime.hexdigest, heq]
    decide +kernel

/-- The members of an object that is an event, with these bytes for its name, and the record of
four bytes. -/
def smileMembers (name : Bytes) : Bytes :=
  ascii "\"block\":0,\"crc32\":3057449933,\"data_b64\":\"AQIDBA==\",\"event\":\"" ++ name ++
    ascii "\",\"previous_hash\":\"" ++ ascii zeroHash ++ ascii "\",\"sequence\":1\x7d"

/-- The escapes of a pair of surrogates, which is how `json.dumps` writes the one character. -/
def escapes : Bytes := ascii "\\ud83d\\ude00"

/-- The surrogates themselves, three bytes each. -/
def surrogates : Bytes := [0xED, 0xA0, 0xBD, 0xED, 0xB8, 0x80]

/-- What is hashed of either. -/
def smileText : Bytes := ascii "\x7b" ++ smileMembers escapes

/-- Its hash. -/
def smileHash : String := "041f72c0931e199e820c501da0a9840be56e6381218f256c4ea956a62fc789b7"

/-- The line, with its own hash under `key`. -/
def smileLine (key : String) (name : Bytes) : Bytes :=
  ascii "\x7b\"" ++ ascii key ++ ascii "\":\"" ++ ascii smileHash ++ ascii "\"," ++
    smileMembers name ++ [newline]

theorem hexdigest_smileText : Runtime.reference.hexdigest smileText = smileHash := by
  decide +kernel

theorem distinguishes_smileText {texts : List Bytes} (h : ∀ t ∈ texts, t = smileText) :
    Runtime.reference.Distinguishes texts := by
  refine distinguishes_of_eq h ?_
  rw [hexdigest_smileText]
  decide

theorem opens_smileLine :
    (∀ name ∈ [escapes, surrogates],
      splitLines (smileLine "event_hash" name) = [smileLine "event_hash" name] ∧
        (dictOf Runtime.reference (smileLine "event_hash" name)).any
          (Opens Runtime.reference smileText smileHash)) ∧
    (dictOf Runtime.reference (smileLine "event_hash" escapes)).bind
        (fun kvs => (FileValue.get kvs "event").bind FileValue.asStr) ≠
      (dictOf Runtime.reference (smileLine "event_hash" surrogates)).bind
        fun kvs => (FileValue.get kvs "event").bind FileValue.asStr := by
  decide +kernel

theorem begins_smileLine : ∀ name ∈ [escapes, surrogates],
    (splitLines (smileLine "record_hash" name) = [smileLine "record_hash" name] ∧
      blank (smileLine "record_hash" name) = false) ∧
      (parseRecord Runtime.reference .off (smileLine "record_hash" name)).any
        (Begins Runtime.reference smileText smileHash ⟨"dev", 4, 4⟩) := by
  decide +kernel

/-- Both files have the one head hash. -/
theorem verify_smileLines :
    (verifyFile Runtime.reference (smileLine "event_hash" escapes) = .ok smileHash ∧
      verifyFile Runtime.reference (smileLine "event_hash" surrogates) = .ok smileHash) ∧
    Runtime.reference.Distinguishes
      (eventTexts Runtime.reference .off (smileLine "event_hash" escapes) ++
        eventTexts Runtime.reference .off (smileLine "event_hash" surrogates)) := by
  have hverify : ∀ name ∈ [escapes, surrogates],
      verifyFile Runtime.reference (smileLine "event_hash" name) = .ok smileHash ∧
        eventTexts Runtime.reference .off (smileLine "event_hash" name) = [smileText] := by
    intro name hname
    obtain ⟨hlines, hopens⟩ := opens_smileLine.1 name hname
    exact verify_of_opens hexdigest_smileText hlines hopens
  obtain ⟨h₁, htexts₁⟩ := hverify escapes (by simp)
  obtain ⟨h₂, htexts₂⟩ := hverify surrogates (by simp)
  refine ⟨⟨h₁, h₂⟩, distinguishes_smileText ?_⟩
  rw [htexts₁, htexts₂]
  simp

/-- The events themselves need not be equal: the name is one character in the first file, and
two in the second. -/
theorem same_head_other_events : ∃ (f₁ f₂ : Bytes) (head : String),
    Runtime.reference.Distinguishes
      (eventTexts Runtime.reference .off f₁ ++ eventTexts Runtime.reference .off f₂) ∧
    verifyFile Runtime.reference f₁ = .ok head ∧ verifyFile Runtime.reference f₂ = .ok head ∧
    events Runtime.reference .off f₁ ≠ events Runtime.reference .off f₂ := by
  obtain ⟨⟨h₁, h₂⟩, hR⟩ := verify_smileLines
  refine ⟨_, _, smileHash, hR, h₁, h₂, ?_⟩
  intro heq
  obtain ⟨hopens, hnames⟩ := opens_smileLine
  obtain ⟨hlines₁, hopens₁⟩ := hopens escapes (by simp)
  obtain ⟨hlines₂, hopens₂⟩ := hopens surrogates (by simp)
  obtain ⟨kvs₁, hkvs₁, -⟩ := (Option.any_eq_true _ _).mp hopens₁
  obtain ⟨kvs₂, hkvs₂, -⟩ := (Option.any_eq_true _ _).mp hopens₂
  rw [events_of_dictOf hlines₁ hkvs₁, events_of_dictOf hlines₂ hkvs₂] at heq
  obtain rfl : kvs₁ = kvs₂ := PyJson.obj.inj (List.cons.inj heq).1
  exact hnames (by rw [hkvs₁, hkvs₂])

/-- The two files, and the two logs of the same object. -/
theorem head_hash_commits_smiles :
    ((events Runtime.reference .off (smileLine "event_hash" escapes)).map (PyJson.map PyStr.units) =
      (events Runtime.reference .off (smileLine "event_hash" surrogates)).map
        (PyJson.map PyStr.units)) ∧
    records Runtime.reference .off (smileLine "record_hash" escapes) =
      records Runtime.reference .off (smileLine "record_hash" surrogates) := by
  obtain ⟨haudit, hjournal⟩ := head_hash_commits Runtime.reference
  constructor
  · obtain ⟨⟨h₁, h₂⟩, hR⟩ := verify_smileLines
    exact haudit .off .off _ _ smileHash hR h₁ h₂
  · have hreplay : ∀ name ∈ [escapes, surrogates],
        (∃ cur, replay Runtime.reference .off ⟨"dev", 4, 4⟩ (smileLine "record_hash" name) =
            .ok (cur, none) ∧ cur.lastHash = smileHash) ∧
          recordTexts Runtime.reference .off (smileLine "record_hash" name) = [smileText] := by
      intro name hname
      obtain ⟨⟨hlines, hblank⟩, hbegins⟩ := begins_smileLine name hname
      exact replay_of_begins hexdigest_smileText hlines hblank hbegins
    obtain ⟨⟨cur₁, h₁, hhead₁⟩, htexts₁⟩ := hreplay escapes (by simp)
    obtain ⟨⟨cur₂, h₂, hhead₂⟩, htexts₂⟩ := hreplay surrogates (by simp)
    refine hjournal .off .off _ _ _ _ cur₁ cur₂ none none (distinguishes_smileText ?_) h₁ h₂
      (hhead₁.trans hhead₂.symm)
    rw [htexts₁, htexts₂]
    simp

end AnyFile

end AegisShield
