/-
# Operation after a maintenance

`exit_maintenance` returns the device to NORMAL and drops the sequence anchors.  The analyzer is
another object, and keeps what it has observed: the window still holds the incident that was
serviced.  A destructive command in it contains the device again at the first write
(`serviced_incident_contains_again`).

What an engine answers from then on is a function of its image and of its analyzer.  Two engines
with the same image and the same analyzer answer alike, whatever else they went through
(`same_memory_same_operation`).
-/
import AegisShield.Engine.JournalCalls
import AegisShield.Engine.SingleUse
import AegisShield.Detection.Policy

namespace AegisShield

open Lib

/-! ## 1. Answers -/

/-- A read or a write. -/
inductive IoCall
  | read (lba blocks : Int)
  | write (lba : Int) (payload : Bytes)

section Answers

variable {W : World}

/-- The call, as one of the engine's. -/
def IoCall.toCall : IoCall → EngineCall
  | .read lba blocks => .read lba blocks
  | .write lba payload => .write lba payload

/-- What a write decides or raises. -/
def IoCall.decision (s : Sys W) : IoCall → Option (Except Raised (Decision W.R))
  | .read _ _ => none
  | .write lba payload => some (s.write lba payload).1

/-- The decision of each write, and the state after each call. -/
def answers (s : Sys W) : List IoCall →
    List (Option (Except Raised (Decision W.R)) × AegisState)
  | [] => []
  | c :: cs =>
    let s' := (c.toCall.run s).2
    (c.decision s, s'.engine.state) :: answers s' cs

/-- **The same operation from here on**: any reads and writes are answered alike. -/
def SameOperation (s₁ s₂ : Sys W) : Prop := ∀ calls, answers s₁ calls = answers s₂ calls

/-- The geometry of the namespace is the same. -/
def SameGeometry (s₁ s₂ : Sys W) : Prop :=
  s₁.engine.journal.blocks = s₂.engine.journal.blocks ∧
    s₁.engine.journal.blockSize = s₂.engine.journal.blockSize

/-- The logical image is the same. -/
def SameImage (s₁ s₂ : Sys W) : Prop :=
  ∀ b < s₁.engine.journal.blocks,
    s₁.engine.journal.read W.R s₁.disk.root.toDir b 1 none =
      s₂.engine.journal.read W.R s₂.disk.root.toDir b 1 none

/-- The detector does not look at the time of an event. -/
def Detector.IgnoresTime {R : Runtime} (D : Detector R) : Prop :=
  ∀ a event before t, D.observe a { event with timestampNs := t } before = D.observe a event before

/-! ## 2. What a write answers -/

/-- What a write raises before it touches the journal. -/
def writeRefusal (md : Metadata) (state : AegisState) (lba : Int) (payload : Bytes) :
    Option Raised :=
  if state ∉ AegisState.writable then
    some (.permissionError s!"writes prohibited in {state.value}")
  else if payload.length % md.blockSize ≠ 0 then
    some (.valueError "payload must be block aligned")
  else
    match md.checkRange lba (payload.length / md.blockSize : Nat) with
    | .error e => some e
    | .ok () => none

variable {md : Metadata} {ws : List (Write md)} {es : List (AuditEntry W.R)} {s : Sys W}

theorem write_refused (h : Ledgers ws es s) {lba : Int} {payload : Bytes} {e : Raised}
    (hrefused : writeRefusal md s.engine.state lba payload = some e) :
    s.write lba payload = (.error e, s) := by
  have hmd : s.engine.journal.toMetadata = md := h.journal.metadata
  have hsize : s.engine.journal.blockSize = md.blockSize := congrArg Metadata.blockSize hmd
  unfold writeRefusal at hrefused
  unfold Sys.write
  split at hrefused
  · rename_i hstate
    rw [if_pos hstate]
    cases hrefused
    rfl
  rename_i hstate
  split at hrefused
  · rename_i haligned
    rw [if_neg hstate, hsize, if_pos haligned]
    cases hrefused
    rfl
  rename_i haligned
  rw [if_neg hstate, hsize, if_neg haligned]
  extract_lets blocks
  have hblocks : blocks = payload.length / md.blockSize := rfl
  split at hrefused
  · rename_i hrange
    cases hrefused
    have hread : s.engine.journal.read W.R s.disk.root.toDir lba blocks none = .error e := by
      rw [DurableJournal.read, hmd, hblocks]
      exact bind_of_error hrange
    rw [hread]
  · cases hrefused

/-- The write of a payload that is not refused. -/
theorem exists_write {state : AegisState} {lba : Int} {payload : Bytes}
    (h : writeRefusal md state lba payload = none) :
    state ∈ AegisState.writable ∧ ∃ w : Write md, lba = w.start ∧ payload = w.data := by
  unfold writeRefusal at h
  split at h
  · cases h
  rename_i hstate
  split at h
  · cases h
  rename_i haligned
  split at h
  · cases h
  rename_i hrange
  obtain ⟨h0, h1, h2⟩ := Metadata.checkRange_ok.mp hrange
  have hne : payload ≠ [] := by
    rintro rfl
    rw [List.length_nil, Nat.zero_div] at h1
    exact absurd h1 (by decide)
  refine ⟨not_not.mp hstate, ⟨lba.toNat, payload, hne, not_not.mp haligned, ?_⟩, ?_, rfl⟩
  · omega
  · change lba = (lba.toNat : Int)
    omega

/-- The state a decision leads to. -/
def AegisState.decided {R : Runtime} (state : AegisState) (decision : Decision R) : AegisState :=
  if decision.contain then contained
  else if decision.alert && state = normal then elevated else state

/-- The event of a write. -/
def writeEvent (md : Metadata) (lba : Int) (payload : Bytes) : IoEvent :=
  { kind := .write, lba := lba, blocks := (payload.length / md.blockSize : Nat), payload := payload }

/-- The analyzer after a write, with the image before it. -/
def Sys.observed (s : Sys W) (md : Metadata) (image : Nat → Bytes) (w : Write md) :
    W.detector.Analyzer :=
  W.detector.observe s.engine.analyzer (writeEvent md w.start w.data)
    (some (blocksOf image w.start w.count))

/-- A transition at the end of a write. -/
theorem transition_answer {m : Sys W} {target : AegisState} (h : target ∈ m.engine.state.allowed)
    (reason : String) (decision : Decision W.R) :
    (((m.transition target reason).1.map fun _ => decision) = .ok decision) ∧
      (m.transition target reason).2.engine.state = target ∧
      (m.transition target reason).2.engine.analyzer = m.engine.analyzer := by
  rw [Sys.transition_ok h, Sys.transition_eq h]
  exact ⟨rfl, rfl, rfl⟩

/-- The analyzer after a write at time `t`, with the bytes before it. -/
def Sys.observedAt (s : Sys W) (t : Nat) (lba : Int) (payload before : Bytes) :
    W.detector.Analyzer :=
  W.detector.observe s.engine.analyzer
    { writeEvent s.engine.journal.toMetadata lba payload with timestampNs := t } (some before)

/-- **What a recorded write answers**: the decision on the analyzer that has observed it. -/
theorem writeRecorded_decided (hstate : s.engine.state ∈ AegisState.writable) (lba : Int)
    (payload before line : Bytes) (journal : DurableJournal) :
    let r := s.writeRecorded lba payload before line journal
    ∃ t, r.1 = .ok (W.detector.evaluate (s.observedAt t lba payload before)) ∧
      r.2.engine.state =
        s.engine.state.decided (W.detector.evaluate (s.observedAt t lba payload before)) ∧
      r.2.engine.analyzer = s.observedAt t lba payload before := by
  intro r
  have hr : r = s.writeRecorded lba payload before line journal := rfl
  unfold Sys.writeRecorded at hr
  extract_lets blocks sequence event s1 s2 decision s3 at hr
  refine ⟨W.clock.timeNs s.ticks, ?_⟩
  have hobserved : s3.engine.analyzer = s.observedAt (W.clock.timeNs s.ticks) lba payload before := rfl
  have hdecision : decision =
      W.detector.evaluate (s.observedAt (W.clock.timeNs s.ticks) lba payload before) := rfl
  have hstate3 : s3.engine.state = s.engine.state := rfl
  rw [← hdecision]
  by_cases hcontain : decision.contain = true
  · rw [if_pos hcontain] at hr
    have hallowed : AegisState.contained ∈ (s3.withEngine fun e =>
        { e with containmentSequence := .int sequence }).engine.state.allowed :=
      AegisState.contained_allowed hstate
    obtain ⟨h1, h2, h3⟩ := transition_answer hallowed "policy threshold crossed" decision
    rw [hr]
    refine ⟨h1, h2.trans ?_, h3.trans hobserved⟩
    rw [AegisState.decided, if_pos hcontain]
  · rw [if_neg hcontain] at hr
    by_cases halert : (decision.alert && s3.engine.state = .normal) = true
    · rw [if_pos halert] at hr
      have hnormal : s3.engine.state = .normal := by
        rw [Bool.and_eq_true, decide_eq_true_eq] at halert
        exact halert.2
      have hallowed : AegisState.elevated ∈ s3.engine.state.allowed := by
        rw [hnormal]
        decide
      obtain ⟨h1, h2, h3⟩ := transition_answer hallowed "policy alert threshold crossed" decision
      rw [hr]
      refine ⟨h1, h2.trans ?_, h3.trans hobserved⟩
      rw [AegisState.decided, if_neg hcontain, ← hstate3, if_pos halert]
    · rw [if_neg halert] at hr
      rw [hr]
      refine ⟨rfl, ?_, hobserved⟩
      rw [AegisState.decided, if_neg hcontain, ← hstate3, if_neg halert]

/-- **What an accepted write answers.** -/
theorem writeRecorded_answer (htime : W.detector.IgnoresTime)
    (hstate : s.engine.state ∈ AegisState.writable) (hmd : s.engine.journal.toMetadata = md)
    (w : Write md) (image : Nat → Bytes) (line : Bytes) (journal : DurableJournal) :
    let r := s.writeRecorded w.start w.data (blocksOf image w.start w.count) line journal
    let decision := W.detector.evaluate (s.observed md image w)
    r.1 = .ok decision ∧ r.2.engine.state = s.engine.state.decided decision ∧
      r.2.engine.analyzer = s.observed md image w := by
  have hanalyzer : ∀ t, s.observedAt t w.start w.data (blocksOf image w.start w.count) =
      s.observed md image w := by
    intro t
    rw [Sys.observedAt, hmd]
    exact htime _ (writeEvent md w.start w.data) _ t
  obtain ⟨t, hok, hdecided, hobserved⟩ := writeRecorded_decided hstate w.start w.data
    (blocksOf image w.start w.count) line journal
  rw [hanalyzer t] at hok hdecided hobserved
  exact ⟨hok, hdecided, hobserved⟩

/-! ## 3. Two engines -/

/-- Two engines with the same image, the same analyzer and the same state. -/
structure Alike {d₁ d₂ : String} {blocks size : Nat} (ws₁ : List (Write ⟨d₁, blocks, size⟩))
    (ws₂ : List (Write ⟨d₂, blocks, size⟩)) (s₁ s₂ : Sys W) : Prop where
  good₁ : ∃ es p, Good ws₁ es p s₁
  good₂ : ∃ es p, Good ws₂ es p s₂
  image : ∀ b < blocks, imageOf s₁.disk.root.base ws₁ b = imageOf s₂.disk.root.base ws₂ b
  analyzer : s₁.engine.analyzer = s₂.engine.analyzer
  state : s₁.engine.state = s₂.engine.state

section Alike

variable {d₁ d₂ : String} {blocks size : Nat} {ws₁ : List (Write ⟨d₁, blocks, size⟩)}
  {ws₂ : List (Write ⟨d₂, blocks, size⟩)} {s₁ s₂ : Sys W}

theorem imageOf_concat (base : Bytes) (ws : List (Write md)) (w : Write md) :
    imageOf base (ws ++ [w]) = Patch.overwrite (imageOf base ws) w.patch := by
  rw [imageOf, imageOf, List.map_append, List.map_singleton, Patch.patched_concat]

/-- A call that leaves the journal alone leaves the invariant. -/
theorem Good.call_same {p : Saved W.R} (h : Good ws es p s) {c : EngineCall}
    (hsame : SameJournal s (c.run s).2) : ∃ es' p', Good ws es' p' (c.run s).2 := by
  obtain ⟨⟨ws', es', p', hgood⟩, -⟩ := c.good h
  refine ⟨es', p', hgood.of_canonical ?_⟩
  rw [hsame.journal, hsame.root]
  exact h.journal

theorem Good.write {p : Saved W.R} (h : Good ws es p s)
    (hstate : s.engine.state ∈ AegisState.writable) (w : Write md) :
    ∃ es' p', Good (ws ++ [w]) es' p' (s.write w.start w.data).2 := by
  obtain ⟨⟨ws', es', p', hgood⟩, -⟩ := EngineCall.good (.write w.start w.data) h
  exact ⟨es', p', hgood.of_canonical (write_records h.toLedgers hstate w)⟩

/-- **A read.** -/
theorem Alike.read (htime : W.detector.IgnoresTime) (h : Alike ws₁ ws₂ s₁ s₂) (lba n : Int) :
    Alike ws₁ ws₂ (s₁.read lba n).2 (s₂.read lba n).2 := by
  obtain ⟨es₁, p₁, h₁⟩ := h.good₁
  obtain ⟨es₂, p₂, h₂⟩ := h.good₂
  have hobserve : ∀ t, W.detector.observe s₁.engine.analyzer
        { kind := .read, lba := lba, blocks := n, timestampNs := t } none =
      W.detector.observe s₁.engine.analyzer { kind := .read, lba := lba, blocks := n } none :=
    fun t => htime _ { kind := .read, lba := lba, blocks := n } none t
  have hobserve₂ := hobserve
  rw [h.analyzer] at hobserve₂
  refine ⟨h₁.call_same (c := .read lba n) ⟨rfl, rfl⟩, h₂.call_same (c := .read lba n) ⟨rfl, rfl⟩,
    h.image, ?_, h.state⟩
  change W.detector.observe s₁.engine.analyzer _ none = W.detector.observe s₂.engine.analyzer _ none
  rw [hobserve, hobserve₂, h.analyzer]

/-- **A write.** -/
theorem Alike.write (htime : W.detector.IgnoresTime) (h : Alike ws₁ ws₂ s₁ s₂) (lba : Int)
    (payload : Bytes) : (s₁.write lba payload).1 = (s₂.write lba payload).1 ∧
      ∃ (ws₁' : List (Write ⟨d₁, blocks, size⟩)) (ws₂' : List (Write ⟨d₂, blocks, size⟩)),
        Alike ws₁' ws₂' (s₁.write lba payload).2 (s₂.write lba payload).2 := by
  obtain ⟨es₁, p₁, h₁⟩ := h.good₁
  obtain ⟨es₂, p₂, h₂⟩ := h.good₂
  cases hrefusal : writeRefusal ⟨d₁, blocks, size⟩ s₁.engine.state lba payload with
  | some e =>
    have hrefusal₂ : writeRefusal ⟨d₂, blocks, size⟩ s₂.engine.state lba payload = some e := by
      rw [← h.state]
      exact hrefusal
    rw [write_refused h₁.toLedgers hrefusal, write_refused h₂.toLedgers hrefusal₂]
    exact ⟨rfl, ws₁, ws₂, h⟩
  | none =>
    obtain ⟨hstate, w₁, rfl, rfl⟩ := exists_write hrefusal
    -- the checks do not read the device's name, so the other journal takes the same write
    let w₂ : Write ⟨d₂, blocks, size⟩ := ⟨w₁.start, w₁.data, w₁.nonempty, w₁.aligned, w₁.inRange⟩
    have hstate₂ : s₂.engine.state ∈ AegisState.writable := by
      rw [← h.state]
      exact hstate
    have hbefore : blocksOf (imageOf s₁.disk.root.base ws₁) w₁.start w₁.count =
        blocksOf (imageOf s₂.disk.root.base ws₂) w₂.start w₂.count := by
      have hrange : w₁.start + w₁.count ≤ blocks := w₁.inRange
      exact blocksOf_congr fun b _ hb => h.image b (by omega)
    have hobserved : s₁.observed ⟨d₁, blocks, size⟩ (imageOf s₁.disk.root.base ws₁) w₁ =
        s₂.observed ⟨d₂, blocks, size⟩ (imageOf s₂.disk.root.base ws₂) w₂ := by
      rw [Sys.observed, Sys.observed, hbefore, h.analyzer]
      rfl
    obtain ⟨ha₁, hb₁, hc₁⟩ := writeRecorded_answer htime hstate h₁.journal.metadata w₁
      (imageOf s₁.disk.root.base ws₁) (w₁.line W.R (cursorOf W.R ws₁)) (s₁.journalWith ws₁ w₁)
    obtain ⟨ha₂, hb₂, hc₂⟩ := writeRecorded_answer htime hstate₂ h₂.journal.metadata w₂
      (imageOf s₂.disk.root.base ws₂) (w₂.line W.R (cursorOf W.R ws₂)) (s₂.journalWith ws₂ w₂)
    rw [← write_eq h₁.toLedgers hstate w₁] at ha₁ hb₁ hc₁
    rw [← write_eq h₂.toLedgers hstate₂ w₂] at ha₂ hb₂ hc₂
    refine ⟨?_, ws₁ ++ [w₁], ws₂ ++ [w₂], h₁.write hstate w₁, h₂.write hstate₂ w₂, ?_, ?_, ?_⟩
    · exact ha₁.trans ((congrArg (fun a => Except.ok (W.detector.evaluate a)) hobserved).trans
        ha₂.symm)
    · intro b hb
      have hbase₁ := (write_extends h₁.toLedgers w₁.start w₁.data).base
      have hbase₂ := (write_extends h₂.toLedgers w₂.start w₂.data).base
      have hpatch : w₁.patch = w₂.patch := rfl
      rw [hbase₁, hbase₂, imageOf_concat, imageOf_concat, hpatch, Patch.overwrite, Patch.overwrite,
        h.image b hb]
    · exact hc₁.trans (hobserved.trans hc₂.symm)
    · rw [← hobserved, ← h.state] at hb₂
      exact hb₁.trans hb₂.symm

/-- **Any reads and writes are answered alike.** -/
theorem Alike.sameOperation (htime : W.detector.IgnoresTime) (h : Alike ws₁ ws₂ s₁ s₂) :
    SameOperation s₁ s₂ := by
  intro calls
  induction calls generalizing ws₁ ws₂ s₁ s₂ with
  | nil => rfl
  | cons c calls ih =>
    cases c with
    | read lba n =>
      have h' := h.read htime lba n
      exact congrArg₂ List.cons (Prod.ext rfl h'.state) (ih h')
    | write lba payload =>
      obtain ⟨hdecision, ws₁', ws₂', h'⟩ := h.write htime lba payload
      exact congrArg₂ List.cons (Prod.ext (congrArg some hdecision) h'.state) (ih h')

end Alike

/-! ## 4. Leaving a maintenance -/

theorem leaveMaintenance_spec {m : Sys W} (hstate : m.engine.state = .maintenance)
    (name : Option String) : (m.leaveMaintenance name).2.engine.state = .normal ∧
      (m.leaveMaintenance name).2.engine.analyzer = m.engine.analyzer := by
  unfold Sys.leaveMaintenance
  extract_lets r
  have hallowed : AegisState.normal ∈ (m.withEngine fun e =>
      { e with containmentSequence := .null, recoverySequence := .null }).engine.state.allowed := by
    change AegisState.normal ∈ m.engine.state.allowed
    rw [hstate]
    decide
  have hr : r.2 = _ := Sys.transition_eq hallowed "maintenance complete"
  rw [hr]
  exact ⟨rfl, rfl⟩

theorem leaveMaintenance_ok {m : Sys W} (hstate : m.engine.state = .maintenance)
    (name : Option String) : (m.leaveMaintenance name).1 = .ok name := by
  have hallowed : AegisState.normal ∈ (m.withEngine fun e =>
      { e with containmentSequence := .null, recoverySequence := .null }).engine.state.allowed := by
    change AegisState.normal ∈ m.engine.state.allowed
    rw [hstate]
    decide
  rw [Sys.leaveMaintenance]
  dsimp only
  rw [Sys.transition_ok hallowed]
  rfl

theorem compactJournal_frame (s : Sys W) (label : String) :
    (s.compactJournal label).2.engine.state = s.engine.state ∧
      (s.compactJournal label).2.engine.analyzer = s.engine.analyzer := by
  unfold Sys.compactJournal
  split
  · exact ⟨rfl, rfl⟩
  extract_lets name
  obtain ⟨⟨journal, hengine⟩, -⟩ := s.tick.compactFiles_frame name
  split
  · rename_i e m hm
    rw [hm] at hengine
    dsimp only at hengine ⊢
    rw [hengine]
    exact ⟨rfl, rfl⟩
  · rename_i m hm
    rw [hm] at hengine
    dsimp only at hengine
    have hstate : m.engine.state = s.engine.state := by rw [hengine]; rfl
    have hanalyzer : m.engine.analyzer = s.engine.analyzer := by rw [hengine]; rfl
    exact ⟨hstate, hanalyzer⟩

/-- **A completed `exit_maintenance`** leads to NORMAL, and the analyzer is what it was. -/
theorem exitMaintenance_ok {t : Sys W} {compact : Bool} {name : Option String}
    (h : (t.exitMaintenance compact).1 = .ok name) :
    (t.exitMaintenance compact).2.engine.state = .normal ∧
      (t.exitMaintenance compact).2.engine.analyzer = t.engine.analyzer := by
  unfold Sys.exitMaintenance at h ⊢
  split at h
  · cases h
  rename_i hstate
  rw [if_neg hstate]
  split at h
  · rename_i hcompact
    rw [if_pos hcompact]
    obtain ⟨hs, ha⟩ := compactJournal_frame t "pre-maintenance"
    split at h
    · cases h
    · rename_i name' m hm
      rw [hm] at hs ha
      obtain ⟨hs', ha'⟩ := leaveMaintenance_spec (hs.trans (not_not.mp hstate)) (some name')
      exact ⟨hs', ha'.trans ha⟩
  · rename_i hcompact
    rw [if_neg hcompact]
    exact leaveMaintenance_spec (not_not.mp hstate) none

/-- Two reachable engines in the same state, with the same image and the same analyzer. -/
theorem Reachable.sameOperation {s₁ s₂ : Sys W} (htime : W.detector.IgnoresTime)
    (h₁ : Reachable W (.on s₁)) (h₂ : Reachable W (.on s₂)) (hgeometry : SameGeometry s₁ s₂)
    (himage : SameImage s₁ s₂) (hanalyzer : s₁.engine.analyzer = s₂.engine.analyzer)
    (hstate : s₁.engine.state = s₂.engine.state) : SameOperation s₁ s₂ := by
  obtain ⟨⟨d₁, blocks₁, size₁⟩, ws₁, es₁, p₁, hgood₁⟩ := h₁.good
  obtain ⟨⟨d₂, blocks₂, size₂⟩, ws₂, es₂, p₂, hgood₂⟩ := h₂.good
  have hblocks₁ : s₁.engine.journal.blocks = blocks₁ :=
    congrArg Metadata.blocks hgood₁.journal.metadata
  obtain rfl : blocks₁ = blocks₂ :=
    hblocks₁.symm.trans (hgeometry.1.trans (congrArg Metadata.blocks hgood₂.journal.metadata))
  obtain rfl : size₁ = size₂ := (congrArg Metadata.blockSize hgood₁.journal.metadata).symm.trans
    (hgeometry.2.trans (congrArg Metadata.blockSize hgood₂.journal.metadata))
  have himages : ∀ b < blocks₁, imageOf s₁.disk.root.base ws₁ b =
      imageOf s₂.disk.root.base ws₂ b := by
    intro b hb
    have hread := himage b (by rw [hblocks₁]; exact hb)
    have hread₁ := hgood₁.journal.read_current (b := b) (c := 1) (Nat.le_refl 1) hb
    have hread₂ := hgood₂.journal.read_current (b := b) (c := 1) (Nat.le_refl 1) hb
    rw [blocksOf_one] at hread₁ hread₂
    exact Except.ok.inj (hread₁.symm.trans (hread.trans hread₂))
  have halike : Alike ws₁ ws₂ s₁ s₂ :=
    ⟨⟨es₁, p₁, hgood₁⟩, ⟨es₂, p₂, hgood₂⟩, himages, hanalyzer, hstate⟩
  exact halike.sameOperation htime

end Answers

/-! ## 5. Main results -/

section Deployed

variable (R : Runtime) [Arith R.Float] (log2 : R.Float → R.Float) (policy : Policy R.Float)
  (clock : Clock)

/-- A deployment: the analyzer, a policy, and a clock. -/
abbrev World.deployed : World where
  R := R
  detector := Detector.windowed R log2 policy
  clock := clock
  auditStem := "audit"
  auditSuffix := ".jsonl"

theorem windowed_ignoresTime : (Detector.windowed R log2 policy).IgnoresTime :=
  fun _ _ _ _ => rfl

variable {R log2 policy clock}

/-- **Leaving maintenance returns two devices to the same operation** if their analyzers hold the
same observations. -/
theorem same_memory_same_operation {t₁ t₂ : Sys (World.deployed R log2 policy clock)}
    (h₁ : Reachable _ (.on t₁)) (h₂ : Reachable _ (.on t₂)) {compact₁ compact₂ : Bool}
    {name₁ name₂ : Option String} (hexit₁ : (t₁.exitMaintenance compact₁).1 = .ok name₁)
    (hexit₂ : (t₂.exitMaintenance compact₂).1 = .ok name₂)
    (hgeometry : SameGeometry (t₁.exitMaintenance compact₁).2 (t₂.exitMaintenance compact₂).2)
    (himage : SameImage (t₁.exitMaintenance compact₁).2 (t₂.exitMaintenance compact₂).2)
    (hmemory : t₁.engine.analyzer = t₂.engine.analyzer) :
    SameOperation (t₁.exitMaintenance compact₁).2 (t₂.exitMaintenance compact₂).2 := by
  obtain ⟨hstate₁, hanalyzer₁⟩ := exitMaintenance_ok hexit₁
  obtain ⟨hstate₂, hanalyzer₂⟩ := exitMaintenance_ok hexit₂
  have hon₁ : Reachable _ (.on (t₁.exitMaintenance compact₁).2) := h₁.call (.exitMaintenance compact₁)
  have hon₂ : Reachable _ (.on (t₂.exitMaintenance compact₂).2) := h₂.call (.exitMaintenance compact₂)
  exact hon₁.sameOperation (windowed_ignoresTime R log2 policy) hon₂ hgeometry himage
    (hanalyzer₁.trans (hmemory.trans hanalyzer₂.symm)) (hstate₁.trans hstate₂.symm)

end Deployed

/-! ## 6. An incident that was serviced -/

section Serviced

variable {W : World}

/-- The authorization to enter MAINTENANCE at a version. -/
def maintenanceAt (version : Int) : RecoveryAuthorization :=
  ⟨"enter_maintenance", "dev", 600, 0, "n-1", version, none⟩

/-- `enter_maintenance` with a token for the engine's version, signed by the service key. -/
def Sys.serviced (s : Sys W) : Sys W :=
  (s.enterMaintenance (signAuthorization W.R id (maintenanceAt s.engine.stateVersion)) serviceKey
    true (some 0)).2

/-- The device enters MAINTENANCE, and keeps its journal and its analyzer. -/
theorem Sys.serviced_spec {s : Sys W} (hstate : s.engine.state ∈ AegisState.maintenanceEntry)
    (hnonces : s.engine.usedNonces = []) (hdevice : s.engine.journal.deviceId = "dev") :
    s.serviced.engine.state = .maintenance ∧ s.serviced.engine.analyzer = s.engine.analyzer ∧
      SameJournal s s.serviced := by
  let a := maintenanceAt s.engine.stateVersion
  let token := signAuthorization W.R id a
  have hauth : serviceKey.authenticate W.R token = some a :=
    authenticate_sign (fun _ => decide_eq_true rfl) a
  have hverify : serviceKey.verify W.R token s.engine.journal.deviceId "enter_maintenance"
      s.engine.stateVersion (s.currentTime (some 0)) = .ok a := by
    rw [hdevice]
    have hissued : (0 : Int) ≤ 0 + 60 := by decide
    have hexpires : (0 : Int) ≤ 600 := by decide
    have hlifetime : (600 : Int) - 0 ≤ 900 := by decide
    exact TokenVerifier.verify_of_authenticate hauth 0 hissued hexpires hlifetime
  have hnonce : (s.engine.usedNonces.get a.nonce).isSome = false := by
    rw [hnonces]
    rfl
  have hrun : s.serviced = _ := congrArg Prod.snd (s.enterMaintenance_eq hstate hverify hnonce)
  refine ⟨?_, ?_, SameJournal.enterMaintenance s _ _ _ _⟩
  · rw [hrun, Sys.transition_eq (by exact AegisState.maintenance_allowed hstate)]
    rfl
  · rw [hrun, Sys.transition_eq (by exact AegisState.maintenance_allowed hstate)]
    rfl

/-- `exit_maintenance` without a compaction. -/
theorem exitMaintenance_false {t : Sys W} (hstate : t.engine.state = .maintenance) :
    (t.exitMaintenance false).1 = .ok none ∧ SameJournal t (t.exitMaintenance false).2 := by
  have hexit : t.exitMaintenance false = t.leaveMaintenance none := by
    rw [Sys.exitMaintenance, if_neg (not_not.mpr hstate)]
    rfl
  rw [hexit]
  exact ⟨leaveMaintenance_ok hstate none, SameJournal.leaveMaintenance t none⟩

/-- **A service, from end to end**: NORMAL again, with the old analyzer. -/
theorem Sys.serviced_exit {s : Sys W} (hstate : s.engine.state ∈ AegisState.maintenanceEntry)
    (hnonces : s.engine.usedNonces = []) (hdevice : s.engine.journal.deviceId = "dev") :
    (s.serviced.exitMaintenance false).1 = .ok none ∧
      (s.serviced.exitMaintenance false).2.engine.state = .normal ∧
      (s.serviced.exitMaintenance false).2.engine.analyzer = s.engine.analyzer ∧
      SameJournal s (s.serviced.exitMaintenance false).2 := by
  obtain ⟨hmaintenance, hanalyzer, hsame⟩ := s.serviced_spec hstate hnonces hdevice
  obtain ⟨hok, hsame'⟩ := exitMaintenance_false hmaintenance
  obtain ⟨hnormal, hanalyzer'⟩ := exitMaintenance_ok hok
  exact ⟨hok, hnormal, hanalyzer'.trans hanalyzer, hsame.trans hsame'⟩

/-- A flush leaves all of this alone. -/
theorem flush_frame (s : Sys W) : s.flush.2.engine.state = s.engine.state ∧
    s.flush.2.engine.usedNonces = s.engine.usedNonces ∧
    s.flush.2.engine.analyzer = s.engine.analyzer ∧ SameJournal s s.flush.2 :=
  ⟨rfl, rfl, rfl, rfl, rfl⟩

theorem Good.serviced_exit {md : Metadata} {ws : List (Write md)} {es : List (AuditEntry W.R)}
    {p : Saved W.R} {s : Sys W} (h : Good ws es p s) :
    ∃ (ws' : List (Write md)) (es' : _) (p' : _),
      Good ws' es' p' (s.serviced.exitMaintenance false).2 := by
  obtain ⟨⟨ws₁, es₁, p₁, h₁⟩, -⟩ := EngineCall.good (.enterMaintenance
    (signAuthorization W.R id (maintenanceAt s.engine.stateVersion)) serviceKey true (some 0)) h
  obtain ⟨h₂, -⟩ := EngineCall.good (.exitMaintenance false) h₁
  exact h₂

theorem Reachable.serviced {s : Sys W} (h : Reachable W (.on s)) : Reachable W (.on s.serviced) :=
  h.call (.enterMaintenance (signAuthorization W.R id (maintenanceAt s.engine.stateVersion))
    serviceKey true (some 0))

theorem SameJournal.sameImage {s s₁ s₂ : Sys W} (h₁ : SameJournal s s₁) (h₂ : SameJournal s s₂) :
    SameGeometry s₁ s₂ ∧ SameImage s₁ s₂ := by
  have hjournal : s₁.engine.journal = s₂.engine.journal := h₁.journal.trans h₂.journal.symm
  have hroot : s₁.disk.root = s₂.disk.root := h₁.root.trans h₂.root.symm
  refine ⟨⟨by rw [hjournal], by rw [hjournal]⟩, fun b _ => ?_⟩
  rw [hjournal, hroot]

/-- A rejected command is observed, and spends no nonce. -/
theorem Sys.rejectDestructiveCommand_spec {s : Sys W} (hstate : s.engine.state = .normal)
    (hnonces : s.engine.usedNonces = []) (opcode : Int) (name : String) :
    let t := (s.rejectDestructiveCommand opcode name).2
    t.engine.state = .contained ∧ t.engine.usedNonces = [] ∧
      t.engine.analyzer = W.detector.observe s.engine.analyzer
        { kind := .admin, opcode := some opcode, timestampNs := W.clock.timeNs s.ticks } none := by
  intro t
  have hwritable : s.engine.state ∈ AegisState.writable := by
    rw [hstate]
    decide
  have ht : t = (s.rejectDestructiveCommand opcode name).2 := rfl
  unfold Sys.rejectDestructiveCommand at ht
  extract_lets event s1 decision s2 at ht
  have hwritable₂ : s2.engine.state ∈ AegisState.writable := hwritable
  rw [if_pos hwritable₂] at ht
  dsimp only at ht
  rw [Sys.transition_eq (by exact AegisState.contained_allowed hwritable)] at ht
  obtain ⟨current, hpruned⟩ : ∃ current : Int,
      t.engine.usedNonces = pruneDict current s.engine.usedNonces := by
    rw [ht]
    exact ⟨_, rfl⟩
  refine ⟨by rw [ht]; rfl, ?_, by rw [ht]; rfl⟩
  rw [hpruned, hnonces]
  rfl

section Window

variable {R : Runtime} [Arith R.Float] {log2 : R.Float → R.Float} {policy : Policy R.Float}
  {clock : Clock} {md : Metadata} {ws : List (Write md)} {es : List (AuditEntry R)} {p : Saved R}
  {s : Sys (World.deployed R log2 policy clock)} {a : WindowAnalyzer R.Float}

/-- **What a write finds**: its observation joins those in the window, and the policy decides on
all of them. -/
theorem write_in_window (h : Good ws es p s) (hstate : s.engine.state ∈ AegisState.writable)
    (w : Write md) (ha : s.engine.analyzer = a)
    (hroom : a.window.length < a.config.windowOperations) :
    ∃ (a' : WindowAnalyzer R.Float) (o : Observation R.Float),
      a'.window = a.window ++ [o] ∧ o.destructive = false ∧
      (s.write w.start w.data).2.engine.state =
        s.engine.state.decided (policy.evaluate a'.snapshot).toDecision := by
  have hlength : (blocksOf (imageOf s.disk.root.base ws) w.start w.count).length =
      w.data.length := by
    have hrange : w.start + w.count ≤ md.blocks := w.inRange
    rw [w.length_data]
    exact length_flatten_blocks _ w.start w.count fun i _ hi =>
      length_imageOf h.journal.size ws (by omega)
  have hbefore : ∀ bytes ∈ some (blocksOf (imageOf s.disk.root.base ws) w.start w.count),
      bytes.length = (writeEvent md w.start w.data).payload.length := by
    intro bytes hbytes
    obtain rfl := Option.mem_some_iff.mp hbytes
    exact hlength
  obtain ⟨o, hobserve, hdestructive⟩ := Detector.windowed_observe R log2 policy a
    (writeEvent md w.start w.data) _ hbefore
  obtain ⟨-, hwrite, -⟩ := writeRecorded_answer (windowed_ignoresTime R log2 policy) hstate
    h.journal.metadata w (imageOf s.disk.root.base ws) (w.line R (cursorOf R ws))
    (s.journalWith ws w)
  rw [← write_eq h.toLedgers hstate w] at hwrite
  let event := writeEvent md w.start w.data
  have hwindow : (a.record event o).window = a.window ++ [o] :=
    WindowAnalyzer.record_window hroom event o
  refine ⟨a.record event o, o, hwindow, hdestructive, ?_⟩
  rw [hwrite, Sys.observed, ha, hobserve]
  rfl

/-- A short window without a destructive command: a write changes no state. -/
theorem write_short_window (h : Good ws es p s) (hstate : s.engine.state ∈ AegisState.writable)
    (w : Write md) (ha : s.engine.analyzer = a)
    (hroom : a.window.length < a.config.windowOperations)
    (hclear : ∀ o ∈ a.window, o.destructive = false)
    (hshort : (a.window.length + 1 : Int) < policy.config.minimumOperations) :
    (s.write w.start w.data).2.engine.state = s.engine.state := by
  obtain ⟨a', o, hwindow, hdestructive, hwrite⟩ := write_in_window h hstate w ha hroom
  have hunseen : a'.snapshot.destructiveCommandSeen = false := by
    simp only [WindowAnalyzer.snapshot, hwindow, List.any_append, List.any_cons, List.any_nil,
      hdestructive, Bool.or_false]
    exact List.any_eq_false.mpr fun o ho => by simp [hclear o ho]
  have hoperations : (a'.snapshot.operations : Int) < policy.config.minimumOperations := by
    simp only [WindowAnalyzer.snapshot, hwindow, List.length_append, List.length_singleton]
    exact hshort
  obtain ⟨halert, hcontain⟩ := policy.evaluate_short hunseen hoperations
  rw [hwrite, AegisState.decided]
  simp [Verdict.toDecision, halert, hcontain]

/-- **A destructive command in the window: the next write contains**, whoever serviced it. -/
theorem write_incident_window (h : Good ws es p s) (hstate : s.engine.state ∈ AegisState.writable)
    (w : Write md) (ha : s.engine.analyzer = a)
    (hroom : a.window.length < a.config.windowOperations) {o : Observation R.Float}
    (ho : o ∈ a.window) (hdestructive : o.destructive = true)
    (henabled : policy.config.containmentEnabled = true) :
    (s.write w.start w.data).2.engine.state = .contained := by
  obtain ⟨a', o', hwindow, -, hwrite⟩ := write_in_window h hstate w ha hroom
  have hseen : a'.snapshot.destructiveCommandSeen = true := by
    refine List.any_eq_true.mpr ⟨o, ?_, hdestructive⟩
    rw [hwindow]
    exact List.mem_append_left _ ho
  obtain ⟨-, hcontain⟩ := policy.evaluate_destructive hseen
  rw [hwrite, AegisState.decided]
  exact if_pos (hcontain.trans henabled)

end Window

end Serviced

instance : Arith Runtime.reference.Float := inferInstanceAs (Arith TextFloat)

/-- The reference runtime with the analyzer and the default policy, and a clock that stands still. -/
abbrev World.standard : World :=
  World.deployed Runtime.reference TextFloat.log2 Policy.standard ⟨fun _ => 0, fun _ => 0⟩

/-- The first boot in it. -/
abbrev standardBoot (dir : Dir) : Sys World.standard :=
  Sys.firstBoot World.standard ⟨"dev", 4, 512⟩ 0 dir

theorem reachable_standardBoot {dir : Dir}
    (h : provision World.standard.R 4 512 "dev" = .ok dir) :
    Reachable World.standard (.on (standardBoot dir)) :=
  .opened (.provisioned 0 h) (reopen_fresh h 0).1

/-- A device that was serviced for a rejected command, and the same one with a flush before: both
analyzers hold the command. -/
theorem same_memory_same_operation_flushed : ∃ dir : Dir,
    provision World.standard.R 4 512 "dev" = .ok dir ∧
    ∃ s t₁ t₂ : Sys World.standard,
      s = ((standardBoot dir).rejectDestructiveCommand 128 "format").2 ∧
      s.engine.analyzer = World.standard.detector.observe (standardBoot dir).engine.analyzer
        { kind := .admin, opcode := some 128 } none ∧
      t₁ = s.serviced ∧ t₂ = s.flush.2.serviced ∧
      SameOperation (t₁.exitMaintenance false).2 (t₂.exitMaintenance false).2 := by
  obtain ⟨dir, hdir⟩ := provision_four_blocks
  have hon := (reachable_standardBoot hdir).call (.rejectDestructiveCommand 128 "format")
  obtain ⟨hcontained, hnonces, hobserved⟩ := (standardBoot dir).rejectDestructiveCommand_spec rfl
    rfl 128 "format"
  have hrejected := SameJournal.rejectDestructiveCommand (standardBoot dir) 128 "format"
  obtain ⟨-, es, p, hsaved⟩ := reopen_fresh (W := World.standard) hdir 0
  have hdevice : ((standardBoot dir).rejectDestructiveCommand 128 "format").2.engine.journal.deviceId =
      "dev" := by
    rw [hrejected.journal]
    exact congrArg Metadata.deviceId hsaved.toGood.journal.metadata
  refine ⟨dir, hdir, _, _, _, rfl, hobserved, rfl, rfl, ?_⟩
  change Reachable World.standard
    (.on ((standardBoot dir).rejectDestructiveCommand 128 "format").2) at hon
  generalize ((standardBoot dir).rejectDestructiveCommand 128 "format").2 = s at *
  have hentry : s.engine.state ∈ AegisState.maintenanceEntry := by
    rw [hcontained]
    decide
  obtain ⟨hstate', hnonces', hanalyzer', hflush⟩ := flush_frame s
  obtain ⟨hok₁, -, -, hsame₁⟩ := s.serviced_exit hentry hnonces hdevice
  obtain ⟨-, hanalyzer₁, -⟩ := s.serviced_spec hentry hnonces hdevice
  rw [← hstate'] at hentry
  rw [← hnonces'] at hnonces
  rw [← hflush.journal] at hdevice
  obtain ⟨hok₂, -, -, hsame₂⟩ := s.flush.2.serviced_exit hentry hnonces hdevice
  obtain ⟨-, hanalyzer₂, -⟩ := s.flush.2.serviced_spec hentry hnonces hdevice
  obtain ⟨hgeometry, himage⟩ := hsame₁.sameImage (hflush.trans hsame₂)
  exact same_memory_same_operation hon.serviced (hon.call .flush).serviced hok₁ hok₂ hgeometry
    himage (hanalyzer₁.trans (hanalyzer₂.trans hanalyzer').symm)

/-- Two devices of which one contains itself on a write answer differently. -/
theorem not_sameOperation {t₁ t₂ : Sys W} {lba : Int} {payload : Bytes}
    (h₁ : (t₁.write lba payload).2.engine.state = .normal)
    (h₂ : (t₂.write lba payload).2.engine.state = .contained) : ¬ SameOperation t₁ t₂ := by
  intro hoperation
  have hanswers := hoperation [.write lba payload]
  have hstates : (t₁.write lba payload).2.engine.state = (t₂.write lba payload).2.engine.state :=
    congrArg Prod.snd (List.cons.inj hanswers).1
  rw [h₁, h₂] at hstates
  cases hstates

/-- Two devices that were serviced, one of them for a rejected command, answer differently. -/
theorem serviced_devices_differ {es : List (AuditEntry World.standard.R)}
    {p : Saved World.standard.R} {s : Sys World.standard} (hon : Reachable _ (.on s))
    (h : Good ([] : List (Write ⟨"dev", 4, 512⟩)) es p s) (hstate : s.engine.state = .normal)
    (hnonces : s.engine.usedNonces = [])
    (hanalyzer : s.engine.analyzer = (WindowAnalyzer.new (AnalyzerConfig.forNamespace 4) :
      WindowAnalyzer Runtime.reference.Float)) :
    ∃ t₁ t₂ : Sys World.standard, t₁ = s.serviced ∧
      t₂ = (s.rejectDestructiveCommand 128 "format").2.serviced ∧
      Reachable World.standard (.on t₁) ∧ Reachable World.standard (.on t₂) ∧
      (t₁.exitMaintenance false).1 = .ok none ∧ (t₂.exitMaintenance false).1 = .ok none ∧
      SameGeometry (t₁.exitMaintenance false).2 (t₂.exitMaintenance false).2 ∧
      SameImage (t₁.exitMaintenance false).2 (t₂.exitMaintenance false).2 ∧
      ((t₁.exitMaintenance false).2.write sevens.start sevens.data).2.engine.state = .normal ∧
      ((t₂.exitMaintenance false).2.write sevens.start sevens.data).2.engine.state = .contained ∧
      ¬ SameOperation (t₁.exitMaintenance false).2 (t₂.exitMaintenance false).2 := by
  have hdevice : s.engine.journal.deviceId = "dev" :=
    congrArg Metadata.deviceId h.journal.metadata
  -- a service for nothing
  have hentry : s.engine.state ∈ AegisState.maintenanceEntry := by
    rw [hstate]
    decide
  obtain ⟨hok₁, hnormal₁, hanalyzer₁, hsame₁⟩ := s.serviced_exit hentry hnonces hdevice
  -- a service for a rejected command
  let r := (s.rejectDestructiveCommand 128 "format").2
  obtain ⟨hcontained, hnonces', hobserved⟩ := s.rejectDestructiveCommand_spec hstate hnonces 128
    "format"
  have hsame : SameJournal s r := SameJournal.rejectDestructiveCommand s 128 "format"
  have hentry' : r.engine.state ∈ AegisState.maintenanceEntry := by
    rw [hcontained]
    decide
  have hdevice' : r.engine.journal.deviceId = "dev" := by
    rw [hsame.journal]
    exact hdevice
  obtain ⟨hok₂, hnormal₂, hanalyzer₂, hsame₂⟩ := r.serviced_exit hentry' hnonces' hdevice'
  obtain ⟨hgeometry, himage⟩ := hsame₁.sameImage (hsame.trans hsame₂)
  have hwritable : ∀ {m : Sys World.standard}, m.engine.state = .normal →
      m.engine.state ∈ AegisState.writable := by
    intro m hm
    rw [hm]
    decide
  have hquiet : ((s.serviced.exitMaintenance false).2.write sevens.start
      sevens.data).2.engine.state = .normal := by
    obtain ⟨ws₁, es₁, p₁, hgood₁⟩ := h.serviced_exit
    have hunchanged := write_short_window hgood₁ (hwritable hnormal₁) sevens
      (hanalyzer₁.trans hanalyzer) (by decide) (fun o ho => absurd ho List.not_mem_nil) (by decide)
    exact hunchanged.trans hnormal₁
  have hagain : (((s.rejectDestructiveCommand 128 "format").2.serviced.exitMaintenance
      false).2.write sevens.start sevens.data).2.engine.state = .contained := by
    obtain ⟨⟨ws₀, es₀, p₀, hgood₀⟩, -⟩ := EngineCall.good (.rejectDestructiveCommand 128 "format") h
    have hrejected : Good ws₀ es₀ p₀ (s.rejectDestructiveCommand 128 "format").2 := hgood₀
    obtain ⟨ws₂, es₂, p₂, hgood₂⟩ := hrejected.serviced_exit
    let event : IoEvent :=
      { kind := .admin, opcode := some 128, timestampNs := World.standard.clock.timeNs s.ticks }
    let fresh : WindowAnalyzer Runtime.reference.Float :=
      WindowAnalyzer.new (AnalyzerConfig.forNamespace 4)
    obtain ⟨o, hrecord, hdestructive⟩ := Detector.windowed_observe Runtime.reference TextFloat.log2
      Policy.standard fresh event none (by intro bytes hbytes; cases hbytes)
    have hlater : ((s.rejectDestructiveCommand 128 "format").2.serviced.exitMaintenance
        false).2.engine.analyzer = fresh.record event o := by
      rw [hanalyzer₂, hobserved, hanalyzer]
      exact hrecord
    have hwindow : (fresh.record event o).window = [o] :=
      WindowAnalyzer.record_window (by decide) event o
    have hroom : (fresh.record event o).window.length <
        (fresh.record event o).config.windowOperations := by
      rw [hwindow]
      exact (by decide : 1 < 128)
    have hincident : o ∈ (fresh.record event o).window := by
      rw [hwindow]
      exact List.mem_singleton_self o
    have hwrite : ∀ {u : Sys World.standard}, Good ws₂ es₂ p₂ u → u.engine.state = .normal →
        u.engine.analyzer = fresh.record event o →
        (u.write sevens.start sevens.data).2.engine.state = .contained := by
      intro u hgood hnormal hanalyzer
      exact write_incident_window hgood (hwritable hnormal) sevens hanalyzer hroom hincident
        hdestructive rfl
    exact hwrite hgood₂ hnormal₂ hlater
  refine ⟨_, _, rfl, rfl, hon.serviced,
    (hon.call (.rejectDestructiveCommand 128 "format")).serviced, hok₁, hok₂, hgeometry, himage,
    hquiet, hagain, not_sameOperation hquiet hagain⟩

/-- **An incident that was serviced contains the device again.**  Two devices with the same policy
and the same image have just completed `exit_maintenance`: one went through it for nothing, the
other for a rejected command.  The first write leaves the one in NORMAL and contains the other. -/
theorem serviced_incident_contains_again : ∃ dir : Dir,
    provision World.standard.R 4 512 "dev" = .ok dir ∧
    ∃ t₁ t₂ : Sys World.standard, t₁ = (standardBoot dir).serviced ∧
      t₂ = ((standardBoot dir).rejectDestructiveCommand 128 "format").2.serviced ∧
      Reachable World.standard (.on t₁) ∧ Reachable World.standard (.on t₂) ∧
      (t₁.exitMaintenance false).1 = .ok none ∧ (t₂.exitMaintenance false).1 = .ok none ∧
      SameGeometry (t₁.exitMaintenance false).2 (t₂.exitMaintenance false).2 ∧
      SameImage (t₁.exitMaintenance false).2 (t₂.exitMaintenance false).2 ∧
      ((t₁.exitMaintenance false).2.write sevens.start sevens.data).2.engine.state = .normal ∧
      ((t₂.exitMaintenance false).2.write sevens.start sevens.data).2.engine.state = .contained ∧
      ¬ SameOperation (t₁.exitMaintenance false).2 (t₂.exitMaintenance false).2 := by
  obtain ⟨dir, hdir⟩ := provision_four_blocks
  obtain ⟨-, es, p, hsaved⟩ := reopen_fresh (W := World.standard) hdir 0
  have hstate : (standardBoot dir).engine.state = .normal := rfl
  have hnonces : (standardBoot dir).engine.usedNonces = [] := rfl
  have hanalyzer : (standardBoot dir).engine.analyzer =
    (WindowAnalyzer.new (AnalyzerConfig.forNamespace 4) :
      WindowAnalyzer Runtime.reference.Float) := rfl
  have h := serviced_devices_differ (reachable_standardBoot hdir) hsaved.toGood hstate hnonces
    hanalyzer
  exact ⟨dir, hdir, h⟩

end AegisShield
