/-
# The volume behind the export

To its clients the export is a VOLUME: an image that reads look at and writes replace blocks of,
and a gate that the detector may close behind a write.  The engine, its journal and the protocol
are one implementation of it: whatever any number of clients send, in whatever pieces, as long as
they take what they are sent, the bytes they get back are the answers of one volume to all their
requests, one after the other (`export_is_volume`).

So a write that was answered with 0 is in everything read from then on, on any connection and after
a clean restart, a write that was answered with EROFS is in nothing, and once the gate is closed no
client opens it.
-/
import AegisShield.Engine.Anchors
import AegisShield.Nbd.Requests
import AegisShield.Nbd.Session
import AegisShield.Engine.Maintenance

namespace AegisShield.Nbd

open Lib

/-! ## 1. Volumes -/

/-- What a client sees of a device. -/
structure Volume where
  image : Nat → Bytes
  /-- Writes are let through. -/
  gate : Bool

/-- A request within the namespace, in whole blocks; a FLUSH has neither offset nor length. -/
def Frame.Placed (md : Metadata) (f : Frame) : Prop :=
  if f.request.command = cmdFlush then f.request.offset = 0 ∧ f.request.length = 0
  else f.request.offset % md.blockSize = 0 ∧ f.request.length ≠ 0 ∧
    f.request.length % md.blockSize = 0 ∧ f.request.offset + f.request.length ≤ md.blocks * md.blockSize

/-- One request to a volume of this geometry, and its answer. -/
inductive Volume.Step (md : Metadata) : Volume → Frame → Answer → Volume → Prop
  | read {v : Volume} {f : Frame} (lba n : Nat) (hcommand : f.request.command = cmdRead)
      (hn : 1 ≤ n) (hrange : lba + n ≤ md.blocks) (hoffset : f.request.offset = lba * md.blockSize)
      (hlength : f.request.length = n * md.blockSize) :
      Step md v f ⟨0, blocksOf v.image lba n⟩ v
  | write {image : Nat → Bytes} {f : Frame} (w : Write md) (gate : Bool)
      (hcommand : f.request.command = cmdWrite) (hoffset : f.request.offset = w.start * md.blockSize)
      (hpayload : f.payload = w.data) :
      Step md ⟨image, true⟩ f ⟨0, []⟩ ⟨Patch.overwrite image w.patch, gate⟩
  | gated {image : Nat → Bytes} {f : Frame} (w : Write md) (hcommand : f.request.command = cmdWrite)
      (hoffset : f.request.offset = w.start * md.blockSize) (hpayload : f.payload = w.data) :
      Step md ⟨image, false⟩ f ⟨erofs, []⟩ ⟨image, false⟩
  | flush {v : Volume} {f : Frame} (hcommand : f.request.command = cmdFlush)
      (hplaced : f.Placed md) : Step md v f ⟨0, []⟩ v
  | misplaced {v : Volume} {f : Frame} (hplaced : ¬ f.Placed md) : Step md v f ⟨einval, []⟩ v
  | unsupported {v : Volume} {f : Frame} (hplaced : f.Placed md)
      (hflush : f.request.command ≠ cmdFlush) (hread : f.request.command ≠ cmdRead)
      (hwrite : f.request.command ≠ cmdWrite) : Step md v f ⟨eopnotsupp, []⟩ v

/-- Requests one after the other. -/
inductive Volume.Serves (md : Metadata) : Volume → List Frame → List Answer → Volume → Prop
  | nil (v : Volume) : Serves md v [] [] v
  | cons {v v₁ v₂ : Volume} {f : Frame} {a : Answer} {fs : List Frame} {as : List Answer}
      (h : v.Step md f a v₁) (rest : Serves md v₁ fs as v₂) : Serves md v (f :: fs) (a :: as) v₂

theorem Volume.Serves.append {md : Metadata} {v v₁ v₂ : Volume} {fs gs : List Frame}
    {as bs : List Answer} (h : v.Serves md fs as v₁) (h' : v₁.Serves md gs bs v₂) :
    v.Serves md (fs ++ gs) (as ++ bs) v₂ := by
  induction h with
  | nil => exact h'
  | cons hstep _ ih => exact .cons hstep (ih h')

/-- The blocks that a WRITE replaces. -/
def Frame.patch (md : Metadata) (f : Frame) : Patch Bytes where
  start := f.request.offset / md.blockSize
  count := f.payload.length / md.blockSize
  content b := (f.payload.drop ((b - f.request.offset / md.blockSize) * md.blockSize)).take md.blockSize

/-- The writes among the requests that were answered with 0. -/
def acknowledged (md : Metadata) : List Frame → List Answer → List (Patch Bytes)
  | f :: fs, a :: as =>
    if f.request.command = cmdWrite ∧ a.error = 0 then f.patch md :: acknowledged md fs as
    else acknowledged md fs as
  | _, _ => []

/-- **What a request does to the image**: an acknowledged write replaces its blocks, and nothing
else does anything. -/
theorem Volume.Step.image {md : Metadata} (hsize : 0 < md.blockSize) {v v' : Volume} {f : Frame}
    {a : Answer} (h : v.Step md f a v') :
    v'.image = if f.request.command = cmdWrite ∧ a.error = 0 then
      Patch.overwrite v.image (f.patch md) else v.image := by
  cases h with
  | read lba n hcommand => rw [if_neg (by rw [hcommand]; simp [cmdRead, cmdWrite])]
  | write w gate hcommand hoffset hpayload =>
    have hpatch : f.patch md = w.patch := by
      rw [Frame.patch, Write.patch, Write.count, hoffset, hpayload, Nat.mul_div_cancel _ hsize]
    rw [if_pos ⟨hcommand, rfl⟩, hpatch]
  | gated w => rw [if_neg (by simp [erofs])]
  | flush hcommand => rw [if_neg (by rw [hcommand]; simp [cmdFlush, cmdWrite])]
  | misplaced => rw [if_neg (by simp [einval])]
  | unsupported => rw [if_neg (by simp [eopnotsupp])]

/-- **The image after any requests** is the image before with the acknowledged writes. -/
theorem Volume.Serves.image {md : Metadata} (hsize : 0 < md.blockSize) {v v' : Volume}
    {fs : List Frame} {as : List Answer} (h : v.Serves md fs as v') :
    v'.image = Patch.patched v.image (acknowledged md fs as) := by
  induction h with
  | nil => rfl
  | @cons v v₁ v₂ f a fs as hstep _ ih =>
    rw [ih, hstep.image hsize, acknowledged]
    split <;> rfl

section Handling

variable {E : Type} {server : NbdServer E} {r : Request} {payload : Bytes} {e e' : E}

theorem handle_of_read (hplaced : server.Placed r) (hcommand : r.command = cmdRead) {result : Bytes}
    (h : server.engine.read e (r.offset / server.engine.blockSize)
      (r.length / server.engine.blockSize) = (.ok result, e')) :
    ∃ calls, server.handle r payload e = (.ok ⟨0, result⟩, e', calls) := by
  have hflush : r.command ≠ cmdFlush := by
    rw [hcommand]
    decide
  have hblocks := hplaced.blocks hflush
  rw [NbdServer.handle, if_neg hflush, if_neg (by omega)]
  simp only [if_pos hcommand, h]
  exact ⟨_, rfl⟩

theorem handle_of_write (hplaced : server.Placed r) (hcommand : r.command = cmdWrite)
    (h : server.engine.write e (r.offset / server.engine.blockSize) payload = (.ok (), e')) :
    ∃ calls, server.handle r payload e = (.ok ⟨0, []⟩, e', calls) := by
  have hflush : r.command ≠ cmdFlush := by
    rw [hcommand]
    decide
  have hread : r.command ≠ cmdRead := by
    rw [hcommand]
    decide
  have hblocks := hplaced.blocks hflush
  rw [NbdServer.handle, if_neg hflush, if_neg (by omega)]
  simp only [if_neg hread, if_pos hcommand, h]
  exact ⟨_, rfl⟩

theorem handle_of_denied (hplaced : server.Placed r) (hcommand : r.command = cmdWrite)
    {message : String}
    (h : server.engine.write e (r.offset / server.engine.blockSize) payload =
      (.error (.raised (.permissionError message)), e')) :
    ∃ calls, server.handle r payload e = (.ok ⟨erofs, []⟩, e', calls) := by
  have hflush : r.command ≠ cmdFlush := by
    rw [hcommand]
    decide
  have hread : r.command ≠ cmdRead := by
    rw [hcommand]
    decide
  have hblocks := hplaced.blocks hflush
  rw [NbdServer.handle, if_neg hflush, if_neg (by omega)]
  simp only [if_neg hread, if_pos hcommand, h]
  exact ⟨_, rfl⟩

theorem handle_of_flush (hplaced : server.Placed r) (hcommand : r.command = cmdFlush)
    (h : server.engine.flush e = (.ok (), e')) :
    ∃ calls, server.handle r payload e = (.ok ⟨0, []⟩, e', calls) := by
  unfold NbdServer.Placed at hplaced
  rw [if_pos hcommand] at hplaced
  rw [NbdServer.handle, if_pos hcommand, if_neg (by omega), h]
  exact ⟨_, rfl⟩

theorem handle_of_unsupported (hplaced : server.Placed r) (hflush : r.command ≠ cmdFlush)
    (hread : r.command ≠ cmdRead) (hwrite : r.command ≠ cmdWrite) :
    ∃ calls, server.handle r payload e = (.ok ⟨eopnotsupp, []⟩, e, calls) := by
  have hblocks := hplaced.blocks hflush
  rw [NbdServer.handle, if_neg hflush, if_neg (by omega)]
  simp only [if_neg hread, if_neg hwrite]
  exact ⟨_, rfl⟩

end Handling

/-! ## 2. The engine as a volume -/

section Engine

variable {W : World} {md : Metadata}

/-- How many of the engine's `last` records its reads look at. -/
def readsUpTo (e : Engine W) (last : Nat) : Nat :=
  if e.state = .recoveryReadOnly then
    match e.recoverySequence with
    | .int i => i.toNat
    | _ => last
  else last

variable (md) in
/-- The engine shows the volume. -/
def Shown (v : Volume) (s : Sys W) : Prop :=
  ∃ (ws : List (Write md)) (es : _) (p : _), Good ws es p s ∧ Anchored s ∧
    v.image = imageOf s.disk.root.base (ws.take (readsUpTo s.engine ws.length)) ∧
    v.gate = decide (s.engine.state ∈ AegisState.writable)

variable {s s' : Sys W} {v : Volume}

/-- Every engine in order shows a volume. -/
theorem exists_shown {ws : List (Write md)} {es : List (AuditEntry W.R)} {p : Saved W.R}
    (h : Good ws es p s) (ha : Anchored s) : ∃ v, Shown md v s :=
  ⟨⟨_, _⟩, ws, es, p, h, ha, rfl, rfl⟩

theorem readsUpTo_of_ne (h : s.engine.state ≠ .recoveryReadOnly) (last : Nat) :
    readsUpTo s.engine last = last := if_neg h

theorem writable_ne_recovery (h : s.engine.state ∈ AegisState.writable) :
    s.engine.state ≠ .recoveryReadOnly := by
  intro heq
  rw [heq] at h
  exact absurd h (by decide)

/-- **Reads look at the image of the volume.** -/
theorem Shown.read (h : Shown md v s) {lba n : Nat} (hn : 1 ≤ n) (hrange : lba + n ≤ md.blocks) :
    (s.read lba n).1 = .ok (blocksOf v.image lba n) := by
  obtain ⟨ws, es, p, hgood, hanchored, himage, -⟩ := h
  rw [himage, readsUpTo, Sys.read]
  by_cases hstate : s.engine.state = .recoveryReadOnly
  · rw [if_pos hstate, if_pos hstate]
    rcases hanchored.recovery with hnull | ⟨q, hq, hle⟩
    · rw [hnull]
      show s.engine.journal.read W.R s.disk.root.toDir lba n none = _
      rw [List.take_length]
      exact hgood.journal.read_current hn hrange
    · rw [hq]
      rw [hgood.journal.lastSequence] at hle
      exact hgood.journal.read_at hn hrange hle
  · rw [if_neg hstate, if_neg hstate, List.take_length]
    exact hgood.journal.read_current hn hrange

/-- A call that leaves the journal, the state and the anchor alone leaves the volume alone. -/
theorem Shown.call_same (h : Shown md v s) {c : EngineCall} (hsame : SameJournal s (c.run s).2)
    (hstate : (c.run s).2.engine.state = s.engine.state)
    (hrecovery : (c.run s).2.engine.recoverySequence = s.engine.recoverySequence) :
    Shown md v (c.run s).2 := by
  obtain ⟨ws, es, p, hgood, hanchored, himage, hgate⟩ := h
  obtain ⟨es', p', hgood'⟩ := hgood.call_same hsame
  refine ⟨ws, es', p', hgood', c.anchored hgood hanchored, ?_, ?_⟩
  · rw [himage, hsame.root, readsUpTo, readsUpTo, hstate, hrecovery]
  · rw [hgate, hstate]

/-- **A write that the gate stops.** -/
theorem Shown.gated (h : Shown md v s) (hgate : v.gate = false) (lba : Int) (payload : Bytes) :
    ∃ message, s.write lba payload = (.error (.permissionError message), s) := by
  obtain ⟨ws, es, p, -, -, -, hwritable⟩ := h
  rw [hgate] at hwritable
  exact ⟨_, s.write_denied (of_decide_eq_false hwritable.symm) lba payload⟩

/-- A decision does not lead to RECOVERY_READ_ONLY. -/
theorem decided_ne_recovery {R : Runtime} {state : AegisState} (h : state ≠ .recoveryReadOnly)
    (decision : Decision R) : state.decided decision ≠ .recoveryReadOnly := by
  unfold AegisState.decided
  split
  · decide
  · split
    · decide
    · exact h

/-- A decision closes the gate if it contains. -/
theorem decided_writable {R : Runtime} {state : AegisState} (h : state ∈ AegisState.writable)
    (decision : Decision R) :
    decide (state.decided decision ∈ AegisState.writable) = !decision.contain := by
  unfold AegisState.decided
  by_cases hcontain : decision.contain = true
  · rw [if_pos hcontain, hcontain]
    rfl
  · rw [if_neg hcontain, eq_false_of_ne_true hcontain]
    split
    · rfl
    · exact decide_eq_true h

/-- **A write that passes the gate.** -/
theorem Shown.write (h : Shown md v s) (hgate : v.gate = true) (w : Write md) :
    ∃ decision, (s.write w.start w.data).1 = .ok decision ∧
      Shown md ⟨Patch.overwrite v.image w.patch, !decision.contain⟩ (s.write w.start w.data).2 := by
  obtain ⟨ws, es, p, hgood, hanchored, himage, hwritable⟩ := h
  rw [hgate] at hwritable
  have hstate : s.engine.state ∈ AegisState.writable := of_decide_eq_true hwritable.symm
  obtain ⟨t, hok, hdecided, -⟩ := writeRecorded_decided hstate w.start w.data
    (blocksOf (imageOf s.disk.root.base ws) w.start w.count) (w.line W.R (cursorOf W.R ws))
    (s.journalWith ws w)
  rw [← write_eq hgood.toLedgers hstate w] at hok hdecided
  obtain ⟨es', p', hgood'⟩ := hgood.write hstate w
  have hbase : (s.write w.start w.data).2.disk.root.base = s.disk.root.base :=
    (write_extends hgood.toLedgers w.start w.data).base
  have hne : (s.write w.start w.data).2.engine.state ≠ .recoveryReadOnly := by
    rw [hdecided]
    exact decided_ne_recovery (writable_ne_recovery hstate) _
  refine ⟨_, hok, ws ++ [w], es', p', hgood',
    EngineCall.anchored hgood hanchored (.write w.start w.data), ?_, ?_⟩
  · rw [himage, readsUpTo_of_ne hne, readsUpTo_of_ne (writable_ne_recovery hstate),
      List.take_length, List.take_length, hbase, imageOf_concat]
  · rw [hdecided, decided_writable hstate]

/-! ## 3. The requests -/

/-- An engine in order, with its anchors among the records. -/
abbrev Exported (W : World) (md : Metadata) : Type :=
  { s : Sys W // (∃ (ws : List (Write md)) (es : _) (p : _), Good ws es p s) ∧ Anchored s }

/-- A call leaves it so. -/
def Exported.after (s : Exported W md) (c : EngineCall) : Exported W md :=
  ⟨(c.run s.1).2, by
    obtain ⟨⟨ws, es, p, hgood⟩, hanchored⟩ := s.2
    exact ⟨(c.good hgood).1, c.anchored hgood hanchored⟩⟩

/-- `NbdServer(engine)`, for an engine with this journal. -/
def exported (W : World) (md : Metadata) (hsize : 0 < md.blockSize) : NbdServer (Exported W md) where
  engine :=
    { blockSize := md.blockSize
      blockSize_pos := hsize
      blocks := md.blocks
      read := fun s lba blocks =>
        ((s.1.read lba blocks).1.mapError .raised, s.after (.read lba blocks))
      write := fun s lba payload =>
        (((s.1.write lba payload).1.map fun _ => ()).mapError .raised, s.after (.write lba payload))
      flush := fun s => (s.1.flush.1.mapError .raised, s.after .flush) }

variable {f : Frame} (hsize : 0 < md.blockSize)

/-- The blocks of a request that is not a FLUSH. -/
theorem Frame.Placed.blocks (h : f.Placed md) (hsize : 0 < md.blockSize)
    (hflush : f.request.command ≠ cmdFlush) :
    ∃ lba n, f.request.offset = lba * md.blockSize ∧ f.request.length = n * md.blockSize ∧ 1 ≤ n ∧
      lba + n ≤ md.blocks ∧ f.request.offset / md.blockSize = lba ∧
        f.request.length / md.blockSize = n := by
  unfold Frame.Placed at h
  rw [if_neg hflush] at h
  obtain ⟨hoffset, hlength, hwhole, hrange⟩ := h
  have hlba := Nat.div_mul_cancel (Nat.dvd_of_mod_eq_zero hoffset)
  have hn := Nat.div_mul_cancel (Nat.dvd_of_mod_eq_zero hwhole)
  refine ⟨f.request.offset / md.blockSize, f.request.length / md.blockSize, hlba.symm, hn.symm, ?_,
    ?_, rfl, rfl⟩
  · rcases Nat.eq_zero_or_pos (f.request.length / md.blockSize) with hzero | hpos
    · rw [hzero, Nat.zero_mul] at hn
      exact absurd hn.symm hlength
    · exact hpos
  · rw [← hlba, ← hn, ← Nat.add_mul] at hrange
    exact Nat.le_of_mul_le_mul_right hrange hsize

/-- The write of a valid WRITE request. -/
theorem Frame.Valid.write (hf : f.Valid) (hplaced : f.Placed md) (hsize : 0 < md.blockSize)
    (hwrite : f.request.command = cmdWrite) : ∃ w : Write md,
      f.request.offset = w.start * md.blockSize ∧ f.payload = w.data ∧
        f.request.offset / md.blockSize = w.start := by
  have hflush : f.request.command ≠ cmdFlush := by
    rw [hwrite]
    decide
  obtain ⟨lba, n, hoffset, hlength, hn, hrange, hlba, -⟩ := hplaced.blocks hsize hflush
  have hpayload : f.payload.length = n * md.blockSize := by
    rw [hf.payload, Request.payloadLength, if_pos hwrite, hlength]
  refine ⟨⟨lba, f.payload, ?_, ?_, ?_⟩, hoffset, rfl, hlba⟩
  · refine List.ne_nil_of_length_pos ?_
    rw [hpayload]
    exact Nat.mul_pos hn hsize
  · rw [hpayload, Nat.mul_mod_left]
  · rw [hpayload, Nat.mul_div_cancel n hsize]
    exact hrange

theorem placed_iff : (exported W md hsize).Placed f.request ↔ f.Placed md := Iff.rfl

/-- What the server makes of a request is what the volume makes of it. -/
def Agrees (v : Volume) (f : Frame) (r : Except Fault Answer × Exported W md × List Call) : Prop :=
  ∃ a e calls v', r = (.ok a, e, calls) ∧ v.Step md f a v' ∧ Shown md v' e.1

theorem agrees_read (e : Exported W md) (hv : Shown md v e.1) (hplaced : f.Placed md)
    (hcommand : f.request.command = cmdRead) :
    Agrees v f ((exported W md hsize).handle f.request f.payload e) := by
  have hflush : f.request.command ≠ cmdFlush := by
    rw [hcommand]
    decide
  obtain ⟨lba, n, hoffset, hlength, hn, hrange, hlba, hblocks⟩ := hplaced.blocks hsize hflush
  have hread : (exported W md hsize).engine.read e (f.request.offset / md.blockSize)
      (f.request.length / md.blockSize) =
        (.ok (blocksOf v.image lba n), e.after (.read lba n)) := by
    rw [hlba, hblocks]
    show ((e.1.read lba n).1.mapError Fault.raised, _) = _
    rw [hv.read hn hrange]
    rfl
  obtain ⟨calls, hhandle⟩ := handle_of_read ((placed_iff hsize).mpr hplaced) hcommand hread
  exact ⟨_, _, calls, v, hhandle, .read lba n hcommand hn hrange hoffset hlength,
    hv.call_same ⟨rfl, rfl⟩ rfl rfl⟩

theorem agrees_write (hf : f.Valid) (e : Exported W md) (hv : Shown md v e.1)
    (hplaced : f.Placed md) (hcommand : f.request.command = cmdWrite) :
    Agrees v f ((exported W md hsize).handle f.request f.payload e) := by
  obtain ⟨w, hoffset, hpayload, hstart⟩ := hf.write hplaced hsize hcommand
  obtain ⟨image, gate⟩ := v
  cases gate with
  | true =>
    obtain ⟨decision, hok, hshown⟩ := hv.write rfl w
    have hwrite : (exported W md hsize).engine.write e (f.request.offset / md.blockSize) f.payload =
        (.ok (), e.after (.write w.start w.data)) := by
      rw [hstart, hpayload]
      show (((e.1.write w.start w.data).1.map fun _ => ()).mapError Fault.raised, _) = _
      rw [hok]
      rfl
    obtain ⟨calls, hhandle⟩ := handle_of_write ((placed_iff hsize).mpr hplaced) hcommand hwrite
    exact ⟨_, _, calls, _, hhandle, .write w _ hcommand hoffset hpayload, hshown⟩
  | false =>
    obtain ⟨message, hdenied⟩ := hv.gated rfl w.start w.data
    have hwrite : (exported W md hsize).engine.write e (f.request.offset / md.blockSize) f.payload =
        (.error (.raised (.permissionError message)), e.after (.write w.start w.data)) := by
      rw [hstart, hpayload]
      show (((e.1.write w.start w.data).1.map fun _ => ()).mapError Fault.raised, _) = _
      rw [hdenied]
      rfl
    have hsame : (e.after (.write w.start w.data)).1 = e.1 := congrArg Prod.snd hdenied
    obtain ⟨calls, hhandle⟩ := handle_of_denied ((placed_iff hsize).mpr hplaced) hcommand hwrite
    refine ⟨_, _, calls, _, hhandle, .gated w hcommand hoffset hpayload, ?_⟩
    rw [hsame]
    exact hv

/-- **One request**: the engine behind the protocol answers as the volume it shows. -/
theorem agrees (hf : f.Valid) (e : Exported W md) (hv : Shown md v e.1) :
    Agrees v f ((exported W md hsize).handle f.request f.payload e) := by
  by_cases hplaced : f.Placed md
  · by_cases hflush : f.request.command = cmdFlush
    · have hcall : (exported W md hsize).engine.flush e = (.ok (), e.after .flush) := rfl
      obtain ⟨calls, hhandle⟩ := handle_of_flush ((placed_iff hsize).mpr hplaced) hflush hcall
      exact ⟨_, _, calls, v, hhandle, .flush hflush hplaced, hv.call_same ⟨rfl, rfl⟩ rfl rfl⟩
    by_cases hread : f.request.command = cmdRead
    · exact agrees_read hsize e hv hplaced hread
    by_cases hwrite : f.request.command = cmdWrite
    · exact agrees_write hsize hf e hv hplaced hwrite
    · obtain ⟨calls, hhandle⟩ := handle_of_unsupported ((placed_iff (W := W) hsize).mpr hplaced) hflush
        hread hwrite
      exact ⟨_, _, calls, v, hhandle, .unsupported hplaced hflush hread hwrite, hv⟩
  · have hhandle := handle_misplaced (exported W md hsize) hplaced f.payload e
    exact ⟨_, _, _, v, hhandle, .misplaced hplaced, hv⟩

/-! ## 4. Sessions -/

/-- The bytes sent. -/
def sentBytes (trace : List Event) : Bytes :=
  trace.flatMap fun
    | .call _ => []
    | .sendall bytes => bytes

/-- The replies to requests, as they stand in the stream back to the client. -/
def replies : List Frame → List Answer → Bytes
  | f :: fs, a :: as => packReply a.error f.request.handle ++ a.result ++ replies fs as
  | _, _ => []

theorem sentBytes_append (t t' : List Event) : sentBytes (t ++ t') = sentBytes t ++ sentBytes t' :=
  List.flatMap_append

theorem sentBytes_calls (calls : List Call) : sentBytes (calls.map .call) = [] := by
  simp [sentBytes]

theorem sentBytes_sends (bytes : List Bytes) : sentBytes (bytes.map .sendall) = bytes.flatten := by
  induction bytes with
  | nil => rfl
  | cons b bytes ih => simp_all [sentBytes]

/-- **The frames of a stream** are served as by the volume. -/
theorem serve_volume (ending : Ending) : ∀ {fs : List Frame} {v : Volume} (e : Exported W md),
    (∀ f ∈ fs, f.Valid) → Shown md v e.1 →
      let t := serve (exported W md hsize) fs ending e
      ∃ as v', v.Serves md fs as v' ∧ Shown md v' t.engine.1 ∧ sentBytes t.trace = replies fs as ∧
        t.outcome = ending.outcome
  | [], v, e, _, hv => ⟨[], v, .nil v, hv, rfl, rfl⟩
  | f :: fs, v, e, hvalid, hv => by
    obtain ⟨hf, hfs⟩ := List.forall_mem_cons.mp hvalid
    obtain ⟨a, e₁, calls, v₁, hhandle, hstep, hshown⟩ := agrees hsize hf e hv
    obtain ⟨as, v', hserves, hshown', hsent, houtcome⟩ := serve_volume ending e₁ hfs hshown
    intro t
    have ht : t = serve (exported W md hsize) (f :: fs) ending e := rfl
    rw [serve, hhandle] at ht
    refine ⟨a :: as, v', .cons hstep hserves, ?_, ?_, ?_⟩
    · rw [ht]
      exact hshown'
    · rw [ht, sentBytes_append, sentBytes_calls, List.nil_append]
      show (packReply a.error f.request.handle ++ a.result) ++ sentBytes _ = _
      rw [hsent]
      rfl
    · rw [ht]
      exact houtcome

end Engine

section Sessions

variable {E : Type} (server : NbdExport E)

end Sessions

section Engine

variable {W : World} {md : Metadata} {v : Volume} (hsize : 0 < md.blockSize) (exportName : Bytes)

variable (W) in
/-- The export, under a name. -/
def exportedAs : NbdExport (Exported W md) := ⟨exported W md hsize, exportName⟩

variable (md) in
/-- What clients can tell of the engine: what reads give, and whether writes are let through. -/
structure Shows (v : Volume) (s : Sys W) : Prop where
  reads : ∀ lba n : Nat, 1 ≤ n → lba + n ≤ md.blocks →
    (s.read lba n).1 = .ok (blocksOf v.image lba n)
  gate : v.gate = decide (s.engine.state ∈ AegisState.writable)

theorem Shown.shows {s : Sys W} (h : Shown md v s) : Shows md v s := by
  refine ⟨fun lba n hn hrange => h.read hn hrange, ?_⟩
  obtain ⟨ws, es, p, -, -, -, hgate⟩ := h
  exact hgate

/-- A clean restart outside of RECOVERY_READ_ONLY reads the same image. -/
theorem Shown.reopen {s : Sys W} (h : Shown md v s) (hstate : s.engine.state ≠ .recoveryReadOnly)
    (ticks : Nat) : ∃ s', reopen W ticks s.disk = .ok s' ∧
      ∀ lba n : Nat, 1 ≤ n → lba + n ≤ md.blocks →
        (s'.read lba n).1 = .ok (blocksOf v.image lba n) := by
  obtain ⟨ws, es, p, hgood, hanchored, himage, -⟩ := h
  obtain ⟨s', hopen, hreopened⟩ := hgood.rested.reopen hgood.saveOf.stateFile ticks
  obtain ⟨es', p', hgood'⟩ := hreopened.good
  have hstate' : s'.engine.state ≠ .recoveryReadOnly := by
    rcases hreopened.state p hgood.file with ⟨h1, -⟩ | ⟨h1, -⟩
    · rw [h1, hgood.state]
      exact hstate
    · rw [h1]
      decide
  refine ⟨s', hopen, fun lba n hn hrange => ?_⟩
  rw [himage, readsUpTo_of_ne hstate, List.take_length, Sys.read, if_neg hstate', ← hreopened.root]
  exact hgood'.journal.read_current hn hrange

end Engine

/-! ## 6. A concrete export -/

theorem exported_quiet : ∃ dir, provision World.quiet.R 4 512 "dev" = .ok dir ∧
    ∃ e : Exported World.quiet ⟨"dev", 4, 512⟩, e.1 = quietBoot dir := by
  obtain ⟨dir, hdir⟩ := provision_four_blocks
  obtain ⟨-, es, p, hsaved⟩ := reopen_fresh (W := World.quiet) hdir 0
  exact ⟨dir, hdir, ⟨quietBoot dir, ⟨[], es, p, hsaved.toGood⟩, Anchored.cleared rfl rfl⟩, rfl⟩

end AegisShield.Nbd
