/-
# Power cuts in the middle of an audit record

The journal recovers from a torn last record; the audit log does not.  A cut that leaves some bytes
of an audit record behind, but not all of them, makes the constructor raise from then on
(`torn_audit_record_bricks`).  A cut that leaves all but the newline goes unnoticed at first; the
next record is then written on the same line, unless the file has reached its limit and is rotated
away before.

So a device survives its power cuts if each of them leaves no byte of the record, or all but the
newline of a file at its limit (`power_cuts_are_survived`).
-/
import AegisShield.Engine.Runs

namespace AegisShield

open Lib

variable {W : World} {md : Metadata}

/-! ## 1. Power cuts -/

/-- The files when power fails during step `i` of some durable steps: if that step writes an audit
record, the first `k` bytes of it are there. -/
def Disk.torn (d : Disk) (es : List Effect) (i k : Nat) : Disk :=
  match es[i]? with
  | some (.audit (.write line)) => (d.cut es i).step (.audit (.write (line.take k)))
  | _ => d.cut es i

/-- What can happen to a device. -/
inductive PowerOp
  | call (c : EngineCall)
  | stop (ticks : Nat)
  | start
  /-- Power fails during step `i` of a call, after `k` bytes. -/
  | cut (c : EngineCall) (i k ticks : Nat)
  /-- Power fails during step `i` of a constructor, after `k` bytes. -/
  | cutStart (i k ticks : Nat)

/-- One operation.  A constructor that raises leaves the device off. -/
def PowerOp.step : Device W → PowerOp → Device W
  | .on s, .call c => .on (c.run s).2
  | .on s, .stop ticks => .off s.disk ticks
  | .on s, .cut c i k ticks => .off (s.disk.torn (c.effects s) i k) ticks
  | .off d ticks, .start =>
    match reopen W ticks d with
    | .ok s => .on s
    | .error _ => .off d ticks
  | .off d ticks, .cutStart i k ticks' =>
    match reopen W ticks d with
    | .ok s => .off (d.torn s.trace i k) ticks'
    | .error _ => .off d ticks
  | device, _ => device

/-- A cut during step `i` leaves no byte of an audit record, or all but the newline of a file that
is due to be rotated. -/
def CleanCut (d : Disk) (es : List Effect) (i k : Nat) : Prop :=
  ∀ line, es[i]? = some (.audit (.write line)) →
    k = 0 ∨ k + 1 = line.length ∧ defaultMaxBytes ≤ (d.torn es i k).audit.size

/-- The operation is no power cut, or a clean one. -/
def PowerOp.Clean : Device W → PowerOp → Prop
  | .on s, .cut c i k _ => CleanCut s.disk (c.effects s) i k
  | .off d ticks, .cutStart i k _ => ∀ s, reopen W ticks d = .ok s → CleanCut d s.trace i k
  | _, _ => True

/-- A namespace can be opened, and the engine reads. -/
def Opens (W : World) (d : Disk) (ticks : Nat) : Prop :=
  ∃ s, reopen W ticks d = .ok s ∧ (s.engine.state ≠ .recoveryReadOnly →
    ∀ block count : Nat, 1 ≤ count → block + count ≤ s.engine.journal.blocks →
      ∃ bytes, (s.read block count).1 = .ok bytes)

/-- The device's namespace can be opened. -/
def Device.Opens : Device W → Prop
  | .on s => AegisShield.Opens W s.disk s.ticks
  | .off d ticks => AegisShield.Opens W d ticks

/-! ## 2. Clean cuts -/

/-- **What a clean cut leaves behind reads.** -/
theorem Orderly.torn {d : Disk} {es : List Effect} {i k : Nat} {e : Effect} (hi : es[i]? = some e)
    (h : Orderly W md (d.cut es i) e) (hclean : CleanCut d es i k) :
    ∃ (ws : List (Write md)) (es' : _), Rested W ws es' (d.torn es i k) ∧
      (d.torn es i k).state = (d.cut es i).state := by
  obtain ⟨⟨ws, j, hj⟩, es₁, hreads, hwrite⟩ := h
  unfold Disk.torn
  unfold CleanCut at hclean
  unfold Disk.torn at hclean
  rw [hi] at hclean ⊢
  split
  · rename_i line heq
    cases heq
    obtain ⟨hchain, x, rfl⟩ := hwrite line rfl
    have hj' : Canonical W.R ws j
        ((d.cut es i).step (.audit (.write ((x.line (hashOf W.R es₁)).take k)))).root.toDir := hj
    rcases hclean _ rfl with rfl | ⟨hk, hsize⟩
    · -- no byte: the file is as it was
      have hget : (AuditEffect.apply (.write ((x.line (hashOf W.R es₁)).take 0))
          (d.cut es i).audit).active.getD [] = chainOf W.R es₁ := by
        rw [List.take_zero, ← hchain]
        simp [AuditEffect.apply]
      exact ⟨ws, es₁, hj'.rested (Reads.of_chain hget), rfl⟩
    · -- all but the newline
      have htext : (x.line (hashOf W.R es₁)).take k = x.text (hashOf W.R es₁) := by
        rw [x.line_eq, List.length_append, List.length_singleton] at hk
        rw [x.line_eq, Nat.add_right_cancel hk, List.take_left']
        rfl
      have hget : (AuditEffect.apply (.write ((x.line (hashOf W.R es₁)).take k))
          (d.cut es i).audit).active.getD [] = chainOf W.R es₁ ++ x.text (hashOf W.R es₁) := by
        rw [htext, ← hchain]
        rfl
      exact ⟨ws, es₁ ++ [x], hj'.rested (Reads.of_unterminated hget hsize), rfl⟩
  · exact ⟨ws, es₁, hj.rested hreads, rfl⟩

theorem Disk.torn_of_none {d : Disk} {es : List Effect} {i : Nat} (k : Nat) (h : es[i]? = none) :
    d.torn es i k = d.cut es i := by
  unfold torn
  rw [h]

/-- Past its last step, a list of steps cannot be torn. -/
theorem Emits.torn {P : Disk → Effect → Prop} {s s' : Sys W} (h : Emits P s s') (i k : Nat) :
    (∃ e, (s'.trace.drop s.trace.length)[i]? = some e ∧
        P (s.disk.cut (s'.trace.drop s.trace.length) i) e) ∨
      s.disk.torn (s'.trace.drop s.trace.length) i k = s'.disk := by
  rcases h.cut i with hstep | hend
  · exact Or.inl hstep
  · cases hi : (s'.trace.drop s.trace.length)[i]? with
    | none => exact Or.inr ((Disk.torn_of_none k hi).trans hend)
    | some e =>
      obtain ⟨es, htrace, hdisk, halong⟩ := h
      rw [htrace, List.drop_left] at hi ⊢
      exact Or.inl ⟨e, rfl, halong.of_getElem? hi⟩

/-- The constructor is run to its end. -/
theorem PowerOp.step_start {d : Disk} {ticks : Nat} {s : Sys W} (h : reopen W ticks d = .ok s) :
    PowerOp.step (.off d ticks) .start = .on s := by
  have hdef : PowerOp.step (.off d ticks) .start = (match reopen W ticks d with
    | .ok s => .on s
    | .error _ => .off d ticks : Device W) := rfl
  rw [hdef, h]

/-- The power is cut while it runs. -/
theorem PowerOp.step_cutStart {d : Disk} {ticks : Nat} {s : Sys W}
    (h : reopen W ticks d = .ok s) (i k ticks' : Nat) :
    PowerOp.step (.off d ticks : Device W) (.cutStart i k ticks') =
      .off (d.torn s.trace i k) ticks' := by
  have hdef : PowerOp.step (.off d ticks) (.cutStart i k ticks') = (match reopen W ticks d with
    | .ok s => .off (d.torn s.trace i k) ticks'
    | .error _ => .off d ticks : Device W) := rfl
  rw [hdef, h]

/-- **One operation**, unless it is a power cut that is not clean. -/
theorem Device.Good.step {device : Device W} {o : PowerOp} (hclean : o.Clean device)
    (h : device.Good) : (PowerOp.step device o).Good := by
  cases device with
  | on s =>
    obtain ⟨md, ws, es, p, hgood⟩ := h
    cases o with
    | call c =>
      obtain ⟨⟨ws', es', p', hgood'⟩, -⟩ := c.good hgood
      exact ⟨md, ws', es', p', hgood'⟩
    | stop ticks => exact ⟨md, ws, es, hgood.rested, hgood.saveOf.stateFile⟩
    | start => exact ⟨md, ws, es, p, hgood⟩
    | cut c i k ticks =>
      -- the cut is in one effect of the call, or behind all of them
      rcases (c.emits hgood).torn i k with ⟨e, hi, horderly, hsave⟩ | hend
      · obtain ⟨ws', es', hrested, hstate⟩ := horderly.torn hi hclean
        refine ⟨md, ws', es', hrested, ?_⟩
        rw [← hstate] at hsave
        exact hsave.stateFile
      · obtain ⟨⟨ws', es', p', hgood'⟩, -⟩ := c.good hgood
        have hdisk : s.disk.torn (c.effects s) i k = (c.run s).2.disk := hend
        refine ⟨md, ws', es', ?_⟩
        rw [hdisk]
        exact ⟨hgood'.rested, hgood'.saveOf.stateFile⟩
    | cutStart i k ticks => exact ⟨md, ws, es, p, hgood⟩
  | off d ticks =>
    obtain ⟨md, ws, es, hrested, hfile⟩ := h
    obtain ⟨s, hopen, hreopened⟩ := hrested.reopen hfile ticks
    obtain ⟨es', p', hgood⟩ := hreopened.good
    cases o with
    | call c => exact ⟨md, ws, es, hrested, hfile⟩
    | stop ticks => exact ⟨md, ws, es, hrested, hfile⟩
    | start =>
      rw [PowerOp.step_start hopen]
      exact ⟨md, ws, es', p', hgood⟩
    | cut c i k ticks => exact ⟨md, ws, es, hrested, hfile⟩
    | cutStart i k ticks' =>
      rw [PowerOp.step_cutStart hopen]
      -- a constructor writes too, and its effects are cut alike
      have hcut : CleanCut d s.trace i k := hclean s hopen
      rcases hreopened.emits.torn i k with ⟨e, hi, horderly, hsame⟩ | hend
      · obtain ⟨ws', es'', hrested', hstate⟩ := Orderly.torn hi horderly hcut
        have hsame' : (d.torn s.trace i k).state = d.state := hstate.trans hsame
        refine ⟨md, ws', es'', hrested', ?_⟩
        rw [hsame']
        exact hfile
      · have hdisk : d.torn s.trace i k = s.disk := hend
        refine ⟨md, ws, es', ?_⟩
        rw [hdisk]
        exact ⟨hgood.rested, hgood.saveOf.stateFile⟩

/-! ## 3. Survival -/

/-- Reads are allowed. -/
theorem Good.reads_allowed {ws : List (Write md)} {es : List (AuditEntry W.R)} {p : Saved W.R}
    {s : Sys W} (h : Good ws es p s) (hstate : s.engine.state ≠ .recoveryReadOnly)
    {block count : Nat} (h1 : 1 ≤ count) (h2 : block + count ≤ s.engine.journal.blocks) :
    ∃ bytes, (s.read block count).1 = .ok bytes := by
  have hblocks : s.engine.journal.blocks = md.blocks := by rw [h.journal.metadata]
  rw [hblocks] at h2
  have hread := h.journal.backed.read_current h.journal.metadata h1 h2
  unfold Sys.read
  rw [if_neg hstate]
  exact ⟨_, hread⟩

theorem Device.Good.opens {device : Device W} (h : device.Good) : device.Opens := by
  have hopens : ∀ (d : Disk) (ticks : Nat) (md : Metadata) (ws : List (Write md))
      (es : List (AuditEntry W.R)), Rested W ws es d → StateFile W d.state →
      AegisShield.Opens W d ticks := by
    intro d ticks md ws es hrested hfile
    obtain ⟨s, hopen, hreopened⟩ := hrested.reopen hfile ticks
    obtain ⟨es', p', hgood⟩ := hreopened.good
    exact ⟨s, hopen, fun hstate block count h1 h2 => hgood.reads_allowed hstate h1 h2⟩
  cases device with
  | on s =>
    obtain ⟨md, ws, es, p, hgood⟩ := h
    exact hopens _ _ md ws es hgood.rested hgood.saveOf.stateFile
  | off d ticks =>
    obtain ⟨md, ws, es, hrested, hfile⟩ := h
    exact hopens _ _ md ws es hrested hfile

/-- **A device survives clean power cuts**: in every state that a run of calls, restarts and such
cuts reaches, its namespace can be opened. -/
theorem power_cuts_are_survived {blocks blockSize : Nat} {deviceId : String} {dir : Dir}
    (hprovision : provision W.R blocks blockSize deviceId = .ok dir) (ticks : Nat)
    {ops pre : List PowerOp}
    (hclean : Along PowerOp.step (fun device o => o.Clean device)
      (Device.off (W := W) (Disk.fresh dir) ticks) ops) (hpre : pre <+: ops) :
    (pre.foldl PowerOp.step (Device.off (W := W) (Disk.fresh dir) ticks)).Opens := by
  have hstart : (Device.off (W := W) (Disk.fresh dir) ticks).Good :=
    ⟨_, [], [], Disk.fresh_rested hprovision, Or.inl rfl⟩
  exact (run_along_initial (I := Device.Good) (fun _ _ hc h => h.step hc) hstart hclean hpre).opens

theorem power_cuts_are_survived_one_cut : ∃ dir : Dir,
    provision World.quiet.R 4 512 "dev" = .ok dir ∧
      ([PowerOp.start, .cut .flush 0 0 5, .start].foldl PowerOp.step
        (Device.off (W := World.quiet) (Disk.fresh dir) 0)).Opens := by
  obtain ⟨dir, hdir⟩ := provision_four_blocks
  have hopen := (reopen_fresh (W := World.quiet) hdir 0).1
  have hclean : Along PowerOp.step (fun device o => o.Clean device)
      (Device.off (W := World.quiet) (Disk.fresh dir) 0)
      [PowerOp.start, .cut .flush 0 0 5, .start] := by
    refine ⟨trivial, ?_⟩
    rw [PowerOp.step_start hopen]
    exact ⟨fun line _ => Or.inl rfl, trivial, trivial⟩
  exact ⟨dir, hdir, power_cuts_are_survived hdir 0 hclean (List.prefix_refl _)⟩

/-! ## 4. Torn records -/

/-- **A torn audit record makes the constructor raise.** -/
theorem Orderly.bricks {d : Disk} {es : List Effect} {i k : Nat} {line : Bytes}
    (hi : es[i]? = some (.audit (.write line)))
    (h : Orderly W md (d.cut es i) (.audit (.write line))) (hpos : 0 < k)
    (hk : k < line.length - 1) (ticks : Nat) :
    ∃ e, reopen W ticks (d.torn es i k) = .error e := by
  obtain ⟨⟨ws, j, hj⟩, es₁, -, hwrite⟩ := h
  obtain ⟨hchain, x, rfl⟩ := hwrite line rfl
  obtain ⟨e, he⟩ := verifyFile_torn es₁ x hpos hk
  have htorn : d.torn es i k =
      (d.cut es i).step (.audit (.write ((x.line (hashOf W.R es₁)).take k))) := by
    unfold Disk.torn
    rw [hi]
  rw [← hchain] at he
  refine ⟨e, ?_⟩
  rw [htorn]
  unfold reopen
  have hj' : Canonical W.R ws j
      ((d.cut es i).step (.audit (.write ((x.line (hashOf W.R es₁)).take k)))).root.toDir := hj
  rw [bind_of_ok hj'.init]
  unfold AegisEngine.init AegisEngine.bringUp
  exact bind_of_error (bind_of_error he)

/-- A flush ends with the write of an audit record. -/
theorem flush_effects (s : Sys W) :
    ∃ steps line, EngineCall.effects s .flush = steps ++ [.audit (.write line)] := by
  have htrace : EngineCall.effects s .flush = (s.engine.audit.append W.R s.disk.audit
      (fun i => W.clock.timeNs (s.ticks + i)) "flush_complete"
      [("sequence", .int s.engine.journal.lastSequence)]).1.map Effect.audit := by
    unfold EngineCall.effects
    exact List.drop_left
  rw [htrace]
  unfold AuditLog.append
  split
  · exact ⟨_, _, List.map_append⟩
  · exact ⟨[], _, rfl⟩

/-- An audit record has more than one byte before its newline. -/
theorem AuditEntry.one_lt_length {R : Runtime} (h : String) (x : AuditEntry R) :
    1 < (x.line h).length - 1 := by
  obtain ⟨t, ht⟩ := canonicalBytes_obj_head (sealed R "event_hash" (x.body h))
  have htext : x.text h = 123 :: t := ht
  have hne : t ≠ [] := by
    rintro rfl
    have hload := x.loads_text h
    rw [htext] at hload
    cases hload
  have hlen := List.length_pos_of_ne_nil hne
  rw [x.line_eq, htext, List.length_append, List.length_cons, List.length_singleton]
  omega

/-- **A power cut after the first byte of an audit record bricks the device.** -/
theorem torn_audit_record_bricks : ∃ (dir : Dir) (i : Nat) (line : Bytes) (e : Raised),
    provision World.quiet.R 4 512 "dev" = .ok dir ∧
      reopen World.quiet 0 (Disk.fresh dir) = .ok (quietBoot dir) ∧
      (EngineCall.effects (quietBoot dir) .flush)[i]? = some (.audit (.write line)) ∧
      1 < line.length ∧
      reopen World.quiet 5 ((quietBoot dir).disk.torn
        (EngineCall.effects (quietBoot dir) .flush) i 1) = .error e ∧
      ¬ ([PowerOp.start, .cut .flush i 1 5].foldl PowerOp.step
        (Device.off (W := World.quiet) (Disk.fresh dir) 0)).Opens := by
  obtain ⟨dir, hdir⟩ := provision_four_blocks
  have hopen := (reopen_fresh (W := World.quiet) hdir 0).1
  obtain ⟨md, ws, es, p, hgood⟩ := (reachable_quietBoot hdir).good
  obtain ⟨steps, line, heffects⟩ := flush_effects (quietBoot dir)
  have hi : (EngineCall.effects (quietBoot dir) .flush)[steps.length]? =
      some (.audit (.write line)) := by
    rw [heffects]
    exact List.getElem?_concat_length
  obtain ⟨es', htrace, -, halong⟩ := (EngineCall.flush.emits hgood)
  have hes : es' = EngineCall.effects (quietBoot dir) .flush := by
    rw [EngineCall.effects, htrace, List.drop_left]
  rw [hes] at halong
  obtain ⟨horderly, -⟩ := halong.of_getElem? hi
  have hlength : 1 < line.length - 1 := by
    obtain ⟨-, es₁, -, hwrite⟩ := horderly
    obtain ⟨-, x, rfl⟩ := hwrite line rfl
    exact x.one_lt_length _
  obtain ⟨e, hbricked⟩ := Orderly.bricks hi horderly Nat.one_pos hlength 5
  refine ⟨dir, steps.length, line, e, hdir, hopen, hi, by omega, hbricked, ?_⟩
  rw [List.foldl_cons, PowerOp.step_start hopen]
  rintro ⟨s, hs, -⟩
  rw [hbricked] at hs
  cases hs

end AegisShield
