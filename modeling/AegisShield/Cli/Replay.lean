/-
# Replaying a trace (`cli/main.py`, `replay`)

`aegis replay` opens the namespace, starts an engine, and feeds it the writes and reads of a trace
file.  A write that the engine prohibits is reported as blocked and the replay goes on; every other
exception ends it.

A trace that fits the device is replayed to its end (`replay_is_faithful`).  The engine gets its
operations in order and nothing else.  Every write is either decided or reported as blocked, the
decided ones come first, and the device reads as if they alone had been written; at most one
decision contains, and then it is the last one.
-/
import AegisShield.Cli.Trace
import AegisShield.Nbd.Volume

namespace AegisShield.Cli

open Lib Nbd

/-! ## 1. The command -/

/-- What `replay` has counted. -/
structure Replayed (W : World) where
  decisions : List (Decision W.R)
  /-- The writes reported as blocked: `lba` and the reason. -/
  blocked : List (W.R.Value × String)

/-- An `int` where the engine takes one; a value of another type raises where it is compared. -/
def intArg {R : Runtime} : R.Value → Except Raised Int
  | .int i => .ok i
  | .bool b => .ok (if b then 1 else 0)
  | _ => .error .typeError

/-- The arguments of a write: the payload first, then `lba`. -/
def writeArgs {R : Runtime} (op : Dict R.Value) : Except Raised (R.Value × Bytes) := do
  let text ← (asStr (← getItem op "payload_b64")).elim (.error .typeError) .ok
  let payload ← (b64decode false text.toList).elim (.error (.valueError "invalid base64")) .ok
  return (← getItem op "lba", payload)

/-- The arguments of a read. -/
def readArgs {R : Runtime} (op : Dict R.Value) : Except Raised (Int × Int) := do
  let lba ← intArg (← getItem op "lba")
  let blocks ← intArg ((op.get "blocks").getD (.int 1))
  return (lba, blocks)

section Command

variable {W : World}

/-- `engine.write`, for an `lba` of any type. -/
def writeAt (s : Sys W) (lba : W.R.Value) (payload : Bytes) : Outcome W (Decision W.R) :=
  match intArg lba with
  | .ok lba => s.write lba payload
  | .error e =>
    -- the engine looks at its state and at the payload first
    if s.engine.state ∉ AegisState.writable ∨ payload.length % s.engine.journal.blockSize ≠ 0 then
      s.write 0 payload
    else (.error e, s)

/-- The two branches of the loop, by the kind of the operation. -/
def replayKind (s : Sys W) (r : Replayed W) (op : Dict W.R.Value) (kind : W.R.Value) :
    Outcome W (Replayed W) :=
  if asStr kind = some "write" then
    match writeArgs op with
    | .error e => (.error e, s)
    | .ok (lba, payload) =>
      match writeAt s lba payload with
      | (.ok decision, s) => (.ok { r with decisions := r.decisions ++ [decision] }, s)
      | (.error (.permissionError message), s) =>
        (.ok { r with blocked := r.blocked ++ [(lba, message)] }, s)
      | (.error e, s) => (.error e, s)
  else if asStr kind = some "read" then
    match readArgs op with
    | .error e => (.error e, s)
    | .ok (lba, blocks) =>
      let x := s.read lba blocks
      (x.1.map fun _ => r, x.2)
  else (.ok r, s)

/-- The body of the loop. -/
def replayOp (s : Sys W) (r : Replayed W) (op : W.R.Value) : Outcome W (Replayed W) :=
  match asDict .typeError op with
  | .error e => (.error e, s)
  | .ok op =>
    match getItem op "kind" with
    | .error e => (.error e, s)
    | .ok kind => replayKind s r op kind

/-- The loop. -/
def replayOps : Sys W → Replayed W → List W.R.Value → Outcome W (Replayed W)
  | s, r, [] => (.ok r, s)
  | s, r, op :: ops =>
    match replayOp s r op with
    | (.error e, s) => (.error e, s)
    | (.ok r, s) => replayOps s r ops

variable (W)

/-- `replay`, once the policy is loaded. -/
def replay (ticks : Nat) (d : Disk) (file : Bytes) : Except Raised (Outcome W (Replayed W)) := do
  let s ← reopen W ticks d
  match readTrace W.R file with
  | .error e => return (.error e, s)
  | .ok trace => return replayOps s ⟨[], []⟩ trace

variable {W}

/-- `alert_count`. -/
def Replayed.alertCount (r : Replayed W) : Nat := r.decisions.countP fun d => d.alert

/-- `contain_count`. -/
def Replayed.containCount (r : Replayed W) : Nat := r.decisions.countP fun d => d.contain

end Command

/-! ## 2. One operation -/

/-- The call that an event is. -/
def TraceEvent.call : TraceEvent → EngineCall
  | .read lba blocks => .read lba blocks
  | .write lba _ payload => .write lba payload

/-- The writes of a trace. -/
def writesOf (blockSize : Nat) (events : List TraceEvent) : List (Patch Bytes) :=
  events.filterMap fun
    | .read _ _ => none
    | .write lba _ payload => some
      { start := lba.toNat
        count := payload.length / blockSize
        content := fun b => (payload.drop ((b - lba.toNat) * blockSize)).take blockSize }

section Step

variable {W : World} {md : Metadata} {s : Sys W} {v : Volume} {r : Replayed W}

theorem replayOp_write (s : Sys W) (r : Replayed W) (lba blocks : Int) (payload : Bytes) :
    replayOp s r ((TraceEvent.write lba blocks payload).toDict W.R) =
      match s.write lba payload with
      | (.ok decision, s) => (.ok { r with decisions := r.decisions ++ [decision] }, s)
      | (.error (.permissionError message), s) =>
        (.ok { r with blocked := r.blocked ++ [(.int lba, message)] }, s)
      | (.error e, s) => (.error e, s) := by
  have hargs : writeArgs (R := W.R) [("blocks", .int blocks), ("kind", .str "write"),
      ("lba", .int lba), ("payload_b64", .str (String.ofList (b64encode payload)))] =
      .ok (.int lba, payload) := by
    have hdecode := b64decode_b64encode false payload
    have htext : (String.ofList (b64encode payload)).toList = b64encode payload :=
      String.toList_ofList
    refine bind_eq_ok.mpr ⟨_, rfl, bind_eq_ok.mpr ⟨String.ofList (b64encode payload), rfl,
      bind_eq_ok.mpr ⟨payload, ?_, rfl⟩⟩⟩
    rw [htext, hdecode]
    rfl
  have hkind : asStr (.str "write" : W.R.Value) = some "write" := rfl
  change replayKind s r _ (.str "write") = _
  rw [replayKind, if_pos hkind, hargs]
  rfl

theorem replayOp_read (s : Sys W) (r : Replayed W) (lba blocks : Int) :
    replayOp s r ((TraceEvent.read lba blocks).toDict W.R) =
      ((s.read lba blocks).1.map fun _ => r, (s.read lba blocks).2) := rfl

/-- **Reads look at the image**, block by block. -/
theorem shown_block (h : Shown md v s) {b : Nat} (hb : b < md.blocks) :
    (s.read b 1).1 = .ok (v.image b) := by
  rw [← blocksOf_one v.image b]
  exact h.read (Nat.le_refl 1) hb

theorem Replayed.containCount_eq_zero (r : Replayed W) :
    r.containCount = 0 ↔ (r.decisions.all fun d => !d.contain) = true := by
  rw [Replayed.containCount, List.countP_eq_zero, List.all_eq_true]
  simp

end Step

/-! ## 3. A whole trace -/

/-- What a trace does to a volume: which writes are decided and which are blocked. -/
structure Replays (W : World) (md : Metadata) (v : Volume) (events : List TraceEvent)
    (decisions : List (Decision W.R)) (blocked : List (W.R.Value × String)) (v' : Volume) : Prop where
  counted : decisions.length + blocked.length = (writesOf md.blockSize events).length
  image : v'.image = Patch.patched v.image ((writesOf md.blockSize events).take decisions.length)
  gate : v'.gate = (v.gate && decisions.all fun d => !d.contain)
  shut : v.gate = false → decisions = []
  blocked : blocked ≠ [] → v'.gate = false
  once : ∀ d ∈ decisions.dropLast, d.contain = false

section Replays

variable {W : World} {md : Metadata} {v v' : Volume} {events : List TraceEvent}
  {decisions : List (Decision W.R)} {blocked : List (W.R.Value × String)}

theorem Replays.nil (v : Volume) : Replays W md v [] [] [] v where
  counted := rfl
  image := rfl
  gate := (Bool.and_true v.gate).symm
  shut _ := rfl
  blocked h := absurd rfl h
  once _ hd := absurd hd List.not_mem_nil

theorem Replays.read (h : Replays W md v events decisions blocked v') (lba blocks : Int) :
    Replays W md v (.read lba blocks :: events) decisions blocked v' :=
  ⟨h.counted, h.image, h.gate, h.shut, h.blocked, h.once⟩

/-- A write that is decided. -/
theorem Replays.decided {image : Nat → Bytes} (w : Write md) (blocks : Int) (d : Decision W.R)
    (h : Replays W md ⟨Patch.overwrite image w.patch, !d.contain⟩ events decisions blocked v') :
    Replays W md ⟨image, true⟩ (.write w.start blocks w.data :: events) (d :: decisions) blocked v' :=
  by
  have hwrites : writesOf md.blockSize (.write w.start blocks w.data :: events) =
      w.patch :: writesOf md.blockSize events := rfl
  refine ⟨?_, ?_, ?_, fun hgate => Bool.noConfusion (hgate : true = false), h.blocked, ?_⟩
  · rw [hwrites, List.length_cons, List.length_cons, ← h.counted]
    omega
  · rw [hwrites, List.length_cons, List.take_succ_cons, h.image]
    rfl
  · rw [h.gate, List.all_cons, Bool.true_and]
  · -- after a decision that contains there is no other
    cases hcontain : d.contain with
    | true =>
      rw [h.shut (by rw [hcontain]; rfl)]
      exact fun x hx => absurd hx List.not_mem_nil
    | false =>
      cases decisions with
      | nil => exact fun x hx => absurd hx List.not_mem_nil
      | cons d' decisions =>
        intro x hx
        rw [List.dropLast_cons_cons] at hx
        rcases List.mem_cons.mp hx with rfl | hx
        · exact hcontain
        · exact h.once x hx

/-- A write that is blocked. -/
theorem Replays.denied {image : Nat → Bytes} (w : Write md) (blocks : Int) (entry : W.R.Value × String)
    (h : Replays W md ⟨image, false⟩ events decisions blocked v') :
    Replays W md ⟨image, false⟩ (.write w.start blocks w.data :: events) decisions
      (entry :: blocked) v' := by
  have hwrites : writesOf md.blockSize (.write w.start blocks w.data :: events) =
      w.patch :: writesOf md.blockSize events := rfl
  obtain rfl := h.shut rfl
  refine ⟨?_, h.image, h.gate, fun _ => rfl, fun _ => ?_, fun x hx => absurd hx List.not_mem_nil⟩
  · rw [hwrites, List.length_cons, List.length_cons, ← h.counted]
    rfl
  · rw [h.gate, Bool.false_and]

end Replays

section Run

variable {W : World} {md : Metadata}

/-- **The loop over a trace that fits.** -/
theorem replayOps_run : ∀ {events : List TraceEvent} {s : Sys W} {v : Volume} (r : Replayed W),
    Shown md v s → (∀ e ∈ events, e.Fits md) →
    ∃ decisions blocked v', Replays W md v events decisions blocked v' ∧
      replayOps s r (events.map (TraceEvent.toDict W.R)) =
        (.ok ⟨r.decisions ++ decisions, r.blocked ++ blocked⟩,
          runCalls s (events.map TraceEvent.call)) ∧
      Shown md v' (runCalls s (events.map TraceEvent.call))
  | [], s, v, r, hshown, _ => by
    refine ⟨[], [], v, .nil v, ?_, hshown⟩
    rw [List.append_nil, List.append_nil]
    rfl
  | e :: events, s, v, r, hshown, hfits => by
    obtain ⟨he, hrest⟩ := List.forall_mem_cons.mp hfits
    cases he with
    | read lba n hn hrange =>
      have hshown' : Shown md v (s.read lba n).2 := hshown.call_same (c := .read lba n) ⟨rfl, rfl⟩ rfl rfl
      obtain ⟨decisions, blocked, v', hreplays, hrun, hend⟩ := replayOps_run r hshown' hrest
      refine ⟨decisions, blocked, v', hreplays.read lba n, ?_, hend⟩
      rw [List.map_cons, replayOps, replayOp_read, hshown.read hn hrange]
      exact hrun
    | write w blocks =>
      obtain ⟨image, gate⟩ := v
      cases gate with
      | true =>
        obtain ⟨decision, hok, hshown'⟩ := hshown.write rfl w
        obtain ⟨decisions, blocked, v', hreplays, hrun, hend⟩ :=
          replayOps_run { r with decisions := r.decisions ++ [decision] } hshown' hrest
        have hwrite : s.write w.start w.data = (.ok decision, (s.write w.start w.data).2) :=
          Prod.ext hok rfl
        have hop : replayOp s r ((TraceEvent.write w.start blocks w.data).toDict W.R) =
            (.ok { r with decisions := r.decisions ++ [decision] }, (s.write w.start w.data).2) := by
          rw [replayOp_write, hwrite]
        refine ⟨decision :: decisions, blocked, v', hreplays.decided w blocks decision, ?_, hend⟩
        rw [List.map_cons, replayOps, hop, List.append_cons r.decisions decision decisions]
        exact hrun
      | false =>
        obtain ⟨message, hdenied⟩ := hshown.gated rfl w.start w.data
        obtain ⟨decisions, blocked, v', hreplays, hrun, hend⟩ :=
          replayOps_run { r with blocked := r.blocked ++ [(.int w.start, message)] } hshown hrest
        have hop : replayOp s r ((TraceEvent.write w.start blocks w.data).toDict W.R) =
            (.ok { r with blocked := r.blocked ++ [(.int w.start, message)] }, s) := by
          rw [replayOp_write, hdenied]
        have hcalls : runCalls s ((TraceEvent.write w.start blocks w.data :: events).map
            TraceEvent.call) = runCalls s (events.map TraceEvent.call) := by
          show runCalls (s.write w.start w.data).2 _ = _
          rw [hdenied]
        refine ⟨decisions, (.int w.start, message) :: blocked, v', hreplays.denied w blocks _, ?_, ?_⟩
        · rw [hcalls, List.map_cons, replayOps, hop, List.append_cons r.blocked _ blocked]
          exact hrun
        · rw [hcalls]
          exact hend

end Run

/-! ## 4. Main result -/

/-- **A replay is faithful to the trace.** -/
structure Faithful {W : World} (s : Sys W) (events : List TraceEvent) (r : Replayed W) (s' : Sys W) :
    Prop where
  /-- The engine got the operations of the trace. -/
  calls : s' = runCalls s (events.map TraceEvent.call)
  /-- Every write is decided or blocked. -/
  counted : r.decisions.length + r.blocked.length =
    (writesOf s.engine.journal.blockSize events).length
  /-- The device reads as if the decided ones had been written. -/
  image : ∃ before : Nat → Bytes, ∀ b < s.engine.journal.blocks, (s.read b 1).1 = .ok (before b) ∧
    (s'.read b 1).1 = .ok (Patch.patched before
      ((writesOf s.engine.journal.blockSize events).take r.decisions.length) b)
  /-- The gate closes with a decision that contains, and with nothing else. -/
  gate : s'.engine.state ∈ AegisState.writable ↔
    s.engine.state ∈ AegisState.writable ∧ r.containCount = 0
  once : ∀ d ∈ r.decisions.dropLast, d.contain = false
  blocked : r.blocked ≠ [] → s'.engine.state ∉ AegisState.writable
  shut : s.engine.state ∉ AegisState.writable → r.decisions = []

/-- A trace file whose events are within the namespace is replayed to its end. -/
theorem replay_fitting {W : World} {d : Disk} {ticks : Nat} {s : Sys W}
    (h : CrashFree W (.off d ticks)) (hopen : reopen W ticks d = .ok s) {events : List TraceEvent}
    (hfits : ∀ e ∈ events, e.Fits s.engine.journal.toMetadata) :
    ∃ r s', replay W ticks d (writeTrace W.R events) = .ok (.ok r, s') ∧
      Faithful s events r s' := by
  obtain ⟨md, ws, es, p, hgood, hanchored, -⟩ := (h.opened hopen).anchored
  have hmd := hgood.journal.metadata
  subst hmd
  obtain ⟨v, hshown⟩ := exists_shown hgood hanchored
  obtain ⟨decisions, blocked, v', hreplays, hrun, hshown'⟩ := replayOps_run ⟨[], []⟩ hshown hfits
  have hbefore := hshown.shows.gate
  have hafter := hshown'.shows.gate
  refine ⟨⟨decisions, blocked⟩, runCalls s (events.map TraceEvent.call), ?_, {
    calls := rfl
    counted := hreplays.counted
    image := ⟨v.image, fun b hb => ⟨shown_block hshown hb, ?_⟩⟩
    gate := ?_
    once := hreplays.once
    blocked := fun hblocked => ?_
    shut := fun hshut => ?_ }⟩
  · unfold replay
    rw [bind_of_ok hopen, readTrace_writeTrace]
    exact congrArg Except.ok hrun
  · rw [shown_block hshown' hb, hreplays.image]
  · rw [hreplays.gate, hbefore] at hafter
    rw [Replayed.containCount_eq_zero]
    calc (runCalls s (events.map TraceEvent.call)).engine.state ∈ AegisState.writable
        ↔ decide ((runCalls s (events.map TraceEvent.call)).engine.state ∈ AegisState.writable) =
          true := decide_eq_true_iff.symm
      _ ↔ _ := by rw [← hafter, Bool.and_eq_true, decide_eq_true_iff]
  · exact of_decide_eq_false (hafter.symm.trans (hreplays.blocked hblocked))
  · exact hreplays.shut (hbefore.trans (decide_eq_false hshut))

/-- **A replay is faithful to its trace.**  On a device that has not crashed, a trace file whose
events are within the namespace is replayed to its end.  Traces generated for the geometry of the
device are such traces. -/
theorem replay_is_faithful {W : World} {d : Disk} {ticks : Nat} {s : Sys W}
    (h : CrashFree W (.off d ticks)) (hopen : reopen W ticks d = .ok s) :
    (∀ events : List TraceEvent, (∀ e ∈ events, e.Fits s.engine.journal.toMetadata) →
      ∃ r s', replay W ticks d (writeTrace W.R events) = .ok (.ok r, s') ∧
        Faithful s events r s') ∧
    ∀ (randbytes : Nat → Bytes) (pattern : String) (operations : Nat) (events : List TraceEvent),
      (∀ i, (randbytes i).length = s.engine.journal.blockSize) →
      syntheticTrace randbytes pattern s.engine.journal.blocks s.engine.journal.blockSize operations =
        .ok events →
      ∃ r s', replay W ticks d (writeTrace W.R events) = .ok (.ok r, s') ∧
        Faithful s events r s' := by
  refine ⟨fun events hfits => replay_fitting h hopen hfits, ?_⟩
  intro randbytes pattern operations events hrandom hgenerated
  have hsize : 0 < s.engine.journal.toMetadata.blockSize := (h.opened hopen).sized
  exact replay_fitting h hopen (syntheticTrace_fits hsize hrandom hgenerated)

/-- A generated trace on a new device. -/
theorem replay_is_faithful_generated : ∃ (dir : Dir) (events : List TraceEvent) (r : _) (s' : _),
    provision World.quiet.R 4 512 "dev" = .ok dir ∧
    syntheticTrace (fun _ => List.replicate 512 7) "broad_overwrite" 4 512 3 = .ok events ∧
    replay World.quiet 0 (Disk.fresh dir) (writeTrace World.quiet.R events) = .ok (.ok r, s') ∧
    Faithful (quietBoot dir) events r s' := by
  obtain ⟨dir, hdir⟩ := provision_four_blocks
  obtain ⟨hopen, -⟩ := reopen_fresh (W := World.quiet) hdir 0
  have hgenerated : syntheticTrace (fun _ => List.replicate 512 7) "broad_overwrite" 4 512 3 =
      .ok _ := rfl
  obtain ⟨r, s', hreplay, hfaithful⟩ := (replay_is_faithful (CrashFree.provisioned 0 hdir) hopen).2
    _ "broad_overwrite" 3 _ (fun _ => List.length_replicate) hgenerated
  exact ⟨dir, _, r, s', hdir, hgenerated, hreplay, hfaithful⟩

end AegisShield.Cli
