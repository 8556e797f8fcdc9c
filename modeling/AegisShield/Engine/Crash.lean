/-
# A crash never weakens the gate

A call changes the files in durable steps, and the state file in the last one of a save only.  So
wherever a call is cut, the state file is a save of the state from before the call or of the state
after it, and the next engine takes it over or refuses it: it is in one of these two states or in
FAULT (`crash_keeps_gate`).
-/
import AegisShield.Engine.Containment

namespace AegisShield

open Lib

variable {W : World} {md : Metadata}

/-- The state in a state file. -/
def persistedState (R : Runtime) (file : Option Bytes) : Option AegisState := do
  let kvs ← (readState R (← file)).toOption
  AegisState.ofValue (← kvs.get "state")

theorem SaveOf.persistedState {state : AegisState} {version : Int} {file : Option Bytes}
    (h : SaveOf W state version file) : persistedState W.R file = some state := by
  obtain ⟨p, rfl, -, rfl⟩ := h
  have hget : p.payload.get "state" = some (.str p.state.value) := rfl
  unfold AegisShield.persistedState
  refine Option.bind_eq_some_iff.mpr ⟨p.bytes, rfl, ?_⟩
  refine Option.bind_eq_some_iff.mpr ⟨p.payload, ?_, ?_⟩
  · rw [p.readState_bytes]
    rfl
  · exact Option.bind_eq_some_iff.mpr ⟨_, hget, AegisState.ofValue_value _⟩

/-- No call takes a quarantined device back to a writable state. -/
theorem EngineCall.stays_denied {ws : List (Write md)} {es : List (AuditEntry W.R)} {p : Saved W.R}
    {s : Sys W} (h : Good ws es p s) (c : EngineCall)
    (hstate : s.engine.state ∈ AegisState.quarantine) :
    (c.run s).2.engine.state ∉ AegisState.writable := by
  obtain ⟨-, -, hsettled⟩ := c.emits_state (X := fun _ => True) h.sound (fun _ _ _ => trivial) trivial
  cases hsettled with
  | same hsame hversion hfile =>
    rw [hsame]
    exact (AegisState.quarantine_gated hstate).1
  | moved hmoved hversion hs hfile =>
    by_cases hm : (c.run s).2.engine.state = .maintenance
    · rw [hm]
      decide
    · exact (AegisState.quarantine_gated (AegisState.quarantine_allowed hstate hmoved hm)).1

/-- **A crash never weakens the gate.**  Whatever call is cut after however many of its durable
steps, an engine can be constructed, and its state is the one persisted before the call, the one
the call leads to, or FAULT; from CONTAINED, RECOVERY_READ_ONLY or FAULT it is never NORMAL or
ELEVATED. -/
theorem crash_keeps_gate {s : Sys W} (h : Reachable W (.on s)) (c : EngineCall) (n ticks : Nat) :
    ∃ persisted s', persistedState W.R s.disk.state = some persisted ∧
      reopen W ticks (s.disk.cut (c.effects s) n) = .ok s' ∧
      (s'.engine.state = persisted ∨ s'.engine.state = (c.run s).2.engine.state ∨
        s'.engine.state = .fault) ∧
      (persisted ∈ AegisState.quarantine → s'.engine.state ∉ AegisState.writable) := by
  obtain ⟨md, ws, es, p, hgood⟩ := h.good
  obtain ⟨ws', es', hrested, hsave⟩ := c.cut_rested hgood n
  have hfile : StateFile W (s.disk.cut (c.effects s) n).state := by
    rcases hsave with hsave | hsave
    · exact hsave.stateFile
    · exact hsave.stateFile
  obtain ⟨s', hopen, hreopened⟩ := hrested.reopen hfile ticks
  -- the saved state, the call's target, or FAULT
  have hstate : s'.engine.state = s.engine.state ∨ s'.engine.state = (c.run s).2.engine.state ∨
      s'.engine.state = .fault := by
    rcases hsave with ⟨q, hq, -, hfile⟩ | ⟨q, hq, -, hfile⟩
    · rcases hreopened.state q hfile with ⟨h1, -⟩ | ⟨h1, -⟩
      · exact Or.inl (h1.trans hq)
      · exact Or.inr (Or.inr h1)
    · rcases hreopened.state q hfile with ⟨h1, -⟩ | ⟨h1, -⟩
      · exact Or.inr (Or.inl (h1.trans hq))
      · exact Or.inr (Or.inr h1)
  refine ⟨s.engine.state, s', hgood.saveOf.persistedState, hopen, hstate, ?_⟩
  intro hquarantine
  rcases hstate with h1 | h1 | h1
  · rw [h1]
    exact (AegisState.quarantine_gated hquarantine).1
  · rw [h1]
    exact c.stays_denied hgood hquarantine
  · rw [h1]
    decide

theorem crash_keeps_gate_third_step : ∃ (s s' : Sys World.quiet) (persisted : AegisState),
    Reachable World.quiet (.on s) ∧ persistedState World.quiet.R s.disk.state = some persisted ∧
      reopen World.quiet 9 (s.disk.cut
        (EngineCall.effects s (.rejectDestructiveCommand 128 "format")) 3) = .ok s' ∧
      (s'.engine.state = persisted ∨ s'.engine.state =
          ((EngineCall.rejectDestructiveCommand 128 "format").run s).2.engine.state ∨
        s'.engine.state = .fault) ∧
      (persisted ∈ AegisState.quarantine → s'.engine.state ∉ AegisState.writable) := by
  obtain ⟨dir, hdir⟩ := provision_four_blocks
  have hreachable := reachable_quietBoot hdir
  obtain ⟨persisted, s', hcrash⟩ :=
    crash_keeps_gate hreachable (.rejectDestructiveCommand 128 "format") 3 9
  exact ⟨_, s', persisted, hreachable, hcrash⟩

end AegisShield
