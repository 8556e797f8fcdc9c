/-
# The command line (`cli/main.py`: `status`, `issue-token`)

`aegis status` opens the journal and reads `engine_state.json` for itself.  It constructs no engine,
since a new engine writes to the audit log and may advance the version of the state, which the
tokens are bound to.  What it prints is nevertheless what the engine would answer, whatever the
device has been through, and the files are as they were (`status_agrees`).

`aegis issue-token` opens the journal as well, for the name of the device and the last sequence.
-/
import AegisShield.Daemon.Socket
import AegisShield.Engine.Anchors

namespace AegisShield.Cli

open Lib

/-! ## 1. The commands -/

/-- The values of `writable` in `status`. -/
def writable : List String := [AegisState.normal.value, AegisState.elevated.value]

/-- The part of `status` that reads the state file: the state, its version and the two anchors.
`str` is `str()` of a value that is not a text. -/
def persisted {R : Runtime} (str : R.Value → String) (file : Option Bytes) :
    Except Raised (String × Int × R.Value × R.Value) :=
  match file with
  | none => .ok ("not_started", 0, .null, .null)
  | some raw => do
    let kvs ← asDict .attributeError (← R.loads raw)
    let state := (kvs.get "state").getD (.str "unknown")
    let stateVersion ← pyInt ((kvs.get "state_version").getD (.int 0))
    return ((asStr state).getD (str state), stateVersion,
      (kvs.get "containment_sequence").getD .null, (kvs.get "recovery_sequence").getD .null)

/-- `status`: what it prints, and the directory that opening the journal leaves. -/
def status {R : Runtime} (str : R.Value → String) (d : Disk) : Except Raised (R.Value × Dir) := do
  let (journal, dir) ← DurableJournal.init R d.root.toDir
  let (state, stateVersion, containmentSequence, recoverySequence) ← persisted str d.state
  return (.obj [("device_id", .str journal.deviceId), ("state", .str state),
    ("state_version", .int stateVersion), ("last_sequence", .int journal.lastSequence),
    ("containment_sequence", containmentSequence), ("recovery_sequence", recoverySequence),
    ("writes_allowed", .bool (state ∈ writable))], dir)

/-- `issue_token`, with the key, the clock and `secrets.token_hex(16)`: the token, or nothing where
the lifetime is refused. -/
def issueToken (R : Runtime) (sign : Bytes → Bytes) (journal : DurableJournal) (stateVersion : Int)
    (targetSequence : Option Int) (ttlSeconds : Int) (action : String) (now : Int) (nonce : String) :
    Option String :=
  if ttlSeconds > 900 then none
  else
    let sequence := if action = "enter_maintenance" then none
      else some (targetSequence.getD journal.lastSequence)
    some (signAuthorization R sign
      ⟨action, journal.deviceId, now + ttlSeconds, now, nonce, stateVersion, sequence⟩)

/-! ## 2. The state file of a running engine -/

variable {W : World}

/-- A new engine has filed its state. -/
theorem reopen_filed {md : Metadata} {ws : List (Write md)} {es : List (AuditEntry W.R)} {d : Disk}
    {ticks : Nat} {s : Sys W} (h : Rested W ws es d) (hfile : StateFile W d.state)
    (hopen : reopen W ticks d = .ok s) : Filed s := by
  rcases hfile with hnone | ⟨q, hq⟩
  · rcases loadState_none h.reads.recorded with hload | ⟨err, hload⟩
    · rw [← hnone] at hload
      obtain rfl := Except.ok.inj ((h.reopen_first hload ticks).symm.trans hopen)
      exact transition_filed (Engine.initial_sound _ _) (Sys.bootingOn_allowed W ws es ticks d) _
    · rw [← hnone] at hload
      obtain ⟨reason, hrefused⟩ := h.reopen_refused hload ticks
      obtain rfl := Except.ok.inj (hrefused.symm.trans hopen)
      rw [Sys.enterFault_eq]
      exact Filed.save ⟨trivial, trivial, List.Pairwise.nil⟩
  · obtain ⟨s', hopen', hfiled, -⟩ := h.reopen_filed hq ticks
    obtain rfl := Except.ok.inj (hopen'.symm.trans hopen)
    exact hfiled

/-- Every running engine has, crashes or not. -/
theorem Reachable.filed {s : Sys W} (h : Reachable W (.on s)) : Filed s := by
  generalize hdevice : Device.on s = device at h
  induction h generalizing s with
  | opened hoff hopen _ =>
    cases hdevice
    obtain ⟨md, ws, es, hrested, hfile⟩ := hoff.device_good
    exact reopen_filed hrested hfile hopen
  | call c hon ih =>
    cases hdevice
    obtain ⟨md, ws, es, p, hgood⟩ := hon.good
    exact c.filed hgood (ih rfl)
  | provisioned => cases hdevice
  | stopped => cases hdevice
  | crashed => cases hdevice
  | crashedOpening => cases hdevice

/-- What the state file says is what the object holds. -/
theorem persisted_filed {md : Metadata} {ws : List (Write md)} {es : List (AuditEntry W.R)}
    {p : Saved W.R} {s : Sys W} (hgood : Good ws es p s) (hfiled : Filed s)
    (str : W.R.Value → String) : persisted str s.disk.state =
      .ok (s.engine.state.value, s.engine.stateVersion, s.engine.containmentSequence,
        s.engine.recoverySequence) := by
  obtain ⟨q, hfile, hstate, hcontainment, hrecovery⟩ := hfiled
  have hbytes : p.bytes = q.bytes := Option.some.inj (hgood.file.symm.trans hfile)
  have hversion : q.stateVersion = s.engine.stateVersion :=
    (Saved.state_of_bytes hbytes).2.symm.trans hgood.version
  rw [hfile, ← hstate, ← hversion, ← hcontainment, ← hrecovery, persisted, bind_of_ok q.loads_bytes]
  rfl

/-! ## 3. Agreement -/

theorem writable_iff (a : AegisState) :
    (a.value ∈ writable : Prop) ↔ a ∈ AegisState.writable := by
  cases a <;> decide

/-- What is read off the files of a device: with an engine on it, what that engine would answer;
without one, some answer.  Asking leaves the files as they are. -/
def Shows (str : W.R.Value → String) : Device W → Prop
  | .on s => status str s.disk = .ok (s.engine.status, s.disk.root.toDir)
  | .off d _ => ∃ answer, status str d = .ok (answer, d.root.toDir)

/-- **The status on the command line is the engine's**, after any life with restarts and crashes. -/
theorem status_agrees {device : Device W} (h : Reachable W device) (str : W.R.Value → String) :
    Shows str device := by
  cases device with
  | on s =>
    obtain ⟨md, ws, es, p, hgood⟩ := h.good
    have hpersisted := persisted_filed hgood (Reachable.filed h) str
    change status str s.disk = .ok (s.engine.status, s.disk.root.toDir)
    unfold status Engine.status
    rw [bind_of_ok hgood.rested.journal.init]
    dsimp only
    rw [bind_of_ok hpersisted, hgood.journal_eq]
    dsimp only
    simp only [writable_iff]
    rfl
  | off d ticks =>
    obtain ⟨md, ws, es, hrested, hfile⟩ := h.device_good
    change ∃ answer, status str d = .ok (answer, d.root.toDir)
    unfold status
    rw [bind_of_ok hrested.journal.init]
    rcases hfile with hnone | ⟨q, hq⟩
    · rw [hnone]
      exact ⟨_, rfl⟩
    · rw [hq, persisted, bind_of_ok q.loads_bytes]
      exact ⟨_, rfl⟩

/-- A contained device. -/
theorem status_agrees_contained : ∃ dir : Dir, provision World.quiet.R 4 512 "dev" = .ok dir ∧
    status (R := World.quiet.R) (fun _ => "") (quietContained dir).disk = .ok
      (.obj [("device_id", .str "dev"), ("state", .str "contained"), ("state_version", .int 2),
        ("last_sequence", .int 0), ("containment_sequence", .int 0), ("recovery_sequence", .null),
        ("writes_allowed", .bool false)], dir) := by
  obtain ⟨dir, hdir⟩ := provision_four_blocks
  exact ⟨dir, hdir, status_agrees (reachable_quietContained hdir).1 _⟩

end AegisShield.Cli
