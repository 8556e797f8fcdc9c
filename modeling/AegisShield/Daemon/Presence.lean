/-
# Physical presence

An engine that was under suspicion and accepts writes again has been released at the console: by a
command `maintenance` with a token that the key file accepts, and later by a command
`exit-maintenance` (`release_needs_console`).  Up to the first of them the journal and its files
are what they were.
-/
import AegisShield.Daemon.Workflow

namespace AegisShield.Daemon

open Lib

variable {W : World}

/-! ## 1. What is released, and how -/

/-- The engine is under suspicion, with the journal and the files that `d` had. -/
structure Suspended (d d' : State W) : Prop where
  state : d'.sys.engine.state ∈ AegisState.quarantine
  journal : d'.sys.engine.journal = d.sys.engine.journal
  files : d'.sys.disk.root.toDir = d.sys.disk.root.toDir

/-- At the console, a token for maintenance that is good here and now. -/
def Grants (d : State W) (o : Op) : Prop :=
  ∃ connection verifier token a, o = .console connection (some (.ok verifier)) ∧
    consoleCommand connection = some (.maintenance token) ∧
    verifier.authenticate W.R token = some a ∧ a.action = "enter_maintenance" ∧
    a.Admits d.sys.engine.journal.deviceId "enter_maintenance" d.sys.engine.stateVersion
      (W.clock.time d.sys.ticks) ∧ d.sys.engine.usedNonces.get a.nonce = none

/-- At the console, the end of the maintenance. -/
def Releases (d : State W) (o : Op) : Prop :=
  d.sys.engine.state = .maintenance ∧ ∃ connection publicKey compact,
    o = .console connection publicKey ∧ consoleCommand connection = some (.exitMaintenance compact)

/-- The states of an engine that is under suspicion or serviced. -/
def locked : List AegisState := .maintenance :: AegisState.quarantine

theorem locked_allowed {a b : AegisState} (h : a ∈ locked) (hb : b ∈ a.allowed) (hout : b ∉ locked) :
    a = .maintenance ∧ b ≠ .maintenance := by
  revert h hb hout
  cases a <;> cases b <;> decide

/-! ## 2. One step -/

/-- A call changes the state by a transition that is allowed. -/
theorem call_state (s : Sys W) (c : EngineCall) :
    (c.run s).2.engine.state = s.engine.state ∨
      ((c.run s).2.engine.state ∈ s.engine.state.allowed ∧
        ((c.run s).2.engine.state = .maintenance → ∃ token verifier presence now,
          c = .enterMaintenance token verifier presence now ∧ (c.run s).1 = .ok ())) := by
  obtain ⟨m, hparts, hends⟩ := c.parts s
  have hm := hparts.same_state.1
  generalize hs' : (c.run s).2 = s' at hends ⊢
  cases hends with
  | here => exact Or.inl hm
  | transition reason ha hallowed hfault hmaintenance =>
    have htarget := (transition_frame (ha.allowed hallowed) reason).1
    rw [htarget, ← hm]
    exact Or.inr ⟨hallowed, hmaintenance⟩

/-- No call touches the journal of an engine under suspicion. -/
theorem call_frozen (s : Sys W) (c : EngineCall) (h : s.engine.state ∈ AegisState.quarantine) :
    (c.run s).2.engine.journal = s.engine.journal ∧ (c.run s).2.disk.root = s.disk.root := by
  obtain ⟨m, hparts, hends⟩ := c.parts s
  have hm := hparts.frozen h
  generalize (c.run s).2 = s' at hends
  cases hends with
  | here => exact hm
  | transition reason ha hallowed hfault hmaintenance =>
    rw [Sys.transition_eq (ha.allowed hallowed)]
    exact ⟨ha.journal.trans hm.1, hm.2⟩

/-- Nothing but `exit_maintenance` ends a maintenance. -/
theorem ends_maintenance {s : Sys W} {c : EngineCall} (hs : s.engine.state = .maintenance)
    (h : (c.run s).2.engine.state ≠ .maintenance) : ∃ compact, c = .exitMaintenance compact := by
  cases c with
  | read lba blocks => exact absurd hs h
  | write lba payload =>
    have hdenied := s.write_denied (by rw [hs]; decide) lba payload
    simp only [EngineCall.run, hdenied] at h
    exact absurd hs h
  | flush => exact absurd hs h
  | rejectDestructiveCommand opcode name =>
    simp only [EngineCall.run, Sys.rejectDestructiveCommand] at h
    split at h
    · rename_i hstate
      change s.engine.state ∈ AegisState.writable at hstate
      rw [hs] at hstate
      cases hstate with
      | tail _ hstate => cases hstate with
        | tail _ hstate => cases hstate
    · exact absurd hs h
  | authorizeRecovery token verifier presence now =>
    have hcontained : s.engine.state ≠ .contained := by rw [hs]; decide
    simp only [EngineCall.run, Sys.authorizeRecovery, if_pos hcontained] at h
    exact absurd hs h
  | enterMaintenance token verifier presence now =>
    have hentry : s.engine.state ∉ AegisState.maintenanceEntry := by rw [hs]; decide
    simp only [EngineCall.run, Sys.enterMaintenance, if_pos hentry] at h
    exact absurd hs h
  | exitMaintenance compact => exact ⟨compact, rfl⟩
  | compactJournal label =>
    have hsame := (s.compactJournal_parts label).same_state.1
    exact absurd (hsame.trans hs) h

section Run

variable (texts : Texts) (md : Metadata) (hsize : 0 < md.blockSize)

/-- A call that is not one of the block device's comes from the console. -/
theorem Op.makes_console {o : Op} {c : EngineCall} (h : o.Makes c) (hc : ¬ BlockCall c) :
    ∃ connection publicKey command, o = .console connection publicKey ∧
      consoleCommand connection = some command ∧ command.call publicKey = some c := by
  cases o with
  | frame r payload => exact absurd h hc
  | request r => exact h.elim
  | work token => exact h.elim
  | console connection publicKey =>
    obtain ⟨command, hcommand, hcall⟩ := Option.bind_eq_some_iff.mp h
    exact ⟨connection, publicKey, command, rfl, hcommand, hcall⟩

/-- A command that makes `enter_maintenance`. -/
theorem Op.makes_enterMaintenance {o : Op} {token : String} {verifier : TokenVerifier}
    {presence : Bool} {now : Option Int}
    (h : o.Makes (.enterMaintenance token verifier presence now)) :
    now = none ∧ ∃ connection, o = .console connection (some (.ok verifier)) ∧
      consoleCommand connection = some (.maintenance token) := by
  have hblock : ¬ BlockCall (.enterMaintenance token verifier presence now) := by rintro ⟨⟩
  obtain ⟨connection, publicKey, command, rfl, hcommand, hcall⟩ := Op.makes_console h hblock
  rcases Command.call_cases _ hcall with ⟨_, _, -, -, heq⟩ | ⟨_, _, rfl, rfl, heq⟩ |
    ⟨_, -, heq⟩ | ⟨-, heq⟩
  all_goals cases heq
  exact ⟨rfl, connection, rfl, hcommand⟩

/-- A command that makes `exit_maintenance`. -/
theorem Op.makes_exitMaintenance {o : Op} {compact : Bool} (h : o.Makes (.exitMaintenance compact)) :
    ∃ connection publicKey, o = .console connection publicKey ∧
      consoleCommand connection = some (.exitMaintenance compact) := by
  have hblock : ¬ BlockCall (.exitMaintenance compact) := by rintro ⟨⟩
  obtain ⟨connection, publicKey, command, rfl, hcommand, hcall⟩ := Op.makes_console h hblock
  rcases Command.call_cases _ hcall with ⟨_, _, -, -, heq⟩ | ⟨_, _, -, -, heq⟩ |
    ⟨_, rfl, heq⟩ | ⟨-, heq⟩
  all_goals cases heq
  exact ⟨connection, publicKey, rfl, hcommand⟩

/-- **A step out of suspicion** is a grant, and leads into a maintenance. -/
theorem Suspended.step {d d' : State W} {o : Op} (h : Suspended d d')
    (hout : ¬ Suspended d (step texts md hsize d' o)) :
    Grants d' o ∧ (Daemon.step texts md hsize d' o).sys.engine.state = .maintenance := by
  have htouches := step_touches texts md hsize d' o
  generalize Daemon.step texts md hsize d' o = d'' at htouches hout ⊢
  generalize hs : d''.sys = s'' at htouches
  cases htouches with
  | beside hbeside =>
    refine absurd ⟨?_, ?_, ?_⟩ hout
    · rw [hs, hbeside.frozen.state]
      exact h.state
    · rw [hs]
      exact hbeside.frozen.journal.trans h.journal
    · rw [hs]
      exact hbeside.files.trans h.files
  | call c hmakes =>
    obtain ⟨hjournal, hroot⟩ := call_frozen d'.sys c h.state
    have hleft : (c.run d'.sys).2.engine.state ∉ AegisState.quarantine := by
      intro hin
      refine hout ⟨?_, ?_, ?_⟩
      · rwa [hs]
      · rw [hs, hjournal]
        exact h.journal
      · rw [hs, hroot]
        exact h.files
    rcases call_state d'.sys c with hsame | ⟨hallowed, hmaintenance⟩
    · exact absurd (hsame ▸ h.state) hleft
    have htarget : (c.run d'.sys).2.engine.state = .maintenance := by
      by_contra hne
      exact hleft (AegisState.quarantine_allowed h.state hallowed hne)
    obtain ⟨token, verifier, presence, now, rfl, hok⟩ := hmaintenance htarget
    -- only this call leads out, and only the console makes it
    obtain ⟨rfl, connection, rfl, hcommand⟩ := Op.makes_enterMaintenance hmakes
    obtain ⟨-, -, a, hverify, hnonce⟩ := d'.sys.enterMaintenance_ok hok
    obtain ⟨hauth, h1, h2, h3, h4, h5, h6⟩ := TokenVerifier.verify_ok hverify
    refine ⟨⟨connection, verifier, token, a, rfl, hcommand, hauth, h2, ?_, ?_⟩, htarget⟩
    · exact ⟨h1.symm, h2.symm, h3.symm, h4, h5, h6⟩
    · simpa using hnonce

/-- **A step that unlocks** is a release. -/
theorem step_unlocks {d : State W} {o : Op} (h : d.sys.engine.state ∈ locked)
    (hout : (step texts md hsize d o).sys.engine.state ∉ locked) : Releases d o := by
  have htouches := step_touches texts md hsize d o
  generalize (step texts md hsize d o).sys = s' at htouches hout
  cases htouches with
  | beside hbeside =>
    rw [hbeside.frozen.state] at hout
    exact absurd h hout
  | call c hmakes =>
    rcases call_state d.sys c with hsame | ⟨hallowed, -⟩
    · rw [hsame] at hout
      exact absurd h hout
    obtain ⟨hstate, hne⟩ := locked_allowed h hallowed hout
    obtain ⟨compact, rfl⟩ := ends_maintenance hstate hne
    obtain ⟨connection, publicKey, rfl, hcommand⟩ := Op.makes_exitMaintenance hmakes
    exact ⟨hstate, connection, publicKey, compact, rfl, hcommand⟩

/-! ## 3. Runs -/

/-- **A release needs the console, twice.**  If an engine under suspicion accepts writes at the end
of a run, then somewhere in it a token for maintenance was good at the console, up to there the
journal and its files were what they had been, and behind it the maintenance was ended at the
console. -/
theorem release_needs_console {d : State W} {ops : List Op}
    (hstate : d.sys.engine.state ∈ AegisState.quarantine)
    (hreleased : (ops.foldl (step texts md hsize) d).sys.engine.state ∈ AegisState.writable) :
    ∃ pre grant mid release post, ops = pre ++ grant :: (mid ++ release :: post) ∧
      (∀ p, p <+: pre → Suspended d (p.foldl (step texts md hsize) d)) ∧
      Grants (pre.foldl (step texts md hsize) d) grant ∧
      Releases ((pre ++ grant :: mid).foldl (step texts md hsize) d) release := by
  have hstart : Suspended d d := ⟨hstate, rfl, rfl⟩
  have hwritable : ∀ a ∈ AegisState.writable, a ∉ locked := by decide
  have hend : ¬ Suspended d (ops.foldl (step texts md hsize) d) := fun h =>
    hwritable _ hreleased (List.mem_cons_of_mem _ h.state)
  -- the run leaves the suspicion first, and the maintenance behind it
  obtain ⟨pre, grant, rest, rfl, hpre, hout⟩ := run_leaves hstart hend
  obtain ⟨hgrants, hmaintenance⟩ := (hpre pre (List.prefix_refl _)).step texts md hsize hout
  rw [List.foldl_append, List.foldl_cons] at hreleased
  have hlocked : (step texts md hsize (pre.foldl (step texts md hsize) d) grant).sys.engine.state ∈
      locked := by
    rw [hmaintenance]
    exact List.mem_cons_self
  obtain ⟨mid, release, post, rfl, hmid, hunlocks⟩ :=
    run_leaves (P := fun d' : State W => d'.sys.engine.state ∈ locked) hlocked
      (hwritable _ hreleased)
  refine ⟨pre, grant, mid, release, post, rfl, hpre, hgrants, ?_⟩
  rw [List.foldl_append, List.foldl_cons]
  exact step_unlocks texts md hsize (hmid mid (List.prefix_refl _)) hunlocks

end Run

/-! ## 4. A contained device that is serviced -/

/-- A token for maintenance of the contained device. -/
def serviceText : String := signAuthorization World.quiet.R (fun _ => [])
  ⟨"enter_maintenance", "dev", 600, 0, "n-1", 2, none⟩

def serviceTicket : Ticket :=
  ⟨whole ("maintenance ".toList ++ serviceText.toList), none, 600, 0, "n-1"⟩

theorem says_service : Says serviceTicket.connection ("maintenance ".toList ++ serviceText.toList) := by
  refine says_whole ?_
  rw [serviceText, toList_token]
  decide +kernel

/-- It is brought to the console, and the maintenance is ended. -/
def service : List Op :=
  [.console serviceTicket.connection (some (.ok anyKey)),
    .console (whole "exit-maintenance".toList) none]

/-- Whoever is contained and serviced so is NORMAL. -/
theorem service_normal {s : Sys W} {sign : Bytes → Bytes} {verifier : TokenVerifier} {k : Ticket}
    {c : Connection} {j : DurableJournal} (texts : Texts) (md : Metadata) (hsize : 0 < md.blockSize)
    (hsign : ∀ m, verifier.accepts (sign m) m = true) (hdevice : j.deviceId = s.engine.journal.deviceId)
    (hstate : s.engine.state = .contained)
    (hbrought : k.Brought W sign j "maintenance " "enter_maintenance" s.engine.stateVersion s.ticks)
    (hnonce : s.engine.usedNonces.get k.nonce = none) (hsent : Says c "exit-maintenance".toList) :
    ([.console k.connection (some (.ok verifier)), .console c none].foldl (step texts md hsize)
      (State.start s)).sys.engine.state = .normal := by
  obtain ⟨-, hadvanced⟩ :=
    console_maintains texts hsign hdevice (by rw [hstate]; decide) hbrought hnonce
  exact (console_exits texts none hadvanced.state hsent).2.1

theorem release_needs_console_service : ∃ dir : Dir, provision World.quiet.R 4 512 "dev" = .ok dir ∧
    ∃ pre grant mid release post, service = pre ++ grant :: (mid ++ release :: post) ∧
      Grants (pre.foldl (step plainTexts ⟨"dev", 4, 512⟩ quietSize)
        (State.start (quietContained dir))) grant ∧
      Releases ((pre ++ grant :: mid).foldl (step plainTexts ⟨"dev", 4, 512⟩ quietSize)
        (State.start (quietContained dir))) release := by
  obtain ⟨dir, hdir⟩ := provision_four_blocks
  obtain ⟨-, hstate⟩ := reachable_quietContained hdir
  have hdevice : (quietContained dir).engine.journal.deviceId = "dev" := rfl
  have hversion : (quietContained dir).engine.stateVersion = 2 := rfl
  have hnonces : (quietContained dir).engine.usedNonces = [] := rfl
  refine ⟨dir, hdir, ?_⟩
  generalize quietContained dir = s at *
  have hbrought : serviceTicket.Brought World.quiet (fun _ => []) s.engine.journal "maintenance "
      "enter_maintenance" s.engine.stateVersion s.ticks := by
    refine ⟨⟨serviceText, ?_, says_service⟩, (quiet_in_time _).1, (quiet_in_time _).2⟩
    rw [Cli.issueToken, if_neg (by decide), hdevice, hversion]
    rfl
  have hsign : ∀ m, anyKey.accepts ((fun _ => []) m) m = true := fun _ => rfl
  have hnormal := service_normal plainTexts ⟨"dev", 4, 512⟩ quietSize hsign rfl hstate hbrought
    (by rw [hnonces]; rfl) says_exit
  have hquarantine : (State.start s).sys.engine.state ∈ AegisState.quarantine := by
    change s.engine.state ∈ _
    rw [hstate]
    decide
  obtain ⟨pre, grant, mid, release, post, hops, -, hgrants, hreleases⟩ :=
    release_needs_console plainTexts ⟨"dev", 4, 512⟩ quietSize hquarantine (by rw [hnormal]; decide)
  exact ⟨pre, grant, mid, release, post, hops, hgrants, hreleases⟩

end AegisShield.Daemon
