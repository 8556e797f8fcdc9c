/-
# The way back (`tests/test_daemon_socket.py`: `test_full_recovery_workflow_over_socket`)

An operator with the private key can always bring a contained device back: a token of
`aegis issue-token` is brought to the console with `authorize`, and the device reads at the sequence
that the token names; a second one is brought with `maintenance`; and `exit-maintenance` returns the
device to NORMAL.  Whatever the network does before and between these commands, each of them is
answered as it should be, and the journal and its files come through as they were
(`console_recovers`).
-/
import AegisShield.Cli
import AegisShield.Daemon.Remote
import AegisShield.Engine.Maintenance
import AegisShield.Signing

namespace AegisShield.Daemon

open Lib

variable {W : World}

/-! ## 1. Commands as they arrive -/

/-- What is sent arrives with the first `recv`, as one line. -/
def Says (connection : Connection) (line : List Char) : Prop :=
  (connection.recv 4096).1 = utf8 (line ++ ['\n'])

/-- A test of what there is. -/
theorem not_space_of_all {o : Option Char} (h : o.all (fun c => !spaceChar c) = true) :
    ∀ c ∈ o, ¬ spaceChar c := by
  rintro c hc
  rw [Option.mem_def.mp hc, Option.all_some, Bool.not_eq_true'] at h
  rw [h]
  exact Bool.false_ne_true

/-- The line that starts and ends with something is what is received. -/
theorem received_line {connection : Connection} {line : List Char} (h : Says connection line)
    (hhead : ∀ c ∈ line.head?, ¬ spaceChar c) (hlast : ∀ c ∈ line.getLast?, ¬ spaceChar c) :
    received connection = some line := by
  have hstrip : strip ([] ++ line ++ ['\n']) = line := by
    refine strip_around ?_ ?_ hhead hlast
    · intro c hc
      cases hc
    · intro c hc
      rw [List.mem_singleton.mp hc]
      decide
  unfold Says at h
  unfold received
  rw [h, decodeUtf8_utf8]
  exact congrArg some hstrip

theorem spaceChar_b64 : ∀ n < 64, ¬ spaceChar (toUrlsafe (b64Char n)) := by decide

section Token

variable (R : Runtime) (sign : Bytes → Bytes) (a : RecoveryAuthorization)

theorem toList_token : (signAuthorization R sign a).toList = "aegis1".toList ++ '.' ::
    (urlsafeEncode (R.canonicalBytes (.obj a.toDict)) ++
      '.' :: urlsafeEncode (sign (signedText R a))) := by
  unfold signAuthorization
  rw [String.toList_ofList]
  rfl

/-- The text of a token. -/
theorem token_text : ∃ rest, (signAuthorization R sign a).toList = 'a' :: rest ∧
    ∀ c ∈ ('a' :: rest).getLast?, ¬ spaceChar c := by
  refine ⟨"egis1".toList ++ '.' :: (urlsafeEncode (R.canonicalBytes (.obj a.toDict)) ++
    '.' :: urlsafeEncode (sign (signedText R a))), ?_, ?_⟩
  · rw [toList_token]
    rfl
  · intro c hc
    -- the last character is one of the signature, or the dot in front of it
    rw [← List.cons_append, List.getLast?_append_of_ne_nil _ (by simp), List.getLast?_cons,
      List.getLast?_append_of_ne_nil _ (by simp), List.getLast?_cons] at hc
    cases hlast : (urlsafeEncode (sign (signedText R a))).getLast? with
    | none =>
      rw [hlast] at hc
      cases hc
      decide
    | some d =>
      rw [hlast] at hc
      cases hc
      obtain ⟨n, hn, rfl⟩ := mem_urlsafeEncode (List.mem_of_getLast? hlast)
      exact spaceChar_b64 n hn

theorem strip_token : strip (signAuthorization R sign a).toList =
    (signAuthorization R sign a).toList := by
  obtain ⟨rest, htext, hlast⟩ := token_text R sign a
  have hnil : ∀ c ∈ ([] : List Char), spaceChar c := by
    intro c hc
    cases hc
  have hhead : ∀ c ∈ ('a' :: rest).head?, ¬ spaceChar c := by
    intro c hc
    cases hc
    decide
  have h := strip_around hnil hnil hhead hlast
  rw [List.nil_append, List.append_nil] at h
  rw [htext]
  exact h

end Token

theorem parse_authorize (text : List Char) :
    Command.parse ("authorize ".toList ++ text) = .authorize (String.ofList (strip text)) := by
  have hstatus : "authorize ".toList ++ text ≠ "status".toList := by
    intro h
    have hhead := congrArg List.head? h
    rw [List.head?_append_of_ne_nil _ (by decide)] at hhead
    revert hhead
    decide
  unfold Command.parse
  rw [if_neg hstatus, if_pos (List.isPrefixOf_iff_prefix.mpr (List.prefix_append _ _)),
    List.drop_left' (by decide)]

theorem parse_maintenance (text : List Char) :
    Command.parse ("maintenance ".toList ++ text) = .maintenance (String.ofList (strip text)) := by
  have hhead : ("maintenance ".toList ++ text).head? = some 'm' := by
    rw [List.head?_append_of_ne_nil _ (by decide)]
    decide
  have hstatus : "maintenance ".toList ++ text ≠ "status".toList := by
    intro h
    rw [h] at hhead
    revert hhead
    decide
  have hauthorize : ¬ "authorize ".toList.isPrefixOf ("maintenance ".toList ++ text) = true := by
    intro h
    obtain ⟨rest, h⟩ := List.isPrefixOf_iff_prefix.mp h
    rw [← h, List.head?_append_of_ne_nil _ (by decide)] at hhead
    revert hhead
    decide
  unfold Command.parse
  rw [if_neg hstatus, if_neg hauthorize,
    if_pos (List.isPrefixOf_iff_prefix.mpr (List.prefix_append _ _)), List.drop_left' (by decide)]

section Arrived

variable {R : Runtime} {sign : Bytes → Bytes} {a : RecoveryAuthorization} {connection : Connection}

/-- A command with a token. -/
theorem command_token {verb : List Char} (command : List Char → Command)
    (hparse : ∀ text, Command.parse (verb ++ text) = command (strip text))
    (hverb : ∀ c ∈ verb.head?, ¬ spaceChar c) (hne : verb ≠ [])
    (h : Says connection (verb ++ (signAuthorization R sign a).toList)) :
    consoleCommand connection = some (command (signAuthorization R sign a).toList) := by
  obtain ⟨rest, htext, hlast⟩ := token_text R sign a
  have hreceived := received_line h
    (by rwa [List.head?_append_of_ne_nil _ hne])
    (by rwa [htext, List.getLast?_append_of_ne_nil _ (List.cons_ne_nil _ _)])
  rw [consoleCommand, hreceived, Option.map_some, hparse, strip_token]

theorem command_authorize
    (h : Says connection ("authorize ".toList ++ (signAuthorization R sign a).toList)) :
    consoleCommand connection = some (.authorize (signAuthorization R sign a)) := by
  have hcommand := command_token (fun text => .authorize (String.ofList text)) parse_authorize
    (not_space_of_all (by decide)) (by decide) h
  rwa [String.ofList_toList] at hcommand

theorem command_maintenance
    (h : Says connection ("maintenance ".toList ++ (signAuthorization R sign a).toList)) :
    consoleCommand connection = some (.maintenance (signAuthorization R sign a)) := by
  have hcommand := command_token (fun text => .maintenance (String.ofList text)) parse_maintenance
    (not_space_of_all (by decide)) (by decide) h
  rwa [String.ofList_toList] at hcommand

theorem command_exit (h : Says connection "exit-maintenance".toList) :
    consoleCommand connection = some (.exitMaintenance false) := by
  rw [consoleCommand, received_line h (not_space_of_all (by decide)) (not_space_of_all (by decide)),
    Option.map_some]
  decide

end Arrived

/-! ## 2. Tokens that are good -/

/-- The engine has taken a token and is in its new state. -/
structure Advanced (s s' : Sys W) (target : AegisState) (nonce : String) : Prop where
  state : s'.engine.state = target
  version : s'.engine.stateVersion = s.engine.stateVersion + 1
  journal : s'.engine.journal = s.engine.journal
  files : s'.disk.root.toDir = s.disk.root.toDir
  nonces : ∀ n, n ≠ nonce → s.engine.usedNonces.get n = none → s'.engine.usedNonces.get n = none

/-- What leaves the engine alone can come before. -/
theorem Frozen.advanced {s s' s'' : Sys W} {target : AegisState} {nonce : String} (h : Frozen s s')
    (h' : Advanced s' s'' target nonce) : Advanced s s'' target nonce := by
  refine ⟨h'.state, ?_, h'.journal.trans h.journal, h'.files.trans h.files, fun n hn hfree => ?_⟩
  · rw [h'.version, h.version]
  · refine h'.nonces n hn ?_
    rw [h.nonces]
    exact hfree

/-- A nonce that was not there is not there after a save either. -/
theorem get_pruneDict {current : Int} {d : Dict Int} {n : String} (h : d.get n = none) :
    Dict.get (pruneDict current d) n = none := by
  rw [Dict.get, List.lookup_eq_none_iff] at h ⊢
  exact fun kv hkv => h kv (List.mem_of_mem_filter hkv)

/-- The nonce is taken and saved, and the transition made. -/
theorem advances {s m : Sys W} {target : AegisState} {nonce : String} {expires : Int}
    (reason : String) (hallowed : target ∈ m.engine.state.allowed)
    (hversion : m.engine.stateVersion = s.engine.stateVersion)
    (hjournal : m.engine.journal = s.engine.journal) (hfiles : m.disk.root = s.disk.root)
    (hnonces : m.engine.usedNonces = s.engine.usedNonces.set nonce expires) :
    Advanced s (m.saveState.transition target reason).2 target nonce := by
  have hsame : SameJournal m (m.saveState.transition target reason).2 :=
    SameJournal.transition (SameJournal.saveState ⟨rfl, rfl⟩) target reason
  refine ⟨?_, ?_, hsame.journal.trans hjournal, ?_, ?_⟩
  · rw [Sys.transition_eq (by exact hallowed)]
    rfl
  · rw [Sys.transition_eq (by exact hallowed), ← hversion]
    rfl
  · rw [hsame.root, hfiles]
  · intro n hn hfree
    rw [Sys.transition_eq (by exact hallowed)]
    refine get_pruneDict (get_pruneDict ?_)
    rw [hnonces, Dict.get_set_of_ne hn]
    exact hfree

/-- **`authorize_recovery` with a token that is good here and now.** -/
theorem authorizeRecovery_good {s : Sys W} {token : String} {verifier : TokenVerifier}
    {now : Option Int} {a : RecoveryAuthorization} {t : Int} (hstate : s.engine.state = .contained)
    (ha : verifier.verify W.R token s.engine.journal.deviceId "enter_recovery_read_only"
      s.engine.stateVersion (s.currentTime now) = .ok a)
    (hnonce : s.engine.usedNonces.get a.nonce = none) (htarget : a.targetSequence = some t)
    (hrange : 0 ≤ t ∧ t ≤ (s.engine.journal.lastSequence : Int)) :
    (s.authorizeRecovery token verifier true now).1 = .ok () ∧
      Advanced s (s.authorizeRecovery token verifier true now).2 .recoveryReadOnly a.nonce ∧
      (s.authorizeRecovery token verifier true now).2.engine.recoverySequence = .int t := by
  have hfree : ¬ (s.engine.usedNonces.get a.nonce).isSome = true := by
    rw [hnonce]
    decide
  have hallowed : AegisState.recoveryReadOnly ∈ s.engine.state.allowed := by
    rw [hstate]
    decide
  have heq : s.authorizeRecovery token verifier true now =
      (s.tick.withEngine fun e => { e with usedNonces := e.usedNonces.set a.nonce a.expiresUnix
                                           recoverySequence := .int t }).saveState.transition
        .recoveryReadOnly "signed authorization plus physical presence" := by
    rw [Sys.authorizeRecovery, if_neg (not_not.mpr hstate), if_neg (by decide), ha]
    dsimp only
    rw [if_neg hfree, htarget]
    dsimp only
    rw [if_neg (not_not.mpr hrange)]
  rw [heq]
  refine ⟨Sys.transition_ok (by exact hallowed) _, advances _ hallowed rfl rfl rfl rfl, ?_⟩
  rw [Sys.transition_eq (by exact hallowed)]
  rfl

/-- **`enter_maintenance` with a token that is good here and now.** -/
theorem enterMaintenance_good {s : Sys W} {token : String} {verifier : TokenVerifier}
    {now : Option Int} {a : RecoveryAuthorization}
    (hstate : s.engine.state ∈ AegisState.maintenanceEntry)
    (ha : verifier.verify W.R token s.engine.journal.deviceId "enter_maintenance"
      s.engine.stateVersion (s.currentTime now) = .ok a)
    (hnonce : s.engine.usedNonces.get a.nonce = none) :
    (s.enterMaintenance token verifier true now).1 = .ok () ∧
      Advanced s (s.enterMaintenance token verifier true now).2 .maintenance a.nonce := by
  have hallowed := AegisState.maintenance_allowed hstate
  rw [s.enterMaintenance_eq hstate ha (by rw [hnonce]; rfl)]
  exact ⟨Sys.transition_ok (by exact hallowed) _, advances _ hallowed rfl rfl rfl rfl⟩

/-! ## 3. At the console -/

/-- What the operator brings to the console: a connection, and a token as `aegis issue-token` was
asked for it. -/
structure Ticket where
  connection : Connection
  targetSequence : Option Int
  ttlSeconds : Int
  now : Int
  nonce : String

/-- The token is printed for this journal, and brought to the console in time. -/
structure Ticket.Brought (W : World) (sign : Bytes → Bytes) (j : DurableJournal) (k : Ticket)
    (verb action : String) (stateVersion : Int) (ticks : Nat) : Prop where
  line : ∃ token, Cli.issueToken W.R sign j stateVersion k.targetSequence k.ttlSeconds action k.now
    k.nonce = some token ∧ Says k.connection (verb.toList ++ token.toList)
  issued : k.now ≤ W.clock.time ticks + 60
  expires : (W.clock.time ticks : Int) ≤ k.now + k.ttlSeconds

/-- A reply that is sent. -/
theorem serveConsole_reply {texts : Texts} {publicKey : Option (Except Raised TokenVerifier)}
    {s s' : Sys W} {connection : Connection} {command : Command} {reply : W.R.Value}
    (hcommand : consoleCommand connection = some command)
    (h : command.reply texts publicKey s = (.ok reply, s')) :
    serveConsole texts publicKey s connection = (some reply, s') := by
  unfold consoleCommand at hcommand
  obtain ⟨data, hdata, rfl⟩ := Option.map_eq_some_iff.mp hcommand
  unfold serveConsole handleSocketCommand
  rw [hdata]
  dsimp only
  rw [h]

section Tickets

variable {sign : Bytes → Bytes} {verifier : TokenVerifier} {j : DurableJournal} {k : Ticket}
  {s : Sys W}

/-- What a ticket holds. -/
theorem Ticket.Brought.token (hsign : ∀ m, verifier.accepts (sign m) m = true)
    (hdevice : j.deviceId = s.engine.journal.deviceId) {verb action : String}
    (h : k.Brought W sign j verb action s.engine.stateVersion s.ticks) :
    ∃ a : RecoveryAuthorization, a.nonce = k.nonce ∧
      a.targetSequence = (if action = "enter_maintenance" then none
        else some (k.targetSequence.getD j.lastSequence)) ∧
      Says k.connection (verb.toList ++ (signAuthorization W.R sign a).toList) ∧
      verifier.verify W.R (signAuthorization W.R sign a) s.engine.journal.deviceId action
        s.engine.stateVersion (s.currentTime none) = .ok a := by
  obtain ⟨⟨token, htoken, hsent⟩, hissued, hexpires⟩ := h
  unfold Cli.issueToken at htoken
  split at htoken
  · cases htoken
  rename_i httl
  let a : RecoveryAuthorization := ⟨action, j.deviceId, k.now + k.ttlSeconds, k.now, k.nonce,
    s.engine.stateVersion, if action = "enter_maintenance" then none
      else some (k.targetSequence.getD j.lastSequence)⟩
  obtain rfl : signAuthorization W.R sign a = token := Option.some.inj htoken
  have hlifetime : a.expiresUnix - a.issuedUnix ≤ 900 := by
    change k.now + k.ttlSeconds - k.now ≤ 900
    omega
  have hverify : verifier.verify W.R (signAuthorization W.R sign a) a.deviceId a.action
      a.stateVersion (s.currentTime none) = .ok a :=
    TokenVerifier.verify_of_authenticate (authenticate_sign hsign a) _ hissued hexpires hlifetime
  exact ⟨a, rfl, rfl, hsent, hdevice ▸ hverify⟩

/-- **`authorize`** at the console. -/
theorem console_authorizes (texts : Texts) (hsign : ∀ m, verifier.accepts (sign m) m = true)
    (hdevice : j.deviceId = s.engine.journal.deviceId) (hstate : s.engine.state = .contained)
    (h : k.Brought W sign j "authorize " "enter_recovery_read_only" s.engine.stateVersion s.ticks)
    (hnonce : s.engine.usedNonces.get k.nonce = none)
    (hrange : 0 ≤ k.targetSequence.getD j.lastSequence ∧
      k.targetSequence.getD j.lastSequence ≤ (s.engine.journal.lastSequence : Int)) :
    let r := serveConsole texts (some (.ok verifier)) s k.connection
    r.1 = some (.obj [("authorized", .bool true), ("state", .str "recovery_read_only")]) ∧
      Advanced s r.2 .recoveryReadOnly k.nonce ∧
      r.2.engine.recoverySequence = .int (k.targetSequence.getD j.lastSequence) := by
  obtain ⟨a, ha, htarget, hsent, hverify⟩ := h.token hsign hdevice
  rw [← ha] at hnonce ⊢
  obtain ⟨hok, hadvanced, hsequence⟩ :=
    authorizeRecovery_good hstate hverify hnonce htarget hrange
  have hreply : (Command.authorize (signAuthorization W.R sign a)).reply texts
      (some (.ok verifier)) s = (.ok (.obj [("authorized", .bool true),
        ("state", .str (s.authorizeRecovery (signAuthorization W.R sign a) verifier true
          none).2.engine.state.value)]),
        (s.authorizeRecovery (signAuthorization W.R sign a) verifier true none).2) := by
    simp only [Command.reply, socketAuthorize, socketGrant]
    rcases hr : s.authorizeRecovery (signAuthorization W.R sign a) verifier true none with ⟨r, s'⟩
    rw [hr] at hok
    cases hok
    rfl
  intro r
  have hr : r = _ := serveConsole_reply (command_authorize hsent) hreply
  rw [hr, hadvanced.state]
  exact ⟨rfl, hadvanced, hsequence⟩

/-- **`maintenance`** at the console. -/
theorem console_maintains (texts : Texts) (hsign : ∀ m, verifier.accepts (sign m) m = true)
    (hdevice : j.deviceId = s.engine.journal.deviceId)
    (hstate : s.engine.state ∈ AegisState.maintenanceEntry)
    (h : k.Brought W sign j "maintenance " "enter_maintenance" s.engine.stateVersion s.ticks)
    (hnonce : s.engine.usedNonces.get k.nonce = none) :
    let r := serveConsole texts (some (.ok verifier)) s k.connection
    r.1 = some (.obj [("maintenance", .bool true), ("state", .str "maintenance")]) ∧
      Advanced s r.2 .maintenance k.nonce := by
  obtain ⟨a, ha, -, hsent, hverify⟩ := h.token hsign hdevice
  rw [← ha] at hnonce ⊢
  obtain ⟨hok, hadvanced⟩ := enterMaintenance_good hstate hverify hnonce
  have hreply : (Command.maintenance (signAuthorization W.R sign a)).reply texts
      (some (.ok verifier)) s = (.ok (.obj [("maintenance", .bool true),
        ("state", .str (s.enterMaintenance (signAuthorization W.R sign a) verifier true
          none).2.engine.state.value)]),
        (s.enterMaintenance (signAuthorization W.R sign a) verifier true none).2) := by
    simp only [Command.reply, socketEnterMaintenance, socketGrant]
    rcases hr : s.enterMaintenance (signAuthorization W.R sign a) verifier true none with ⟨r, s'⟩
    rw [hr] at hok
    cases hok
    rfl
  intro r
  have hr : r = _ := serveConsole_reply (command_maintenance hsent) hreply
  rw [hr, hadvanced.state]
  exact ⟨rfl, hadvanced⟩

end Tickets

/-- **`exit-maintenance`** at the console. -/
theorem console_exits {s : Sys W} {connection : Connection} (texts : Texts)
    (publicKey : Option (Except Raised TokenVerifier)) (hstate : s.engine.state = .maintenance)
    (hsent : Says connection "exit-maintenance".toList) :
    let r := serveConsole texts publicKey s connection
    r.1 = some (.obj [("state", .str "normal")]) ∧ r.2.engine.state = .normal ∧
      SameJournal s r.2 := by
  obtain ⟨hok, hsame⟩ := exitMaintenance_false hstate
  obtain ⟨hnormal, -⟩ := exitMaintenance_ok hok
  have hreply : (Command.exitMaintenance false).reply texts publicKey s =
      (.ok (.obj [("state", .str (s.exitMaintenance false).2.engine.state.value)]),
        (s.exitMaintenance false).2) := by
    simp only [Command.reply, socketExitMaintenance]
    rcases hr : s.exitMaintenance false with ⟨r, s'⟩
    rw [hr] at hok
    cases hok
    rfl
  intro r
  have hr : r = _ := serveConsole_reply (command_exit hsent) hreply
  rw [hr, hnormal]
  exact ⟨rfl, rfl, hsame⟩

/-! ## 4. The whole way -/

section Way

variable (texts : Texts) (md : Metadata) (hsize : 0 < md.blockSize)

/-- Remote operations leave a contained or serviced engine alone. -/
theorem run_frozen {ops : List Op} (h : ∀ o ∈ ops, o.Remote) {d : State W}
    (hlocked : d.sys.engine.state ∉ AegisState.writable) :
    Frozen d.sys (ops.foldl (step texts md hsize) d).sys :=
  (remote_tightens texts md hsize h d).frozen hlocked

/-- **The console can always recover.**  An engine is contained; `j` is its journal as the command
line opens it.  The operator comes to the console with a token for recovery, then with one for
maintenance, both printed for `j` and in time, and then ends the maintenance.  All three commands
are done, though remote callers go about their business before each of them, and the journal and its
files are in the end what they were. -/
theorem console_recovers (sign : Bytes → Bytes) (verifier : TokenVerifier)
    (hsign : ∀ m, verifier.accepts (sign m) m = true) {d : State W} {md' : Metadata}
    {ws : List (Write md')} {es : List (AuditEntry W.R)} {p : Saved W.R} (hgood : Good ws es p d.sys)
    (hcontained : d.sys.engine.state = .contained) {j : DurableJournal} {dir : Dir}
    (hopen : DurableJournal.init W.R d.sys.disk.root.toDir = .ok (j, dir)) (k₁ k₂ : Ticket)
    (c₃ : Connection) {r₁ r₂ r₃ : List Op} (h₁ : ∀ o ∈ r₁, o.Remote) (h₂ : ∀ o ∈ r₂, o.Remote)
    (h₃ : ∀ o ∈ r₃, o.Remote) (hnonce₁ : d.sys.engine.usedNonces.get k₁.nonce = none)
    (hnonce₂ : d.sys.engine.usedNonces.get k₂.nonce = none) (hnonces : k₂.nonce ≠ k₁.nonce)
    (hrange : 0 ≤ k₁.targetSequence.getD j.lastSequence ∧
      k₁.targetSequence.getD j.lastSequence ≤ (j.lastSequence : Int)) :
    let d₁ := r₁.foldl (step texts md hsize) d
    let d₂ := step texts md hsize d₁ (.console k₁.connection (some (.ok verifier)))
    let d₃ := r₂.foldl (step texts md hsize) d₂
    let d₄ := step texts md hsize d₃ (.console k₂.connection (some (.ok verifier)))
    let d₅ := r₃.foldl (step texts md hsize) d₄
    let d₆ := step texts md hsize d₅ (.console c₃ none)
    k₁.Brought W sign j "authorize " "enter_recovery_read_only" d.sys.engine.stateVersion
      d₁.sys.ticks →
    k₂.Brought W sign j "maintenance " "enter_maintenance" (d.sys.engine.stateVersion + 1)
      d₃.sys.ticks →
    Says c₃ "exit-maintenance".toList →
    (serveConsole texts (some (.ok verifier)) d₁.sys k₁.connection).1 =
        some (.obj [("authorized", .bool true), ("state", .str "recovery_read_only")]) ∧
      d₃.sys.engine.state = .recoveryReadOnly ∧
      d₃.sys.engine.recoverySequence = .int (k₁.targetSequence.getD j.lastSequence) ∧
      (serveConsole texts (some (.ok verifier)) d₃.sys k₂.connection).1 =
        some (.obj [("maintenance", .bool true), ("state", .str "maintenance")]) ∧
      d₅.sys.engine.state = .maintenance ∧
      (serveConsole texts none d₅.sys c₃).1 = some (.obj [("state", .str "normal")]) ∧
      d₆.sys.engine.state = .normal ∧ d₆.sys.engine.journal = d.sys.engine.journal ∧
      d₆.sys.disk.root.toDir = d.sys.disk.root.toDir := by
  intro d₁ d₂ d₃ d₄ d₅ d₆ hbrought₁ hbrought₂ hsent
  have hj : d.sys.engine.journal = j := by
    have hinit := hgood.rested.journal.init
    rw [hopen] at hinit
    rw [hgood.journal_eq]
    exact (congrArg Prod.fst (Except.ok.inj hinit)).symm
  -- the first command
  have hf₁ : Frozen d.sys d₁.sys := run_frozen texts md hsize h₁ (by rw [hcontained]; decide)
  have hj₁ : d₁.sys.engine.journal = j := hf₁.journal.trans hj
  have hfree₁ : d₁.sys.engine.usedNonces.get k₁.nonce = none := by rwa [hf₁.nonces]
  rw [← hf₁.version] at hbrought₁
  obtain ⟨hreply₁, hadvanced₁, hsequence₁⟩ := console_authorizes texts hsign (by rw [hj₁])
    (hf₁.state.trans hcontained) hbrought₁ hfree₁ (by rwa [hj₁])
  have ha₁ : Advanced d.sys d₂.sys .recoveryReadOnly k₁.nonce := hf₁.advanced hadvanced₁
  -- the second
  have hf₂ : Frozen d₂.sys d₃.sys := run_frozen texts md hsize h₂ (by rw [ha₁.state]; decide)
  have hstate₃ : d₃.sys.engine.state = .recoveryReadOnly := hf₂.state.trans ha₁.state
  have hj₃ : d₃.sys.engine.journal = j := (hf₂.journal.trans ha₁.journal).trans hj
  have hfree₃ : d₃.sys.engine.usedNonces.get k₂.nonce = none := by
    rw [hf₂.nonces]
    exact ha₁.nonces _ hnonces hnonce₂
  rw [← ha₁.version, ← hf₂.version] at hbrought₂
  obtain ⟨hreply₂, hadvanced₂⟩ := console_maintains texts hsign (by rw [hj₃])
    (by rw [hstate₃]; decide) hbrought₂ hfree₃
  have ha₂ : Advanced d₂.sys d₄.sys .maintenance k₂.nonce := hf₂.advanced hadvanced₂
  -- the third
  have hf₃ : Frozen d₄.sys d₅.sys := run_frozen texts md hsize h₃ (by rw [ha₂.state]; decide)
  have hstate₅ : d₅.sys.engine.state = .maintenance := hf₃.state.trans ha₂.state
  obtain ⟨hreply₃, hnormal, hsame⟩ := console_exits texts none hstate₅ hsent
  have hjournal : d₆.sys.engine.journal = d₅.sys.engine.journal := hsame.journal
  have hfiles : d₆.sys.disk.root.toDir = d₅.sys.disk.root.toDir := congrArg Root.toDir hsame.root
  refine ⟨hreply₁, hstate₃, hf₂.recovery.trans hsequence₁, hreply₂, hstate₅, hreply₃, hnormal, ?_, ?_⟩
  · rw [hjournal, hf₃.journal, ha₂.journal, ha₁.journal]
  · rw [hfiles, hf₃.files, ha₂.files, ha₁.files]

end Way

/-! ## 5. A contained device -/

/-- A line that arrives at once. -/
def whole (line : List Char) : Connection :=
  ⟨[utf8 (line ++ ['\n'])], by
    intro p hp
    rw [List.mem_singleton.mp hp]
    intro hnil
    have hdecode := decodeUtf8_utf8 (line ++ ['\n'])
    rw [hnil] at hdecode
    cases line <;> cases hdecode⟩

theorem says_whole {line : List Char} (h : (utf8 (line ++ ['\n'])).length ≤ 4096) :
    Says (whole line) line := by
  unfold Says whole
  rw [Connection.recv, dif_neg (Nat.not_lt.mpr h)]

/-- A key that accepts every signature. -/
def anyKey : TokenVerifier := ⟨fun _ _ => true⟩

/-- The token for recovery of the contained device, and the one for maintenance behind it. -/
def recoveryToken : String := signAuthorization World.quiet.R (fun _ => [])
  ⟨"enter_recovery_read_only", "dev", 600, 0, "n-1", 2, some 0⟩

def maintenanceToken : String := signAuthorization World.quiet.R (fun _ => [])
  ⟨"enter_maintenance", "dev", 600, 0, "n-2", 3, none⟩

theorem says_recoveryToken : Says (whole ("authorize ".toList ++ recoveryToken.toList))
    ("authorize ".toList ++ recoveryToken.toList) := by
  refine says_whole ?_
  rw [recoveryToken, toList_token]
  decide +kernel

theorem says_maintenanceToken : Says (whole ("maintenance ".toList ++ maintenanceToken.toList))
    ("maintenance ".toList ++ maintenanceToken.toList) := by
  refine says_whole ?_
  rw [maintenanceToken, toList_token]
  decide +kernel

theorem says_exit : Says (whole "exit-maintenance".toList) "exit-maintenance".toList :=
  says_whole (by decide)

/-- The two visits. -/
def recoveryTicket : Ticket :=
  ⟨whole ("authorize ".toList ++ recoveryToken.toList), none, 600, 0, "n-1"⟩

def maintenanceTicket : Ticket :=
  ⟨whole ("maintenance ".toList ++ maintenanceToken.toList), none, 600, 0, "n-2"⟩

theorem quiet_in_time (ticks : Nat) : (0 : Int) ≤ World.quiet.clock.time ticks + 60 ∧
    (World.quiet.clock.time ticks : Int) ≤ 0 + 600 := by
  have htime : World.quiet.clock.time ticks = 0 := rfl
  rw [htime]
  decide

theorem recoveryTicket_brought {j : DurableJournal} (hdevice : j.deviceId = "dev")
    (hlast : j.lastSequence = 0) (ticks : Nat) : recoveryTicket.Brought World.quiet (fun _ => []) j
      "authorize " "enter_recovery_read_only" 2 ticks := by
  refine ⟨⟨recoveryToken, ?_, says_recoveryToken⟩, (quiet_in_time ticks).1, (quiet_in_time ticks).2⟩
  rw [Cli.issueToken, if_neg (by decide), hdevice, hlast]
  rfl

theorem maintenanceTicket_brought {j : DurableJournal} (hdevice : j.deviceId = "dev") (ticks : Nat) :
    maintenanceTicket.Brought World.quiet (fun _ => []) j "maintenance " "enter_maintenance" 3
      ticks := by
  refine ⟨⟨maintenanceToken, ?_, says_maintenanceToken⟩, (quiet_in_time ticks).1,
    (quiet_in_time ticks).2⟩
  rw [Cli.issueToken, if_neg (by decide), hdevice]
  rfl

/-- The way back of a contained device. -/
def wayBack : List Op :=
  meanwhile ++ .console recoveryTicket.connection (some (.ok anyKey)) ::
    (meanwhile ++ .console maintenanceTicket.connection (some (.ok anyKey)) ::
      (meanwhile ++ [.console (whole "exit-maintenance".toList) none]))

theorem console_recovers_contained : ∃ dir : Dir, provision World.quiet.R 4 512 "dev" = .ok dir ∧
    (quietContained dir).engine.state = .contained ∧
    (wayBack.foldl (step plainTexts ⟨"dev", 4, 512⟩ quietSize)
      (State.start (quietContained dir))).sys.engine.state = .normal := by
  obtain ⟨dir, hdir⟩ := provision_four_blocks
  obtain ⟨hreachable, hstate⟩ := reachable_quietContained hdir
  obtain ⟨md, ws, es, p, hgood⟩ := hreachable.good
  have hdevice : (quietContained dir).engine.journal.deviceId = "dev" := rfl
  have hversion : (quietContained dir).engine.stateVersion = 2 := rfl
  have hnonces : (quietContained dir).engine.usedNonces = [] := rfl
  have hlast : (quietContained dir).engine.journal.lastSequence = 0 := rfl
  refine ⟨dir, hdir, hstate, ?_⟩
  generalize quietContained dir = s at *
  have hopen : DurableJournal.init World.quiet.R s.disk.root.toDir =
      .ok (s.engine.journal, s.disk.root.toDir) := by
    rw [hgood.journal_eq]
    exact hgood.rested.journal.init
  have hfree : ∀ nonce, s.engine.usedNonces.get nonce = none := by
    intro nonce
    rw [hnonces]
    rfl
  have hstart : (State.start s).sys.engine.stateVersion = 2 := hversion
  have hall := console_recovers plainTexts ⟨"dev", 4, 512⟩ quietSize (fun _ => []) anyKey
    (fun _ => rfl) (d := State.start s) hgood hstate hopen recoveryTicket maintenanceTicket
    (whole "exit-maintenance".toList) remote_meanwhile remote_meanwhile remote_meanwhile (hfree _)
    (hfree _) (by decide) ⟨by rw [hlast]; decide, le_refl _⟩
    (by rw [hstart]; exact recoveryTicket_brought hdevice hlast _)
    (by rw [hstart]; exact maintenanceTicket_brought hdevice _) says_exit
  obtain ⟨-, -, -, -, -, -, hnormal, -, -⟩ := hall
  simp only [wayBack, List.foldl_append, List.foldl_cons, List.foldl_nil]
  exact hnormal

end AegisShield.Daemon
