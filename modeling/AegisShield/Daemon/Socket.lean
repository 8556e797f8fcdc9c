/-
# The console (`daemon/service.py`: `_serve_unix_socket`)

The daemon listens on a Unix socket, which only a local shell can reach.  A connection is good for
one command: what the first `recv` gives is decoded and stripped, the command is run, and the reply
is sent back as one line of JSON.  `authorize` and `maintenance` hand their token to the engine with
the physical presence asserted; nothing else in the daemon asserts it.

An exception that a command does not answer for is logged, and the connection is closed without a
reply.  The key is nothing where no file is configured or none is there, and otherwise what
`TokenVerifier(public_pem)` gives.
-/
import AegisShield.Engine.Basic
import AegisShield.Lib.Stream
import AegisShield.Lib.Strip

namespace AegisShield

open Lib

/-- `engine.status()`. -/
def Engine.status {W : World} (e : Engine W) : W.R.Value :=
  .obj [("device_id", .str e.journal.deviceId), ("state", .str e.state.value),
    ("state_version", .int e.stateVersion), ("last_sequence", .int e.journal.lastSequence),
    ("containment_sequence", e.containmentSequence), ("recovery_sequence", e.recoverySequence),
    ("writes_allowed", .bool (e.state ∈ AegisState.writable))]

namespace Daemon

/-! ## 1. Commands -/

/-- A command, as the branches of `_handle_socket_command` take it. -/
inductive Command
  | status
  | authorize (token : String)
  | maintenance (token : String)
  | exitMaintenance (compact : Bool)
  | compact
  | unknown (command : String)
  deriving DecidableEq, Repr

/-- The chain of tests in `_handle_socket_command`. -/
def Command.parse (command : List Char) : Command :=
  if command = "status".toList then .status
  else if "authorize ".toList.isPrefixOf command then
    .authorize (String.ofList (strip (command.drop "authorize ".length)))
  else if "maintenance ".toList.isPrefixOf command then
    .maintenance (String.ofList (strip (command.drop "maintenance ".length)))
  else if "exit-maintenance".toList.isPrefixOf command then
    .exitMaintenance (command.tails.any "compact".toList.isPrefixOf)
  else if command = "compact".toList then .compact
  else .unknown (String.ofList command)

/-- What the replies take from the interpreter: `repr` of a `str`, and the text of an exception that
the library raises. -/
structure Texts where
  repr : String → String
  str : Raised → String

/-- `str(exc)`. -/
def Texts.message (texts : Texts) : Raised → String
  | .valueError message => message
  | .permissionError message => message
  | .runtimeError message => message
  | .journalCorruptionError message => message
  | exception => texts.str exception

/-- `except RuntimeError`. -/
def isRuntimeError : Raised → Bool
  | .runtimeError _ => true
  | .journalCorruptionError _ => true
  | _ => false

/-- `except ValueError`. -/
def isValueError : Raised → Bool
  | .valueError _ => true
  | .jsonDecodeError => true
  | .unicodeDecodeError => true
  | _ => false

/-- `except PermissionError`. -/
def isPermissionError : Raised → Bool
  | .permissionError _ => true
  | _ => false

/-- `except OSError`. -/
def isOSError : Raised → Bool
  | .permissionError _ => true
  | .fileNotFoundError => true
  | .fileExistsError => true
  | _ => false

section Commands

variable {W : World} (texts : Texts) (publicKey : Option (Except Raised TokenVerifier)) (s : Sys W)

/-- A reply, or the exception that the connection ends with; and the system behind it. -/
abbrev Replied (W : World) := Outcome W W.R.Value

/-- The `except` clause of `_socket_authorize` and `_socket_enter_maintenance`. -/
def grantRefused (field : String) (e : Raised) : Except Raised W.R.Value :=
  if isRuntimeError e || isPermissionError e || isValueError e then
    .ok (.obj [(field, .bool false), ("error", .str (texts.message e))])
  else .error e

/-- `_socket_authorize` and `_socket_enter_maintenance`: the field of the reply, and the call. -/
def socketGrant (field : String) (call : TokenVerifier → Outcome W Unit) : Replied W :=
  match publicKey with
  | none => (.ok (.obj [("error", .str "no public key configured on this daemon")]), s)
  | some (.error e) => (grantRefused texts field e, s)
  | some (.ok verifier) =>
    match call verifier with
    | (.ok (), s) => (.ok (.obj [(field, .bool true), ("state", .str s.engine.state.value)]), s)
    | (.error e, s) => (grantRefused texts field e, s)

/-- `_socket_authorize`. -/
def socketAuthorize (token : String) : Replied W :=
  socketGrant texts publicKey s "authorized" fun verifier =>
    s.authorizeRecovery token verifier true none

/-- `_socket_enter_maintenance`. -/
def socketEnterMaintenance (token : String) : Replied W :=
  socketGrant texts publicKey s "maintenance" fun verifier =>
    s.enterMaintenance token verifier true none

/-- `_socket_exit_maintenance`. -/
def socketExitMaintenance (compact : Bool) : Replied W :=
  match s.exitMaintenance compact with
  | (.ok (some snapshotName), s) =>
    (.ok (.obj [("state", .str s.engine.state.value), ("compacted_snapshot", .str snapshotName)]), s)
  | (.ok none, s) => (.ok (.obj [("state", .str s.engine.state.value)]), s)
  | (.error e, s) =>
    (if isRuntimeError e || isValueError e then .ok (.obj [("error", .str (texts.message e))])
      else .error e, s)

/-- `_socket_compact`. -/
def socketCompact : Replied W :=
  match s.compactJournal "compact" with
  | (.ok snapshotName, s) =>
    (.ok (.obj [("compacted", .bool true), ("snapshot_name", .str snapshotName)]), s)
  | (.error e, s) =>
    (if isRuntimeError e || isValueError e || isOSError e then
      .ok (.obj [("compacted", .bool false), ("error", .str (texts.message e))])
      else .error e, s)

/-- `_handle_socket_command`, behind its tests. -/
def Command.reply : Command → Replied W
  | .status => (.ok s.engine.status, s)
  | .authorize token => socketAuthorize texts publicKey s token
  | .maintenance token => socketEnterMaintenance texts publicKey s token
  | .exitMaintenance compacting => socketExitMaintenance texts s compacting
  | .compact => socketCompact texts s
  | .unknown command =>
    (.ok (.obj [("error", .str ("unknown command: " ++ texts.repr command))]), s)

/-- `_handle_socket_command`. -/
def handleSocketCommand (command : List Char) : Replied W :=
  (Command.parse command).reply texts publicKey s

/-- What the first `recv` of a connection gives, decoded and stripped. -/
def received (connection : Connection) : Option (List Char) :=
  (decodeUtf8 (connection.recv 4096).1).map strip

/-- One connection of `_serve_unix_socket`: the reply, if one is sent, and the system behind it. -/
def serveConsole (connection : Connection) : Option W.R.Value × Sys W :=
  match received connection with
  | none => (none, s)
  | some data =>
    match handleSocketCommand texts publicKey s data with
    | (.ok reply, s) => (some reply, s)
    | (.error _, s) => (none, s)

/-! ## 2. What a connection can do -/

/-- The call of the engine that a command makes, and the call alone. -/
def Command.call : Command → Option EngineCall
  | .authorize token =>
    publicKey.bind fun key => key.toOption.map fun verifier =>
      .authorizeRecovery token verifier true none
  | .maintenance token =>
    publicKey.bind fun key => key.toOption.map fun verifier =>
      .enterMaintenance token verifier true none
  | .exitMaintenance compacting => some (.exitMaintenance compacting)
  | .compact => some (.compactJournal "compact")
  | _ => none

/-- **The calls that the console makes**, with the physical presence asserted. -/
theorem Command.call_cases {command : Command} {c : EngineCall}
    (h : command.call publicKey = some c) :
    (∃ token verifier, publicKey = some (.ok verifier) ∧ command = .authorize token ∧
        c = .authorizeRecovery token verifier true none) ∨
      (∃ token verifier, publicKey = some (.ok verifier) ∧ command = .maintenance token ∧
        c = .enterMaintenance token verifier true none) ∨
      (∃ compacting, command = .exitMaintenance compacting ∧ c = .exitMaintenance compacting) ∨
      (command = .compact ∧ c = .compactJournal "compact") := by
  cases command with
  | status => cases h
  | authorize token =>
    rcases publicKey with _ | e | verifier <;> cases h
    exact Or.inl ⟨token, verifier, rfl, rfl, rfl⟩
  | maintenance token =>
    rcases publicKey with _ | e | verifier <;> cases h
    exact Or.inr (Or.inl ⟨token, verifier, rfl, rfl, rfl⟩)
  | exitMaintenance compacting =>
    cases h
    exact Or.inr (Or.inr (Or.inl ⟨compacting, rfl, rfl⟩))
  | compact =>
    cases h
    exact Or.inr (Or.inr (Or.inr ⟨rfl, rfl⟩))
  | unknown command => cases h

/-- The system behind an optional call. -/
def perform (c : Option EngineCall) : Sys W := c.elim s fun c => (c.run s).2

theorem socketGrant_sys (field : String) (call : TokenVerifier → Outcome W Unit) :
    (socketGrant texts publicKey s field call).2 =
      (publicKey.bind fun key => key.toOption).elim s fun verifier => (call verifier).2 := by
  unfold socketGrant
  rcases publicKey with - | - | verifier
  · rfl
  · rfl
  · simp only [Option.bind_some, Except.toOption, Option.elim_some]
    rcases call verifier with ⟨- | -, s'⟩ <;> rfl

/-- **A command makes its call of the engine and touches nothing besides.** -/
theorem Command.reply_sys (c : Command) :
    (c.reply texts publicKey s).2 = perform s (c.call publicKey) := by
  cases c with
  | status => rfl
  | authorize token =>
    refine (socketGrant_sys texts publicKey s "authorized" _).trans ?_
    rcases publicKey with - | - | verifier <;> rfl
  | maintenance token =>
    refine (socketGrant_sys texts publicKey s "maintenance" _).trans ?_
    rcases publicKey with - | - | verifier <;> rfl
  | exitMaintenance compacting =>
    simp only [Command.reply, socketExitMaintenance]
    rcases h : s.exitMaintenance compacting with ⟨e | _ | name, s'⟩ <;>
      simp only [perform, Command.call, Option.elim, EngineCall.run, h]
  | compact =>
    simp only [Command.reply, socketCompact]
    rcases h : s.compactJournal "compact" with ⟨e | name, s'⟩ <;>
      simp only [perform, Command.call, Option.elim, EngineCall.run, h]
  | unknown command => rfl

/-- The command of a connection. -/
def consoleCommand (connection : Connection) : Option Command :=
  (received connection).map Command.parse

/-- A connection makes the call of its command, whether the reply is sent or not. -/
theorem serveConsole_sys (connection : Connection) :
    (serveConsole texts publicKey s connection).2 =
      perform s ((consoleCommand connection).bind (Command.call publicKey)) := by
  unfold serveConsole consoleCommand
  cases received connection with
  | none => rfl
  | some data =>
    have hsys := Command.reply_sys texts publicKey s (Command.parse data)
    simp only [handleSocketCommand]
    rcases h : (Command.parse data).reply texts publicKey s with ⟨e | reply, s'⟩ <;>
      rw [h] at hsys <;> exact hsys

end Commands

end Daemon

end AegisShield
