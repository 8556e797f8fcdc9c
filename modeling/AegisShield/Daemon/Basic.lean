/-
# The daemon (`daemon/service.py`)

Three kinds of callers work on the one engine of the daemon: the clients of the block device, the
callers of the API, and whoever sits at the console.  Their operations run in any order.  A request
for an export is worked on step by step, and the other callers come in between its steps; the
handlers of the API do not overlap each other.

Each step makes one call of the engine, the one that its caller asks for, or goes on beside it
(`step_touches`).  Requests that only read are left out, and so is the key of the API: whoever calls
it is taken to have one.
-/
import AegisShield.Api.Challenges
import AegisShield.Api.Manifest
import AegisShield.Daemon.Socket
import AegisShield.Nbd.Framing
import AegisShield.Engine.Anchors

namespace AegisShield.Daemon

open Lib

variable {W : World}

/-! ## 1. The daemon -/

/-- The daemon: its engine with the export that is on its way, and the challenges. -/
structure State (W : World) where
  work : Exporting W
  challenges : Api.Store

abbrev State.sys (d : State W) : Sys W := d.work.sys

/-- The engine at rest, and nothing else on its way. -/
def State.start (s : Sys W) : State W := ⟨Exporting.start s, []⟩

/-- A request to the API that does something, with what the handler draws and the key file that it
finds. -/
inductive ApiRequest
  | challenge (action fresh : String)
  | authorize (challengeId token : String) (publicKey : Option (Except Raised TokenVerifier))
  | recoveryExport (targetSequence : Option Int)

/-- An operation of the daemon. -/
inductive Op
  /-- A connection to the Unix socket, and the key file at that time. -/
  | console (connection : Connection) (publicKey : Option (Except Raised TokenVerifier))
  /-- A request of a client of the block device. -/
  | frame (r : Nbd.Request) (payload : Bytes)
  | request (r : ApiRequest)
  /-- The next step of the export that is on its way. -/
  | work (token : String)

/-- The operation comes over the network. -/
def Op.Remote : Op → Prop
  | .console _ _ => False
  | _ => True

/-- `NbdServer(engine)`, for an engine with a journal of this geometry. -/
def gate (W : World) (md : Metadata) (hsize : 0 < md.blockSize) : Nbd.NbdServer (Sys W) where
  engine :=
    { blockSize := md.blockSize
      blockSize_pos := hsize
      blocks := md.blocks
      read := fun s lba blocks =>
        let r := s.read lba blocks
        (r.1.mapError .raised, r.2)
      write := fun s lba payload =>
        let r := s.write lba payload
        ((r.1.map fun _ => ()).mapError .raised, r.2)
      flush := fun s => (s.flush.1.mapError .raised, s.flush.2) }

/-- An export is on its way. -/
def ExportPhase.busy : ExportPhase → Bool
  | .idle => false
  | .failed _ => false
  | _ => true

namespace State

variable (d : State W)

/-- Work on the engine. -/
def onSys (f : Sys W → Sys W) : State W := { d with work := { d.work with sys := f d.sys } }

/-- A handler of the API. -/
def serve : ApiRequest → State W
  | .challenge action fresh =>
    let r := Api.createChallenge d.sys.engine d.challenges action (W.clock.time d.sys.ticks) fresh
      (W.clock.time (d.sys.ticks + 1))
    { d.onSys (fun s => s.tick.tick) with challenges := r.2 }
  | .authorize challengeId token publicKey =>
    let r := Api.authorizeAction d.sys.engine publicKey d.challenges challengeId token
      (W.clock.time d.sys.ticks)
    { d.onSys Sys.tick with challenges := r.2 }
  | .recoveryExport targetSequence => { d with work := d.work.check targetSequence }

/-- The next step of an export.  Behind the last one of the bundle is the manifest. -/
def proceed (token : String) : State W :=
  match d.work.phase with
  | .done target name =>
    match Api.noteExport d.sys target name with
    | (.ok _, s) => { d with work := { d.work with sys := s, phase := .idle } }
    | (.error _, s) =>
      { d with work := { d.work with sys := s, phase := .failed ⟨500, "Internal Server Error"⟩ } }
  | _ => { d with work := d.work.next token }

end State

section Run

variable (texts : Texts) (md : Metadata) (hsize : 0 < md.blockSize)

/-- One step of the daemon.  A request waits while an export is on its way. -/
def step (d : State W) : Op → State W
  | .console connection publicKey =>
    d.onSys fun s => (serveConsole texts publicKey s connection).2
  | .frame r payload => d.onSys fun s => ((gate W md hsize).handle r payload s).2.1
  | .request r => if ExportPhase.busy d.work.phase then d else d.serve r
  | .work token => d.proceed token

/-! ## 2. What one step does to the engine -/

/-- The engine goes on as it was: only an audit entry, a bundle or a clock reading has come in. -/
structure Beside (s s' : Sys W) : Prop where
  engine : ∃ audit, s'.engine = { s.engine with audit := audit }
  state : s'.disk.state = s.disk.state
  files : s'.disk.root.toDir = s.disk.root.toDir

/-- An operation of the block device. -/
inductive BlockCall : EngineCall → Prop
  | read (lba blocks : Nat) : BlockCall (.read lba blocks)
  | write (lba : Nat) (payload : Bytes) : BlockCall (.write lba payload)
  | flush : BlockCall .flush

/-- The operation makes the call `c`. -/
def Op.Makes (c : EngineCall) : Op → Prop
  | .console connection publicKey =>
    (consoleCommand connection).bind (Command.call publicKey) = some c
  | .frame _ _ => BlockCall c
  | _ => False

/-- A step makes one call of the engine, or goes on beside it. -/
inductive Touches (o : Op) (s : Sys W) : Sys W → Prop
  | call (c : EngineCall) (h : o.Makes c) : Touches o s (c.run s).2
  | beside {s' : Sys W} (h : Beside s s') : Touches o s s'

theorem Beside.refl (s : Sys W) : Beside s s := ⟨⟨_, rfl⟩, rfl, rfl⟩

theorem Beside.tick (s : Sys W) : Beside s s.tick := ⟨⟨_, rfl⟩, rfl, rfl⟩

theorem Beside.audit (s : Sys W) (event : String) (details : Dict W.R.Value) :
    Beside s (s.audit event details) := ⟨⟨_, rfl⟩, rfl, rfl⟩

theorem Beside.bundles (s : Sys W) (bundles : List (String × Dir)) :
    Beside s (s.emit (.snapshots bundles)) := ⟨⟨_, rfl⟩, rfl, rfl⟩

theorem Beside.trans {s s' s'' : Sys W} (h : Beside s s') (h' : Beside s' s'') : Beside s s'' := by
  obtain ⟨⟨audit, heq⟩, hstate, hfiles⟩ := h
  obtain ⟨⟨audit', heq'⟩, hstate', hfiles'⟩ := h'
  refine ⟨⟨audit', ?_⟩, hstate'.trans hstate, hfiles'.trans hfiles⟩
  rw [heq', heq]

/-- The steps of an export. -/
theorem next_beside (y : Exporting W) (token : String) : Beside y.sys (y.next token).sys := by
  unfold Exporting.next
  split
  · unfold Exporting.make
    extract_lets s name
    split
    · exact Beside.refl _
    · split
      · exact Beside.tick _
      · exact (Beside.tick _).trans (Beside.bundles _ _)
  · exact Beside.bundles _ _
  · exact Beside.refl _
  · exact Beside.bundles _ _
  · unfold Exporting.verify
    split
    · exact Beside.refl _
    · split
      · exact Beside.refl _
      · exact Beside.bundles _ _
  · exact Beside.refl _

theorem noteExport_beside (s : Sys W) (target : Int) (name : String) :
    Beside s (Api.noteExport s target name).2 := by
  unfold Api.noteExport
  split
  · exact Beside.refl _
  · exact (Beside.tick _).trans (Beside.audit _ _ _)

/-- A request of the block device goes to the engine once, or not at all. -/
theorem handle_engine {E : Type} (server : Nbd.NbdServer E) (r : Nbd.Request) (payload : Bytes)
    (e : E) : (server.handle r payload e).2.1 = e ∨
      (server.handle r payload e).2.1 = (server.engine.flush e).2 ∨
      (∃ lba n, (server.handle r payload e).2.1 = (server.engine.read e lba n).2) ∨
      ∃ lba, (server.handle r payload e).2.1 = (server.engine.write e lba payload).2 := by
  unfold Nbd.NbdServer.handle
  split
  · split
    · exact Or.inl rfl
    · refine Or.inr (Or.inl ?_)
      split <;> rename_i heq <;> rw [heq]
  · split
    · exact Or.inl rfl
    · dsimp only
      split
      · refine Or.inr (Or.inr (Or.inl ⟨r.offset / server.engine.blockSize,
          r.length / server.engine.blockSize, ?_⟩))
        split <;> rename_i heq <;> rw [heq]
      · split
        · refine Or.inr (Or.inr (Or.inr ⟨r.offset / server.engine.blockSize, ?_⟩))
          split <;> rename_i heq <;> rw [heq]
        · exact Or.inl rfl

theorem handle_touches (r : Nbd.Request) (payload : Bytes) (s : Sys W) :
    Touches (.frame r payload) s ((gate W md hsize).handle r payload s).2.1 := by
  rcases handle_engine (gate W md hsize) r payload s with h | h | ⟨lba, n, h⟩ | ⟨lba, h⟩
  all_goals rw [h]
  · exact .beside (Beside.refl s)
  · exact .call .flush .flush
  · exact .call (.read lba n) (.read lba n)
  · exact .call (.write lba payload) (.write lba payload)

/-- **Each step of the daemon makes one call of the engine, or goes on beside it.** -/
theorem step_touches (d : State W) (o : Op) :
    Touches o d.sys (step texts md hsize d o).sys := by
  cases o with
  | console connection publicKey =>
    change Touches _ _ (serveConsole texts publicKey d.sys connection).2
    rw [serveConsole_sys]
    cases h : (consoleCommand connection).bind (Command.call publicKey) with
    | none => exact .beside (Beside.refl _)
    | some c => exact .call c h
  | frame r payload => exact handle_touches md hsize r payload d.sys
  | request r =>
    simp only [step]
    split
    · exact .beside (Beside.refl _)
    · cases r with
      | challenge action fresh => exact .beside ((Beside.tick _).trans (Beside.tick _))
      | authorize challengeId token publicKey => exact .beside (Beside.tick _)
      | recoveryExport targetSequence => exact .beside (Beside.refl _)
  | work token =>
    change Touches _ _ (d.proceed token).sys
    unfold State.proceed
    split
    · rename_i target name hphase
      have hnote := noteExport_beside d.sys target name
      split <;> rename_i heq <;> rw [heq] at hnote <;> exact .beside hnote
    · exact .beside (next_beside d.work token)

end Run

end AegisShield.Daemon
