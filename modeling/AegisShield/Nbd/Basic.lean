/-
# The NBD export: the transmission phase (`core/nbd.py`)

After negotiation a client sends REQUESTS: 28 bytes of header, and behind a WRITE its payload.
`transmit` reads them off the connection one by one, calls the engine, and answers each with 16
bytes of header and the data of a READ.

The engine is a parameter: any state that `read`, `write` and `flush` work on.  `connection.recv`
gives the bytes in the pieces they arrive in.  Clients take what they are sent: `connection.sendall`
takes all bytes it is given, and does not raise.  The names in the errors and the headers are those
of the source; `flags` is unpacked and dropped.
-/
import AegisShield.Runtime
import AegisShield.Lib.BigEndian
import AegisShield.Lib.Stream

namespace AegisShield.Nbd

open Lib

/-! ## 1. Constants -/

/-- `NBD_REQUEST_MAGIC`. -/
def requestMagic : Nat := 0x25609513

/-- `NBD_REPLY_MAGIC`. -/
def replyMagic : Nat := 0x67446698

/-- `NBD_CMD_READ`. -/
def cmdRead : Nat := 0

/-- `NBD_CMD_WRITE`. -/
def cmdWrite : Nat := 1

/-- `NBD_CMD_DISC`. -/
def cmdDisc : Nat := 2

/-- `NBD_CMD_FLUSH`. -/
def cmdFlush : Nat := 3

/-- `errno.EIO`. -/
def eio : Nat := 5

/-- `errno.EINVAL`. -/
def einval : Nat := 22

/-- `errno.EROFS`. -/
def erofs : Nat := 30

/-- `errno.EOPNOTSUPP`. -/
def eopnotsupp : Nat := 95

/-- The largest payload a WRITE may have. -/
def maxPayload : Nat := 16 * 1024 * 1024

/-! ## 2. Exceptions and the engine -/

/-- An exception here: one of the core modules, `ConnectionError`, or another `OSError`. -/
inductive Fault
  | raised (e : Raised)
  | connectionError (message : String)
  | osError
  deriving DecidableEq, Repr

namespace Fault

/-- `except PermissionError`. -/
def isPermissionError : Fault → Bool
  | .raised (.permissionError _) => true
  | _ => false

/-- `except OSError`. -/
def isOSError : Fault → Bool
  | .raised (.permissionError _) => true
  | .raised .fileNotFoundError => true
  | .raised .fileExistsError => true
  | .raised _ => false
  | .connectionError _ => true
  | .osError => true

/-- `except ValueError`. -/
def isValueError : Fault → Bool
  | .raised (.valueError _) => true
  | .raised .jsonDecodeError => true
  | .raised .unicodeDecodeError => true
  | _ => false

end Fault

/-- The engine behind the export, with the geometry of its journal. -/
structure BlockEngine (E : Type) where
  blockSize : Nat
  blockSize_pos : 0 < blockSize
  blocks : Nat
  read : E → Nat → Nat → Except Fault Bytes × E
  write : E → Nat → Bytes → Except Fault Unit × E
  flush : E → Except Fault Unit × E

/-- A call of the engine. -/
inductive Call
  | read (lba blocks : Nat)
  | write (lba : Nat) (payload : Bytes)
  | flush
  deriving DecidableEq, Repr

/-- What `transmit` does to the outside. -/
inductive Event
  | call (c : Call)
  | sendall (bytes : Bytes)
  deriving DecidableEq, Repr

/-! ## 3. Requests -/

/-- The fields of a request's header. -/
structure Request where
  magic : Nat
  flags : Nat
  command : Nat
  handle : Nat
  offset : Nat
  length : Nat
  deriving DecidableEq, Repr

/-- `struct.unpack(">IHHQQI", request)`. -/
def Request.unpack (request : Bytes) : Request where
  magic := ofBigEndian (request.take 4)
  flags := ofBigEndian ((request.drop 4).take 2)
  command := ofBigEndian ((request.drop 6).take 2)
  handle := ofBigEndian ((request.drop 8).take 8)
  offset := ofBigEndian ((request.drop 16).take 8)
  length := ofBigEndian ((request.drop 24).take 4)

/-- `struct.pack(">IIQ", NBD_REPLY_MAGIC, error, handle)`. -/
def packReply (error handle : Nat) : Bytes :=
  bigEndian 4 replyMagic ++ bigEndian 4 error ++ bigEndian 8 handle

/-- The loop of `_recv_exact`. -/
def recvLoop (connection : Connection) (value : Bytes) (size : Nat) :
    Except Fault Bytes × Connection :=
  if value.length < size then
    let r := connection.recv (size - value.length)
    if r.1 = [] then (.error (.connectionError "peer closed connection"), r.2)
    else recvLoop r.2 (value ++ r.1) size
  else (.ok value, connection)
termination_by size - value.length
decreasing_by
  have hchunk : 0 < r.1.length := List.length_pos_iff.mpr ‹_›
  show size - (value ++ r.1).length < size - value.length
  rw [List.length_append]
  omega

/-- `_recv_exact`. -/
def recvExact (connection : Connection) (size : Nat) : Except Fault Bytes × Connection :=
  recvLoop connection [] size

/-- The payload behind a request's header. -/
def recvPayload (r : Request) (connection : Connection) : Except Fault Bytes × Connection :=
  if r.command = cmdWrite then
    if maxPayload < r.length then
      (.error (.connectionError "NBD request exceeds 16 MiB reference limit"), connection)
    else recvExact connection r.length
  else (.ok [], connection)

/-! ## 4. Reading off the connection -/

/-- As many bytes as asked for, if they come. -/
theorem recvLoop_ok {size : Nat} (connection : Connection) (value : Bytes) :
    value.length ≤ size → size ≤ value.length + connection.stream.length →
      ∃ rest, recvLoop connection value size =
          (.ok (value ++ connection.stream.take (size - value.length)), rest) ∧
        rest.stream = connection.stream.drop (size - value.length) := by
  fun_induction recvLoop connection value size with
  | case1 connection value hlt r hnil =>
    intro _ h
    have hend := (connection.recv_eq_nil_iff (by omega)).mp hnil
    rw [hend, List.length_nil] at h
    omega
  | case2 connection value hlt r hsome ih =>
    intro hvalue h
    have happend : r.1 ++ r.2.stream = connection.stream := connection.recv_append _
    have hle : r.1.length ≤ size - value.length := connection.length_recv_le _
    rw [← happend, List.length_append] at h
    obtain ⟨rest, hloop, hrest⟩ := ih (by rw [List.length_append]; omega)
      (by rw [List.length_append]; omega)
    have hleft : size - (value ++ r.1).length = size - value.length - r.1.length := by
      rw [List.length_append]
      omega
    rw [hleft] at hloop hrest
    refine ⟨rest, ?_, ?_⟩
    · rw [hloop, ← happend, List.take_append, List.take_of_length_le hle, List.append_assoc]
    · rw [hrest, ← happend, List.drop_append, List.drop_of_length_le hle, List.nil_append]
  | case3 connection value hge =>
    intro hvalue _
    have hzero : size - value.length = 0 := by omega
    rw [hzero, List.take_zero, List.append_nil, List.drop_zero]
    exact ⟨connection, rfl, rfl⟩

/-- The end of the stream comes first. -/
theorem recvLoop_cut {size : Nat} (connection : Connection) (value : Bytes) :
    value.length + connection.stream.length < size →
      ∃ rest, recvLoop connection value size =
        (.error (.connectionError "peer closed connection"), rest) := by
  fun_induction recvLoop connection value size with
  | case1 connection value hlt r hnil => exact fun _ => ⟨r.2, rfl⟩
  | case2 connection value hlt r hsome ih =>
    intro h
    have happend : r.1 ++ r.2.stream = connection.stream := connection.recv_append _
    rw [← happend, List.length_append] at h
    exact ih (by rw [List.length_append]; omega)
  | case3 connection value hge =>
    intro h
    omega

theorem recvExact_ok {connection : Connection} {size : Nat} (h : size ≤ connection.stream.length) :
    ∃ rest, recvExact connection size = (.ok (connection.stream.take size), rest) ∧
      rest.stream = connection.stream.drop size :=
  recvLoop_ok connection [] (Nat.zero_le size) (by rwa [List.length_nil, Nat.zero_add])

theorem recvExact_cut {connection : Connection} {size : Nat} (h : connection.stream.length < size) :
    ∃ rest, recvExact connection size =
      (.error (.connectionError "peer closed connection"), rest) :=
  recvLoop_cut connection [] (by rwa [List.length_nil, Nat.zero_add])

/-- What a read takes off the stream. -/
theorem recvExact_rest {connection rest : Connection} {size : Nat} {value : Bytes}
    (h : recvExact connection size = (.ok value, rest)) :
    size + rest.stream.length = connection.stream.length := by
  rcases Nat.lt_or_ge connection.stream.length size with hcut | hle
  · obtain ⟨rest', hcut⟩ := recvExact_cut hcut
    rw [hcut] at h
    cases h
  · obtain ⟨rest', hok, hrest⟩ := recvExact_ok hle
    rw [hok] at h
    cases h
    rw [hrest, List.length_drop]
    omega

theorem recvPayload_rest {r : Request} {connection rest : Connection} {value : Bytes}
    (h : recvPayload r connection = (.ok value, rest)) :
    rest.stream.length ≤ connection.stream.length := by
  unfold recvPayload at h
  split at h
  · split at h
    · cases h
    · have hrest := recvExact_rest h
      omega
  · cases h
    exact Nat.le_refl _

/-! ## 5. The transmission phase -/

/-- `NbdServer`. -/
structure NbdServer (E : Type) where
  engine : BlockEngine E

/-- An answer: the error number and the data behind the header. -/
structure Answer where
  error : Nat
  result : Bytes
  deriving DecidableEq, Repr

/-- How a connection ends: what `transmit` returns or raises, the engine behind it, and what it did
to the outside on the way. -/
structure Ended (E : Type) where
  outcome : Except Fault Unit
  engine : E
  trace : List Event

namespace NbdServer

variable {E : Type} (server : NbdServer E)

/-- `export_size`. -/
def exportSize : Nat := server.engine.blocks * server.engine.blockSize

/-- The two `except` clauses behind a READ or a WRITE. -/
def caught (fault : Fault) : Except Fault Answer :=
  if fault.isPermissionError then .ok ⟨erofs, []⟩
  else if fault.isValueError || fault.isOSError then .ok ⟨eio, []⟩
  else .error fault

/-- What is done about a request once it is read: the answer or the exception, the engine behind
it, and the calls of the engine. -/
def handle (r : Request) (payload : Bytes) (e : E) : Except Fault Answer × E × List Call :=
  if r.command = cmdFlush then
    if r.offset ≠ 0 ∨ r.length ≠ 0 then (.ok ⟨einval, []⟩, e, [])
    else match server.engine.flush e with
      | (.ok (), e) => (.ok ⟨0, []⟩, e, [.flush])
      | (.error fault, e) =>
        (if fault.isOSError then .ok ⟨eio, []⟩ else .error fault, e, [.flush])
  else if r.offset % server.engine.blockSize ≠ 0 ∨ r.length = 0 ∨
      r.length % server.engine.blockSize ≠ 0 ∨ server.exportSize < r.offset + r.length then
    (.ok ⟨einval, []⟩, e, [])
  else
    let lba := r.offset / server.engine.blockSize
    let blocks := r.length / server.engine.blockSize
    if r.command = cmdRead then
      match server.engine.read e lba blocks with
      | (.ok result, e) => (.ok ⟨0, result⟩, e, [.read lba blocks])
      | (.error fault, e) => (caught fault, e, [.read lba blocks])
    else if r.command = cmdWrite then
      match server.engine.write e lba payload with
      | (.ok (), e) => (.ok ⟨0, []⟩, e, [.write lba payload])
      | (.error fault, e) => (caught fault, e, [.write lba payload])
    else (.ok ⟨eopnotsupp, []⟩, e, [])

/-- `transmit`. -/
def transmit (connection : Connection) (e : E) : Ended E :=
  match _h : recvExact connection 28 with
  | (.error _, _) => ⟨.ok (), e, []⟩
  | (.ok request, connection₁) =>
    let r := Request.unpack request
    -- the stream is desynchronised: only this connection ends
    if r.magic ≠ requestMagic then ⟨.error (.connectionError "bad NBD request magic"), e, []⟩
    else if r.command = cmdDisc then ⟨.ok (), e, []⟩
    else match _h' : recvPayload r connection₁ with
      | (.error fault, _) => ⟨.error fault, e, []⟩
      | (.ok payload, connection₂) =>
        match server.handle r payload e with
        | (.error fault, e, calls) => ⟨.error fault, e, calls.map .call⟩
        | (.ok answer, e, calls) =>
          let rest := transmit connection₂ e
          ⟨rest.outcome, rest.engine, calls.map .call ++
            .sendall (packReply answer.error r.handle ++ answer.result) :: rest.trace⟩
termination_by connection.stream.length
decreasing_by
  have hheader := recvExact_rest _h
  have hpayload := recvPayload_rest _h'
  omega

end NbdServer

end AegisShield.Nbd
