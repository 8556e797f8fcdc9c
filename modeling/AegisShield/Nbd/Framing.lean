/-
# Framing: the transmission phase is a decoder

`transmit` works on a connection: it never sees the stream, only the chunks that `recv` gives.
Here the stream is cut into FRAMES as a whole (`decode`): a header of 28 bytes, and behind a WRITE
exactly the payload that the header announces.  Then the frames are handled in order (`serve`).

`transmit` does the same for every way in which the stream arrives (`transmit_eq_serve`): it stays
in step with the frames, and every frame it handles is answered once, unless a FLUSH raises
something that is no `OSError`, which ends the connection (`framing_never_desynchronises`).
-/
import AegisShield.Nbd.Basic

namespace AegisShield.Nbd

open Lib

/-! ## 1. Frames -/

/-- A request with its payload, as bytes. -/
structure Frame where
  header : Bytes
  payload : Bytes
  deriving DecidableEq, Repr

namespace Frame

/-- The fields of the header. -/
def request (f : Frame) : Request := Request.unpack f.header

/-- The bytes of the frame. -/
def bytes (f : Frame) : Bytes := f.header ++ f.payload

end Frame

/-- How many bytes of payload stand behind a header. -/
def Request.payloadLength (r : Request) : Nat := if r.command = cmdWrite then r.length else 0

/-- What comes behind the last frame. -/
inductive Ending
  | closed
  | badMagic
  | disc
  | oversized
  | cutPayload
  deriving DecidableEq, Repr

/-- What `transmit` makes of it. -/
def Ending.outcome : Ending → Except Fault Unit
  | .closed => .ok ()
  | .badMagic => .error (.connectionError "bad NBD request magic")
  | .disc => .ok ()
  | .oversized => .error (.connectionError "NBD request exceeds 16 MiB reference limit")
  | .cutPayload => .error (.connectionError "peer closed connection")

/-- A decoded stream: the frames, and the bytes behind them with what they are. -/
structure Decoded where
  frames : List Frame
  ending : Ending
  rest : Bytes
  deriving DecidableEq, Repr

/-- The whole stream, cut into frames. -/
def decode (stream : Bytes) : Decoded :=
  let r := Request.unpack (stream.take 28)
  if stream.length < 28 then ⟨[], .closed, stream⟩
  else if r.magic ≠ requestMagic then ⟨[], .badMagic, stream⟩
  else if r.command = cmdDisc then ⟨[], .disc, stream⟩
  else if r.command = cmdWrite ∧ maxPayload < r.length then ⟨[], .oversized, stream⟩
  else if stream.length < 28 + r.payloadLength then ⟨[], .cutPayload, stream⟩
  else
    let d := decode (stream.drop (28 + r.payloadLength))
    ⟨⟨stream.take 28, (stream.drop 28).take r.payloadLength⟩ :: d.frames, d.ending, d.rest⟩
termination_by stream.length
decreasing_by
  rw [List.length_drop]
  omega

/-- The request can be read and is no end of the stream. -/
structure Frame.Valid (f : Frame) : Prop where
  header : f.header.length = 28
  magic : f.request.magic = requestMagic
  command : f.request.command ≠ cmdDisc
  payload : f.payload.length = f.request.payloadLength
  limit : f.request.command = cmdWrite → f.request.length ≤ maxPayload

/-- The bytes end the stream in this way. -/
def Ending.Of (rest : Bytes) : Ending → Prop
  | .closed => rest.length < 28
  | .badMagic => 28 ≤ rest.length ∧ (Request.unpack (rest.take 28)).magic ≠ requestMagic
  | .disc => 28 ≤ rest.length ∧ (Request.unpack (rest.take 28)).magic = requestMagic ∧
      (Request.unpack (rest.take 28)).command = cmdDisc
  | .oversized => 28 ≤ rest.length ∧ (Request.unpack (rest.take 28)).magic = requestMagic ∧
      (Request.unpack (rest.take 28)).command = cmdWrite ∧
      maxPayload < (Request.unpack (rest.take 28)).length
  | .cutPayload => 28 ≤ rest.length ∧ (Request.unpack (rest.take 28)).magic = requestMagic ∧
      (Request.unpack (rest.take 28)).command = cmdWrite ∧
      (Request.unpack (rest.take 28)).length ≤ maxPayload ∧
      rest.length < 28 + (Request.unpack (rest.take 28)).length

/-- The frames and the rest are the stream, and each of them is what it should be. -/
structure Decoded.Of (stream : Bytes) (d : Decoded) : Prop where
  bytes : d.frames.flatMap Frame.bytes ++ d.rest = stream
  valid : ∀ f ∈ d.frames, f.Valid
  ending : d.ending.Of d.rest

/-- **Decoding loses nothing.** -/
theorem decode_of (stream : Bytes) : (decode stream).Of stream := by
  fun_induction decode stream with
  | case1 stream hshort => exact ⟨rfl, nofun, hshort⟩
  | case2 stream r hlong hmagic => exact ⟨rfl, nofun, Nat.le_of_not_lt hlong, hmagic⟩
  | case3 stream r hlong hmagic hdisc =>
    exact ⟨rfl, nofun, Nat.le_of_not_lt hlong, not_not.mp hmagic, hdisc⟩
  | case4 stream r hlong hmagic hdisc hover =>
    exact ⟨rfl, nofun, Nat.le_of_not_lt hlong, not_not.mp hmagic, hover⟩
  | case5 stream r hlong hmagic hdisc hover hcut =>
    by_cases hwrite : r.command = cmdWrite
    · rw [Request.payloadLength, if_pos hwrite] at hcut
      have hlimit : r.length ≤ maxPayload := Nat.le_of_not_lt fun h => hover ⟨hwrite, h⟩
      exact ⟨rfl, nofun, Nat.le_of_not_lt hlong, not_not.mp hmagic, hwrite, hlimit, hcut⟩
    · rw [Request.payloadLength, if_neg hwrite] at hcut
      omega
  | case6 stream r hlong hmagic hdisc hover hcut d ih =>
    have htake : (stream.drop 28).take r.payloadLength ++ stream.drop (28 + r.payloadLength) =
        stream.drop 28 := by
      rw [← List.drop_drop, List.take_append_drop]
    refine ⟨?_, List.forall_mem_cons.mpr ⟨⟨?_, not_not.mp hmagic, hdisc, ?_, ?_⟩, ih.valid⟩,
      ih.ending⟩
    · show (stream.take 28 ++ (stream.drop 28).take r.payloadLength) ++
        d.frames.flatMap Frame.bytes ++ d.rest = stream
      rw [List.append_assoc, ih.bytes, List.append_assoc, htake, List.take_append_drop]
    · rw [List.length_take]
      omega
    · show ((stream.drop 28).take r.payloadLength).length = r.payloadLength
      rw [List.length_take, List.length_drop]
      omega
    · exact fun hwrite => Nat.le_of_not_lt fun h => hover ⟨hwrite, h⟩

/-! ## 2. Handling the frames -/

section Serving

variable {E : Type} (server : NbdServer E)

/-- The frames, handled in order. -/
def serve : List Frame → Ending → E → Ended E
  | [], ending, e => ⟨ending.outcome, e, []⟩
  | f :: fs, ending, e =>
    match server.handle f.request f.payload e with
    | (.error fault, e, calls) => ⟨.error fault, e, calls.map .call⟩
    | (.ok answer, e, calls) =>
      let rest := serve fs ending e
      ⟨rest.outcome, rest.engine, calls.map .call ++
        .sendall (packReply answer.error f.request.handle ++ answer.result) :: rest.trace⟩

/-- One round of `transmit`. -/
theorem transmit_eq (connection : Connection) (e : E) :
    server.transmit connection e =
      match recvExact connection 28 with
      | (.error _, _) => ⟨.ok (), e, []⟩
      | (.ok request, connection₁) =>
        if (Request.unpack request).magic ≠ requestMagic then
          ⟨.error (.connectionError "bad NBD request magic"), e, []⟩
        else if (Request.unpack request).command = cmdDisc then ⟨.ok (), e, []⟩
        else match recvPayload (Request.unpack request) connection₁ with
          | (.error fault, _) => ⟨.error fault, e, []⟩
          | (.ok payload, connection₂) =>
            match server.handle (Request.unpack request) payload e with
            | (.error fault, e, calls) => ⟨.error fault, e, calls.map .call⟩
            | (.ok answer, e, calls) =>
              let rest := server.transmit connection₂ e
              ⟨rest.outcome, rest.engine, calls.map .call ++
                .sendall (packReply answer.error (Request.unpack request).handle ++
                  answer.result) :: rest.trace⟩ := by
  rw [NbdServer.transmit]
  rcases recvExact connection 28 with ⟨_ | request, connection₁⟩
  · rfl
  · simp only
    rcases recvPayload (Request.unpack request) connection₁ with ⟨_ | payload, connection₂⟩
    · rfl
    · rfl

/-- The payload behind a header, if all of it comes. -/
theorem recvPayload_ok {r : Request} {connection : Connection}
    (hlimit : ¬ (r.command = cmdWrite ∧ maxPayload < r.length))
    (h : r.payloadLength ≤ connection.stream.length) :
    ∃ rest, recvPayload r connection = (.ok (connection.stream.take r.payloadLength), rest) ∧
      rest.stream = connection.stream.drop r.payloadLength := by
  unfold recvPayload Request.payloadLength at *
  by_cases hwrite : r.command = cmdWrite
  · rw [if_pos hwrite] at h ⊢
    rw [if_pos hwrite, if_neg fun hover => hlimit ⟨hwrite, hover⟩]
    exact recvExact_ok h
  · rw [if_neg hwrite, if_neg hwrite]
    exact ⟨connection, rfl, rfl⟩

theorem recvPayload_oversized {r : Request} {connection : Connection}
    (h : r.command = cmdWrite ∧ maxPayload < r.length) :
    recvPayload r connection =
      (.error (.connectionError "NBD request exceeds 16 MiB reference limit"), connection) := by
  rw [recvPayload, if_pos h.1, if_pos h.2]

theorem recvPayload_cut {r : Request} {connection : Connection}
    (hlimit : ¬ (r.command = cmdWrite ∧ maxPayload < r.length))
    (h : connection.stream.length < r.payloadLength) :
    ∃ rest, recvPayload r connection =
      (.error (.connectionError "peer closed connection"), rest) := by
  unfold recvPayload Request.payloadLength at *
  by_cases hwrite : r.command = cmdWrite
  · rw [if_pos hwrite] at h ⊢
    rw [if_neg fun hover => hlimit ⟨hwrite, hover⟩]
    exact recvExact_cut h
  · rw [if_neg hwrite] at h
    omega

/-- **`transmit` handles the frames of the stream**, however it arrives. -/
theorem transmit_eq_serve (connection : Connection) (e : E) :
    server.transmit connection e =
      serve server (decode connection.stream).frames (decode connection.stream).ending e := by
  induction hn : connection.stream.length using Nat.strong_induction_on
    generalizing connection e with
  | _ n ih =>
  rw [transmit_eq, decode]
  -- the branches in the order of the code: the header, its magic, the disconnect, the length
  by_cases hshort : connection.stream.length < 28
  · obtain ⟨rest, hcut⟩ := recvExact_cut hshort
    rw [hcut, if_pos hshort]
    rfl
  obtain ⟨connection₁, hheader, hstream₁⟩ := recvExact_ok (Nat.le_of_not_lt hshort)
  rw [hheader, if_neg hshort]
  simp only
  generalize hr : Request.unpack (connection.stream.take 28) = r
  by_cases hmagic : r.magic ≠ requestMagic
  · rw [if_pos hmagic, if_pos hmagic]
    rfl
  rw [if_neg hmagic, if_neg hmagic]
  by_cases hdisc : r.command = cmdDisc
  · rw [if_pos hdisc, if_pos hdisc]
    rfl
  rw [if_neg hdisc, if_neg hdisc]
  by_cases hover : r.command = cmdWrite ∧ maxPayload < r.length
  · rw [if_pos hover, recvPayload_oversized hover]
    rfl
  rw [if_neg hover]
  have hlength₁ : connection₁.stream.length = connection.stream.length - 28 := by
    rw [hstream₁, List.length_drop]
  by_cases hcut : connection.stream.length < 28 + r.payloadLength
  · have hleft : connection₁.stream.length < r.payloadLength := by omega
    obtain ⟨rest, hpayload⟩ := recvPayload_cut hover hleft
    rw [if_pos hcut, hpayload]
    rfl
  have hleft : r.payloadLength ≤ connection₁.stream.length := by omega
  obtain ⟨connection₂, hpayload, hstream₂⟩ := recvPayload_ok hover hleft
  rw [if_neg hcut, hpayload]
  rw [hstream₁] at hstream₂
  rw [List.drop_drop] at hstream₂
  -- a frame was read, so less of the stream is left
  have hlength₂ : connection₂.stream.length < n := by
    rw [hstream₂, List.length_drop]
    omega
  simp only [serve, Frame.request, hstream₁, hr]
  generalize server.handle r ((connection.stream.drop 28).take r.payloadLength) e = handled
  obtain ⟨_ | answer, e', calls⟩ := handled
  · rfl
  · simp only [ih _ hlength₂ connection₂ e' rfl, hstream₂]

/-! ## 3. Answers -/

/-- What the engine may raise. -/
def BlockEngine.RaisesOnly (engine : BlockEngine E) (P : Fault → Prop) : Prop :=
  (∀ e lba blocks fault, (engine.read e lba blocks).1 = .error fault → P fault) ∧
    (∀ e lba payload fault, (engine.write e lba payload).1 = .error fault → P fault) ∧
    ∀ e fault, (engine.flush e).1 = .error fault → P fault

/-- A read gives the blocks it is asked for. -/
def BlockEngine.ReadsWhole (engine : BlockEngine E) : Prop :=
  ∀ e lba blocks result, (engine.read e lba blocks).1 = .ok result →
    result.length = blocks * engine.blockSize

/-- The geometry of a request is valid: nothing for a FLUSH, else whole blocks of the export. -/
def NbdServer.Placed (r : Request) : Prop :=
  if r.command = cmdFlush then r.offset = 0 ∧ r.length = 0
  else r.offset % server.engine.blockSize = 0 ∧ r.length ≠ 0 ∧
    r.length % server.engine.blockSize = 0 ∧ r.offset + r.length ≤ server.exportSize

/-- The engine's call for a frame of valid geometry, if its command has one. -/
def NbdServer.callsOf (f : Frame) : List Call :=
  if f.request.command = cmdFlush then [.flush]
  else if f.request.command = cmdRead then
    [.read (f.request.offset / server.engine.blockSize)
      (f.request.length / server.engine.blockSize)]
  else if f.request.command = cmdWrite then
    [.write (f.request.offset / server.engine.blockSize) f.payload]
  else []

/-- The answer to a frame, and the calls before it. -/
structure NbdServer.Answers (f : Frame) (calls : List Call) (a : Answer) : Prop where
  result : a.result.length =
    if f.request.command = cmdRead ∧ a.error = 0 then f.request.length else 0
  invalid : ¬ server.Placed f.request → a.error = einval ∧ calls = []
  valid : server.Placed f.request → a.error ≠ einval ∧ calls = server.callsOf f

/-- The frames are answered one by one: the engine's calls, and then 16 bytes with the handle of the
frame, and the data. -/
inductive NbdServer.Answered : List Frame → List Event → Prop
  | nil : Answered [] []
  | cons {f : Frame} {fs : List Frame} {calls : List Call} {a : Answer} {trace : List Event}
      (h : server.Answers f calls a) (rest : Answered fs trace) :
      Answered (f :: fs) (calls.map .call ++
        .sendall (bigEndian 4 replyMagic ++ bigEndian 4 a.error ++ (f.header.drop 8).take 8 ++
          a.result) :: trace)

/-- The reply's header is that of the request it answers. -/
theorem Frame.Valid.packReply_eq {f : Frame} (h : f.Valid) (error : Nat) :
    packReply error f.request.handle =
      bigEndian 4 replyMagic ++ bigEndian 4 error ++ (f.header.drop 8).take 8 := by
  have hlength : ((f.header.drop 8).take 8).length = 8 := by
    rw [List.length_take, List.length_drop, h.header]
    rfl
  have hhandle := bigEndian_ofBigEndian ((f.header.drop 8).take 8)
  rw [hlength] at hhandle
  exact congrArg (bigEndian 4 replyMagic ++ bigEndian 4 error ++ ·) hhandle

theorem caught_cases {fault : Fault}
    (h : fault.isPermissionError ∨ fault.isValueError ∨ fault.isOSError) :
    ∃ error, NbdServer.caught fault = .ok ⟨error, []⟩ ∧ error ≠ 0 ∧ error ≠ einval := by
  unfold NbdServer.caught
  by_cases hpermission : fault.isPermissionError = true
  · rw [if_pos hpermission]
    exact ⟨erofs, rfl, by decide, by decide⟩
  · have hcaught : (fault.isValueError || fault.isOSError) = true := by
      rw [Bool.or_eq_true]
      exact h.resolve_left hpermission
    rw [if_neg hpermission, if_pos hcaught]
    exact ⟨eio, rfl, by decide, by decide⟩

/-- Invalid geometry is answered without the engine. -/
theorem handle_misplaced {r : Request} (h : ¬ server.Placed r) (payload : Bytes) (e : E) :
    server.handle r payload e = (.ok ⟨einval, []⟩, e, []) := by
  unfold NbdServer.Placed at h
  unfold NbdServer.handle
  by_cases hflush : r.command = cmdFlush
  · rw [if_pos hflush] at h ⊢
    rw [if_pos (by omega)]
  · rw [if_neg hflush] at h ⊢
    rw [if_pos (by omega)]

/-- A frame that is answered behind its call. -/
def NbdServer.AnswersAt (f : Frame) (e : E) : Prop :=
  ∃ a e', server.handle f.request f.payload e = (.ok a, e', server.callsOf f) ∧
    server.Answers f (server.callsOf f) a

variable {server} {f : Frame} {e : E}

/-- An answer without data. -/
theorem answers_empty {error : Nat} (hplaced : server.Placed f.request)
    (hdata : f.request.command = cmdRead → error ≠ 0) (herror : error ≠ einval) :
    server.Answers f (server.callsOf f) ⟨error, []⟩ where
  result := by
    rw [if_neg fun h => hdata h.1 h.2]
    rfl
  invalid h := absurd hplaced h
  valid _ := ⟨herror, rfl⟩

theorem NbdServer.Placed.blocks {r : Request} (h : server.Placed r) (hflush : r.command ≠ cmdFlush) :
    r.offset % server.engine.blockSize = 0 ∧ r.length ≠ 0 ∧
      r.length % server.engine.blockSize = 0 ∧ r.offset + r.length ≤ server.exportSize := by
  unfold NbdServer.Placed at h
  rwa [if_neg hflush] at h

theorem handle_read (hwhole : server.engine.ReadsWhole)
    (hraises : ∀ e lba blocks fault, (server.engine.read e lba blocks).1 = .error fault →
      fault.isPermissionError ∨ fault.isValueError ∨ fault.isOSError)
    (hplaced : server.Placed f.request) (hcommand : f.request.command = cmdRead) :
    server.AnswersAt f e := by
  have hflush : f.request.command ≠ cmdFlush := by
    rw [hcommand]
    decide
  have hblocks := hplaced.blocks hflush
  have hcalls : server.callsOf f = [.read (f.request.offset / server.engine.blockSize)
      (f.request.length / server.engine.blockSize)] := by
    rw [NbdServer.callsOf, if_neg hflush, if_pos hcommand]
  unfold NbdServer.AnswersAt
  rw [NbdServer.handle, if_neg hflush, if_neg (by omega)]
  simp only [if_pos hcommand, ← hcalls]
  rcases hresult : server.engine.read e (f.request.offset / server.engine.blockSize)
    (f.request.length / server.engine.blockSize) with ⟨fault | result, e'⟩
  · obtain ⟨error, hcaught, hzero, heinval⟩ := caught_cases (hraises _ _ _ _ (by rw [hresult]))
    exact ⟨_, e', congrArg (·, e', _) hcaught, answers_empty hplaced (fun _ => hzero) heinval⟩
  · have hlength : result.length = f.request.length := by
      rw [hwhole e _ _ result (by rw [hresult])]
      exact Nat.div_mul_cancel (Nat.dvd_of_mod_eq_zero hblocks.2.2.1)
    have hzero : (0 : Nat) ≠ einval := by decide
    refine ⟨_, e', rfl, ?_, fun h => absurd hplaced h, fun _ => ⟨hzero, rfl⟩⟩
    rw [if_pos ⟨hcommand, rfl⟩]
    exact hlength

theorem handle_write
    (hraises : ∀ e lba payload fault, (server.engine.write e lba payload).1 = .error fault →
      fault.isPermissionError ∨ fault.isValueError ∨ fault.isOSError)
    (hplaced : server.Placed f.request) (hcommand : f.request.command = cmdWrite) :
    server.AnswersAt f e := by
  have hflush : f.request.command ≠ cmdFlush := by
    rw [hcommand]
    decide
  have hread : f.request.command ≠ cmdRead := by
    rw [hcommand]
    decide
  have hblocks := hplaced.blocks hflush
  have hcalls : server.callsOf f =
      [.write (f.request.offset / server.engine.blockSize) f.payload] := by
    rw [NbdServer.callsOf, if_neg hflush, if_neg hread, if_pos hcommand]
  unfold NbdServer.AnswersAt
  rw [NbdServer.handle, if_neg hflush, if_neg (by omega)]
  simp only [if_neg hread, if_pos hcommand, ← hcalls]
  rcases hresult : server.engine.write e (f.request.offset / server.engine.blockSize) f.payload
    with ⟨fault | _, e'⟩
  · obtain ⟨error, hcaught, -, heinval⟩ := caught_cases (hraises _ _ _ _ (by rw [hresult]))
    exact ⟨_, e', congrArg (·, e', _) hcaught,
      answers_empty hplaced (fun h => absurd h hread) heinval⟩
  · exact ⟨_, e', rfl, answers_empty hplaced (fun h => absurd h hread) (by decide)⟩

theorem handle_unknown (hplaced : server.Placed f.request) (hflush : f.request.command ≠ cmdFlush)
    (hread : f.request.command ≠ cmdRead) (hwrite : f.request.command ≠ cmdWrite) :
    server.AnswersAt f e := by
  have hblocks := hplaced.blocks hflush
  have hcalls : server.callsOf f = [] := by
    rw [NbdServer.callsOf, if_neg hflush, if_neg hread, if_neg hwrite]
  unfold NbdServer.AnswersAt
  rw [NbdServer.handle, if_neg hflush, if_neg (by omega)]
  simp only [if_neg hread, if_neg hwrite, ← hcalls]
  exact ⟨_, e, rfl, answers_empty hplaced (fun h => absurd h hread) (by decide)⟩

/-- A FLUSH catches nothing but an `OSError`. -/
theorem handle_flush (hplaced : server.Placed f.request) (hcommand : f.request.command = cmdFlush) :
    server.AnswersAt f e ∨
      ∃ fault e', server.handle f.request f.payload e = (.error fault, e', [.flush]) ∧
        (server.engine.flush e).1 = .error fault ∧ fault.isOSError = false := by
  have hread : f.request.command ≠ cmdRead := by
    rw [hcommand]
    decide
  have hcalls : server.callsOf f = [.flush] := by rw [NbdServer.callsOf, if_pos hcommand]
  have hzero := hplaced
  unfold NbdServer.Placed at hzero
  rw [if_pos hcommand] at hzero
  unfold NbdServer.AnswersAt
  rw [NbdServer.handle, if_pos hcommand, if_neg (by omega), ← hcalls]
  rcases hresult : server.engine.flush e with ⟨fault | _, e'⟩
  · have heio : eio ≠ einval := by decide
    cases hos : fault.isOSError with
    | true =>
      refine Or.inl ⟨⟨eio, []⟩, e', ?_, answers_empty hplaced (fun h => absurd h hread) heio⟩
      simp only [hos, if_true]
    | false =>
      refine Or.inr ⟨fault, e', ?_, rfl, hos⟩
      simp only [hos, Bool.false_eq_true, if_false]
  · exact Or.inl ⟨_, e', rfl, answers_empty hplaced (fun h => absurd h hread) (by decide)⟩

/-- **A frame is answered**, or it is a FLUSH that raised what is no `OSError`. -/
theorem handle_cases (hwhole : server.engine.ReadsWhole)
    (hraises : server.engine.RaisesOnly fun fault =>
      fault.isPermissionError ∨ fault.isValueError ∨ fault.isOSError) (f : Frame) (e : E) :
    (∃ a e' calls, server.handle f.request f.payload e = (.ok a, e', calls) ∧
        server.Answers f calls a) ∨
      ∃ fault e', server.handle f.request f.payload e = (.error fault, e', [.flush]) ∧
        server.Placed f.request ∧ f.request.command = cmdFlush ∧
        (server.engine.flush e).1 = .error fault ∧ fault.isOSError = false := by
  have hanswered : server.AnswersAt f e → ∃ a e' calls,
      server.handle f.request f.payload e = (.ok a, e', calls) ∧ server.Answers f calls a := by
    rintro ⟨a, e', h⟩
    exact ⟨a, e', _, h⟩
  by_cases hplaced : server.Placed f.request
  · by_cases hflush : f.request.command = cmdFlush
    · rcases handle_flush (e := e) hplaced hflush with h | ⟨fault, e', hhandle, h⟩
      · exact Or.inl (hanswered h)
      · exact Or.inr ⟨fault, e', hhandle, hplaced, hflush, h⟩
    · refine Or.inl (hanswered ?_)
      by_cases hread : f.request.command = cmdRead
      · exact handle_read hwhole hraises.1 hplaced hread
      by_cases hwrite : f.request.command = cmdWrite
      · exact handle_write hraises.2.1 hplaced hwrite
      · exact handle_unknown hplaced hflush hread hwrite
  · refine Or.inl ⟨_, _, _, handle_misplaced server hplaced f.payload e, ?_, ?_, ?_⟩
    · rw [if_neg fun h => absurd h.2 (by decide)]
      rfl
    · exact fun _ => ⟨rfl, rfl⟩
    · exact fun h => absurd h hplaced

/-! ## 4. Main result -/

/-- All frames are answered, or a FLUSH ended the connection with what it raised. -/
theorem serve_cases (hwhole : server.engine.ReadsWhole)
    (hraises : server.engine.RaisesOnly fun fault =>
      fault.isPermissionError ∨ fault.isValueError ∨ fault.isOSError) (ending : Ending) :
    ∀ {fs : List Frame} (e : E), (∀ f ∈ fs, f.Valid) →
      (server.Answered fs (serve server fs ending e).trace ∧
          (serve server fs ending e).outcome = ending.outcome) ∨
        ∃ handled f rest trace e' fault, fs = handled ++ f :: rest ∧
          server.Answered handled trace ∧ server.Placed f.request ∧
          f.request.command = cmdFlush ∧ (server.engine.flush e').1 = .error fault ∧
          fault.isOSError = false ∧ (serve server fs ending e).outcome = .error fault ∧
          (serve server fs ending e).trace = trace ++ [.call .flush]
  | [], e, _ => Or.inl ⟨.nil, rfl⟩
  | f :: fs, e, hvalid => by
    obtain ⟨hf, hvalid⟩ := List.forall_mem_cons.mp hvalid
    rcases handle_cases hwhole hraises f e with
      ⟨a, e', calls, hhandle, hanswers⟩ | ⟨fault, e', hhandle, hplaced, hflush, hraised, hos⟩
    · rw [serve, hhandle]
      simp only [hf.packReply_eq]
      rcases serve_cases hwhole hraises ending e' hvalid with ⟨hall, hend⟩ |
        ⟨handled, f', rest, trace, e'', fault, rfl, hsome, hplaced, hflush, hraised, hos, hend,
          htrace⟩
      · exact Or.inl ⟨.cons hanswers hall, hend⟩
      · refine Or.inr ⟨f :: handled, f', rest, _, e'', fault, rfl, .cons hanswers hsome, hplaced,
          hflush, hraised, hos, hend, ?_⟩
        rw [htrace]
        exact (List.append_assoc (calls.map .call) (_ :: trace) [.call .flush]).symm
    · rw [serve, hhandle]
      exact Or.inr ⟨[], f, fs, [], e, fault, rfl, .nil, hplaced, hflush, hraised, hos, rfl, rfl⟩

/-- A connection that did what the frames of its stream ask for.  Every frame is answered, unless the
engine raises a `ValueError` in a FLUSH: then the frames before it are answered, and the exception
ends the connection. -/
structure Framed (server : NbdServer E) (stream : Bytes) (e : E) (t : Ended E) : Prop where
  decoded : (decode stream).Of stream
  served : t = serve server (decode stream).frames (decode stream).ending e
  answered :
    (server.Answered (decode stream).frames t.trace ∧
        t.outcome = (decode stream).ending.outcome) ∨
      ∃ handled f rest trace e' fault, (decode stream).frames = handled ++ f :: rest ∧
        server.Answered handled trace ∧ server.Placed f.request ∧ f.request.command = cmdFlush ∧
        (server.engine.flush e').1 = .error fault ∧ fault.isValueError ∧
        t.outcome = .error fault ∧ t.trace = trace ++ [.call .flush]

theorem Fault.isOSError_of_isPermissionError {fault : Fault} (h : fault.isPermissionError = true) :
    fault.isOSError = true := by
  unfold isPermissionError at h
  split at h
  · rfl
  · cases h

/-- **The framing never desynchronises**, and does not depend on how the bytes arrive. -/
theorem framing_never_desynchronises (server : NbdServer E) (hwhole : server.engine.ReadsWhole)
    (hraises : server.engine.RaisesOnly fun fault =>
      fault.isPermissionError ∨ fault.isValueError ∨ fault.isOSError)
    (connection : Connection) (e : E) :
    Framed server connection.stream e (server.transmit connection e) := by
  have hserved := transmit_eq_serve server connection e
  have hdecoded := decode_of connection.stream
  refine ⟨hdecoded, hserved, ?_⟩
  rw [hserved]
  rcases serve_cases hwhole hraises (decode connection.stream).ending e hdecoded.valid with
    hall | ⟨handled, f, rest, trace, e', fault, hframes, hsome, hplaced, hflush, hraised, hos, h⟩
  · exact Or.inl hall
  · have hvalue : fault.isValueError = true := by
      rcases hraises.2.2 e' fault hraised with hpermission | hvalue | hos'
      · rw [Fault.isOSError_of_isPermissionError hpermission] at hos
        cases hos
      · exact hvalue
      · rw [hos'] at hos
        cases hos
    exact Or.inr ⟨handled, f, rest, trace, e', fault, hframes, hsome, hplaced, hflush, hraised,
      hvalue, h⟩

end Serving

/-- An engine on a block device of the main memory. -/
def memory : NbdServer (Nat → UInt8) where
  engine :=
    { blockSize := 512
      blockSize_pos := by decide
      blocks := 4
      read := fun image lba blocks =>
        (.ok ((List.range (blocks * 512)).map fun i => image (lba * 512 + i)), image)
      write := fun image lba payload =>
        (.ok (), fun i => if lba * 512 ≤ i then payload.getD (i - lba * 512) (image i) else image i)
      flush := fun image => (.ok (), image) }

/-- A FLUSH, as a client sends it. -/
def flushRequest : Bytes :=
  bigEndian 4 requestMagic ++ bigEndian 2 0 ++ bigEndian 2 cmdFlush ++ bigEndian 8 7 ++
    bigEndian 8 0 ++ bigEndian 4 0

/-- A WRITE of the first block with its payload, and a FLUSH behind it. -/
def writeAndFlush : Bytes :=
  bigEndian 4 requestMagic ++ bigEndian 2 0 ++ bigEndian 2 cmdWrite ++ bigEndian 8 6 ++
    bigEndian 8 0 ++ bigEndian 4 512 ++ List.replicate 512 9 ++ flushRequest

/-- The two arrive in two pieces, cut in the middle of the payload. -/
def writeAndFlushConnection : Connection where
  pieces := [writeAndFlush.take 100, writeAndFlush.drop 100]
  nonempty := by decide

theorem framing_never_desynchronises_two_pieces :
    Framed memory writeAndFlush (fun _ => 0)
      (memory.transmit writeAndFlushConnection (fun _ => 0)) := by
  have hwhole : memory.engine.ReadsWhole := by
    rintro image lba blocks result hresult
    cases hresult
    rw [List.length_map, List.length_range]
    rfl
  have hstream : writeAndFlushConnection.stream = writeAndFlush := by
    rw [Connection.stream, writeAndFlushConnection, List.flatten_cons, List.flatten_singleton,
      List.take_append_drop]
  have hraises : memory.engine.RaisesOnly fun fault =>
      fault.isPermissionError ∨ fault.isValueError ∨ fault.isOSError := by
    refine ⟨?_, ?_, ?_⟩
    · rintro image lba blocks fault hfault
      cases hfault
    · rintro image lba payload fault hfault
      cases hfault
    · rintro image fault hfault
      cases hfault
  have hframed := framing_never_desynchronises memory hwhole hraises
    writeAndFlushConnection (fun _ => 0)
  rwa [hstream] at hframed

/-- An engine whose FLUSH raises a `ValueError`. -/
def refusing : NbdServer Unit where
  engine :=
    { blockSize := 512
      blockSize_pos := by decide
      blocks := 4
      read := fun _ _ blocks => (.ok (List.replicate (blocks * 512) 0), ())
      write := fun _ _ _ => (.ok (), ())
      flush := fun _ => (.error (.raised (.valueError "flush")), ()) }

theorem decode_flushRequest : decode flushRequest = ⟨[⟨flushRequest, []⟩], .closed, []⟩ := by
  rw [decode, if_neg (by decide), if_neg (by decide), if_neg (by decide), if_neg (by decide),
    if_neg (by decide)]
  have hrest : flushRequest.drop (28 + (Request.unpack (flushRequest.take 28)).payloadLength) = [] := by
    decide
  simp only [hrest]
  rw [decode, if_pos (by decide)]
  decide

/-- **A FLUSH without a reply**: of all that the engine may raise, a `ValueError` is not caught there. -/
theorem flush_not_answered :
    refusing.engine.ReadsWhole ∧
      (refusing.engine.RaisesOnly fun fault =>
        fault.isPermissionError ∨ fault.isValueError ∨ fault.isOSError) ∧
      (decode flushRequest).frames = [⟨flushRequest, []⟩] ∧
      (refusing.transmit ⟨[flushRequest], by decide⟩ ()).trace = [.call .flush] ∧
      (refusing.transmit ⟨[flushRequest], by decide⟩ ()).outcome =
        .error (.raised (.valueError "flush")) := by
  have hserved : refusing.transmit ⟨[flushRequest], by decide⟩ () =
      ⟨.error (.raised (.valueError "flush")), (), [.call .flush]⟩ := by
    rw [transmit_eq_serve]
    have hstream : (⟨[flushRequest], by decide⟩ : Connection).stream = flushRequest :=
      List.append_nil flushRequest
    rw [hstream, decode_flushRequest]
    rfl
  refine ⟨?_, ⟨nofun, nofun, ?_⟩, by rw [decode_flushRequest], by rw [hserved], by rw [hserved]⟩
  · rintro _ lba blocks result hresult
    cases hresult
    exact List.length_replicate
  · rintro _ fault hfault
    cases hfault
    exact Or.inr (Or.inl rfl)

end AegisShield.Nbd
