/-
# NBD sessions (`core/nbd.py`: `negotiate`, `serve_connection`, `serve_tcp`)

A session starts with a handshake: the server greets, the client sends its flags and asks for an
export by name, the server answers with the size.  Only then does the transmission phase begin.
`serve_tcp` serves one connection after the other, and no failure of a session stops it.

What a session does depends on the bytes of its stream alone (`serveConnection_eq`), the engine is
not called and nothing but the greeting is sent before a handshake is accepted, and the accepted
handshakes are exactly the bytes of a `Hello` (`handshake_ok_iff`).
-/
import AegisShield.Lib.Fallible
import AegisShield.Nbd.Framing

namespace AegisShield.Nbd

open Lib

/-! ## 1. Constants -/

/-- `NBD_MAGIC`. -/
def nbdMagic : Nat := 0x4E42444D41474943

/-- `NBD_IHAVEOPT`. -/
def iHaveOpt : Nat := 0x49484156454F5054

/-- `NBD_FLAG_FIXED_NEWSTYLE`. -/
def flagFixedNewstyle : Nat := 1

/-- `NBD_FLAG_NO_ZEROES`. -/
def flagNoZeroes : Nat := 2

/-- `NBD_FLAG_HAS_FLAGS`. -/
def flagHasFlags : Nat := 1

/-- `NBD_FLAG_SEND_FLUSH`. -/
def flagSendFlush : Nat := 4

/-- `NBD_OPT_EXPORT_NAME`. -/
def optExportName : Nat := 1

/-- The longest name a client may ask for. -/
def maxName : Nat := 4096

/-! ## 2. A session -/

/-- What a session raises: a fault as above, or `struct.error` for a number that does not fit. -/
inductive SessionFault
  | fault (f : Fault)
  | structError
  deriving DecidableEq, Repr

/-- A `ValueError` of `negotiate`. -/
def SessionFault.valueError (message : String) : SessionFault := .fault (.raised (.valueError message))

/-- `NbdServer` with its `export_name`. -/
structure NbdExport (E : Type) extends NbdServer E where
  exportName : Bytes

/-- The greeting, `struct.pack(">QQH", ..)`. -/
def greeting : Bytes :=
  bigEndian 8 nbdMagic ++ bigEndian 8 iHaveOpt ++ bigEndian 2 (flagFixedNewstyle ||| flagNoZeroes)

/-- How a session ends: what it returns or raises, the engine behind it, and what it did to the
outside. -/
structure SessionEnd (E : Type) where
  outcome : Except SessionFault Unit
  engine : E
  trace : List Event

namespace NbdExport

variable {E : Type} (server : NbdExport E)

/-- The answer to an accepted handshake: the size, and zeroes unless the client declines them. -/
def exportReply (clientFlags : Nat) : List Bytes :=
  (bigEndian 8 server.exportSize ++ bigEndian 2 (flagHasFlags ||| flagSendFlush)) ::
    if clientFlags &&& flagNoZeroes = 0 then [List.replicate 124 0] else []

/-- `negotiate`: what it returns or raises, the connection behind it, and what it sent. -/
def negotiate (connection : Connection) : Except SessionFault Unit × Connection × List Bytes :=
  match recvExact connection 4 with
  | (.error fault, connection) => (.error (.fault fault), connection, [greeting])
  | (.ok flags, connection) =>
    let clientFlags := ofBigEndian flags
    if clientFlags &&& flagFixedNewstyle = 0 then
      (.error (.valueError "client does not support fixed newstyle negotiation"), connection,
        [greeting])
    else match recvExact connection 16 with
      | (.error fault, connection) => (.error (.fault fault), connection, [greeting])
      | (.ok asked, connection) =>
        let magic := ofBigEndian (asked.take 8)
        let option := ofBigEndian ((asked.drop 8).take 4)
        let length := ofBigEndian ((asked.drop 12).take 4)
        if magic ≠ iHaveOpt ∨ option ≠ optExportName ∨ maxName < length then
          (.error (.valueError "only NBD_OPT_EXPORT_NAME is supported"), connection, [greeting])
        else match recvExact connection length with
          | (.error fault, connection) => (.error (.fault fault), connection, [greeting])
          | (.ok requestedName, connection) =>
            if requestedName ≠ [] ∧ requestedName ≠ server.exportName then
              (.error (.valueError "unknown export name"), connection, [greeting])
            else if 256 ^ 8 ≤ server.exportSize then (.error .structError, connection, [greeting])
            else (.ok (), connection, greeting :: server.exportReply clientFlags)

/-- `serve_connection`. -/
def serveConnection (connection : Connection) (e : E) : SessionEnd E :=
  match server.negotiate connection with
  | (.error fault, _, sent) => ⟨.error fault, e, sent.map .sendall⟩
  | (.ok (), connection, sent) =>
    let t := server.transmit connection e
    ⟨t.outcome.mapError .fault, t.engine, sent.map .sendall ++ t.trace⟩

/-- `serve_tcp`, for the connections accepted before the listener fails.  However a session ends,
the next one is accepted. -/
def serveTcp : List Connection → E → List (SessionEnd E)
  | [], _ => []
  | connection :: rest, e =>
    let t := server.serveConnection connection e
    t :: serveTcp rest t.engine

/-! ## 3. The handshake of a stream -/

/-- The first `n` bytes and the rest, if they come. -/
def cut (n : Nat) (stream : Bytes) : Except SessionFault (Bytes × Bytes) :=
  if stream.length < n then .error (.fault (.connectionError "peer closed connection"))
  else .ok (stream.take n, stream.drop n)

/-- What the stream's handshake raises, or the client's flags and the bytes behind it. -/
def handshake (stream : Bytes) : Except SessionFault (Nat × Bytes) := do
  let (flags, stream) ← cut 4 stream
  failIf (ofBigEndian flags &&& flagFixedNewstyle = 0)
    (.valueError "client does not support fixed newstyle negotiation")
  let (asked, stream) ← cut 16 stream
  failIf (ofBigEndian (asked.take 8) ≠ iHaveOpt ∨ ofBigEndian ((asked.drop 8).take 4) ≠ optExportName ∨
    maxName < ofBigEndian ((asked.drop 12).take 4)) (.valueError "only NBD_OPT_EXPORT_NAME is supported")
  let (requestedName, stream) ← cut (ofBigEndian ((asked.drop 12).take 4)) stream
  failIf (requestedName ≠ [] ∧ requestedName ≠ server.exportName) (.valueError "unknown export name")
  failIf (256 ^ 8 ≤ server.exportSize) .structError
  return (ofBigEndian flags, stream)

/-- What `negotiate` does, as the stream's handshake has it. -/
def Negotiated (connection : Connection) (r : Except SessionFault (Nat × Bytes)) : Prop :=
  match r with
  | .error fault => ∃ rest, server.negotiate connection = (.error fault, rest, [greeting])
  | .ok (clientFlags, stream) => ∃ rest, rest.stream = stream ∧
      server.negotiate connection = (.ok (), rest, greeting :: server.exportReply clientFlags)

variable {server}

/-- A receive cuts the stream. -/
theorem recvExact_cases (connection : Connection) (n : Nat) :
    (∃ fault rest, recvExact connection n = (.error fault, rest) ∧
        cut n connection.stream = .error (.fault fault)) ∨
      ∃ bytes rest, recvExact connection n = (.ok bytes, rest) ∧
        cut n connection.stream = .ok (bytes, rest.stream) := by
  unfold cut
  by_cases hshort : connection.stream.length < n
  · obtain ⟨rest, hcut⟩ := recvExact_cut hshort
    exact Or.inl ⟨_, rest, hcut, if_pos hshort⟩
  · obtain ⟨rest, hok, hrest⟩ := recvExact_ok (Nat.le_of_not_lt hshort)
    exact Or.inr ⟨_, rest, hok, by rw [if_neg hshort, hrest]⟩

/-- **`negotiate` goes by the stream's handshake**, however the stream arrives. -/
theorem negotiated (connection : Connection) :
    server.Negotiated connection (server.handshake connection.stream) := by
  unfold Negotiated negotiate
  rcases recvExact_cases connection 4 with ⟨fault, c₁, hrecv, hcut⟩ | ⟨flags, c₁, hrecv, hcut⟩
  · simp only [handshake, hrecv, hcut, error_seq]
    exact ⟨c₁, rfl⟩
  by_cases hflags : ofBigEndian flags &&& flagFixedNewstyle = 0
  · simp only [handshake, hrecv, hcut, ok_seq, failIf_of hflags, error_seq, if_pos hflags]
    exact ⟨c₁, rfl⟩
  simp only [handshake, hrecv, hcut, ok_seq, failIf_of_not hflags, if_neg hflags]
  rcases recvExact_cases c₁ 16 with ⟨fault, c₂, hrecv, hcut⟩ | ⟨asked, c₂, hrecv, hcut⟩
  · simp only [hrecv, hcut, error_seq]
    exact ⟨c₂, rfl⟩
  by_cases hasked : ofBigEndian (asked.take 8) ≠ iHaveOpt ∨
      ofBigEndian ((asked.drop 8).take 4) ≠ optExportName ∨
        maxName < ofBigEndian ((asked.drop 12).take 4)
  · simp only [hrecv, hcut, ok_seq, failIf_of hasked, error_seq, if_pos hasked]
    exact ⟨c₂, rfl⟩
  simp only [hrecv, hcut, ok_seq, failIf_of_not hasked, if_neg hasked]
  rcases recvExact_cases c₂ (ofBigEndian ((asked.drop 12).take 4)) with
    ⟨fault, c₃, hrecv, hcut⟩ | ⟨name, c₃, hrecv, hcut⟩
  · simp only [hrecv, hcut, error_seq]
    exact ⟨c₃, rfl⟩
  by_cases hname : name ≠ [] ∧ name ≠ server.exportName
  · simp only [hrecv, hcut, ok_seq, failIf_of hname, error_seq, if_pos hname]
    exact ⟨c₃, rfl⟩
  by_cases hsize : 256 ^ 8 ≤ server.exportSize
  · simp only [hrecv, hcut, ok_seq, failIf_of_not hname, failIf_of hsize, error_seq, if_neg hname,
      if_pos hsize]
    exact ⟨c₃, rfl⟩
  · simp only [hrecv, hcut, ok_seq, failIf_of_not hname, failIf_of_not hsize, if_neg hname,
      if_neg hsize]
    exact ⟨c₃, rfl, rfl⟩

/-! ## 4. The accepted handshakes -/

/-- What a client says to be let in. -/
structure Hello where
  clientFlags : Nat
  name : Bytes

/-- The bytes of it. -/
def Hello.bytes (h : Hello) : Bytes :=
  bigEndian 4 h.clientFlags ++ (bigEndian 8 iHaveOpt ++ bigEndian 4 optExportName ++
    bigEndian 4 h.name.length ++ h.name)

variable (server) in
/-- The server lets the client in. -/
structure Welcomes (h : Hello) : Prop where
  fits : h.clientFlags < 256 ^ 4
  newstyle : h.clientFlags &&& flagFixedNewstyle ≠ 0
  length : h.name.length ≤ maxName
  known : h.name = [] ∨ h.name = server.exportName
  size : server.exportSize < 256 ^ 8

theorem cut_eq_ok {n : Nat} {stream bytes rest : Bytes} :
    cut n stream = .ok (bytes, rest) ↔ bytes.length = n ∧ stream = bytes ++ rest := by
  unfold cut
  constructor
  · intro h
    split at h
    · cases h
    · rename_i hlong
      cases h
      exact ⟨List.length_take_of_le (Nat.le_of_not_lt hlong), (List.take_append_drop _ _).symm⟩
  · rintro ⟨rfl, rfl⟩
    rw [if_neg (by simp), List.take_left, List.drop_left]

/-- Bytes that stand for a number are the number's. -/
theorem eq_bigEndian {bytes : Bytes} {n v : Nat} (hlength : bytes.length = n)
    (hvalue : ofBigEndian bytes = v) : bytes = bigEndian n v := by
  rw [← hlength, ← hvalue, bigEndian_ofBigEndian]

/-- The three fields of an option request. -/
theorem asked_eq {asked : Bytes} (h : asked.length = 16) :
    asked = bigEndian 8 (ofBigEndian (asked.take 8)) ++
      bigEndian 4 (ofBigEndian ((asked.drop 8).take 4)) ++
        bigEndian 4 (ofBigEndian ((asked.drop 12).take 4)) := by
  have h1 : (asked.take 8).length = 8 := by simp [h]
  have h2 : ((asked.drop 8).take 4).length = 4 := by simp [h]
  have h3 : ((asked.drop 12).take 4).length = 4 := by simp [h]
  have hend : (asked.drop 12).take 4 = asked.drop 12 := List.take_of_length_le (by simp [h])
  rw [← eq_bigEndian h1 rfl, ← eq_bigEndian h2 rfl, ← eq_bigEndian h3 rfl, hend, List.append_assoc]
  have hdrop : asked.drop 12 = (asked.drop 8).drop 4 := by rw [List.drop_drop]
  rw [hdrop, List.take_append_drop, List.take_append_drop]

theorem hello_of_handshake {stream rest : Bytes} {clientFlags : Nat}
    (h : server.handshake stream = .ok (clientFlags, rest)) :
    ∃ h : Hello, server.Welcomes h ∧ h.clientFlags = clientFlags ∧ stream = h.bytes ++ rest := by
  -- the reads and the checks, in the order of the code
  obtain ⟨⟨flags, s₁⟩, hflags, h⟩ := seq_eq_ok.mp h
  obtain ⟨hnewstyle, h⟩ := failIf_seq_eq_ok.mp h
  obtain ⟨⟨asked, s₂⟩, hasked, h⟩ := seq_eq_ok.mp h
  obtain ⟨hoption, h⟩ := failIf_seq_eq_ok.mp h
  obtain ⟨⟨name, s₃⟩, hname, h⟩ := seq_eq_ok.mp h
  obtain ⟨hknown, h⟩ := failIf_seq_eq_ok.mp h
  obtain ⟨hsize, h⟩ := failIf_seq_eq_ok.mp h
  cases h
  obtain ⟨hlflags, rfl⟩ := cut_eq_ok.mp hflags
  obtain ⟨hlasked, rfl⟩ := cut_eq_ok.mp hasked
  obtain ⟨hlname, rfl⟩ := cut_eq_ok.mp hname
  simp only [not_or, not_not, Nat.not_lt] at hoption
  obtain ⟨hmagic, hexport, hlimit⟩ := hoption
  have hlength : ofBigEndian ((asked.drop 12).take 4) = name.length := hlname.symm
  have hflagbytes : bigEndian 4 (ofBigEndian flags) = flags := (eq_bigEndian hlflags rfl).symm
  refine ⟨⟨ofBigEndian flags, name⟩, ⟨?_, hnewstyle, ?_, ?_, Nat.lt_of_not_le hsize⟩, rfl, ?_⟩
  · have hfits := ofBigEndian_lt flags
    rwa [hlflags] at hfits
  · rwa [hlength] at hlimit
  · by_cases hempty : name = []
    · exact Or.inl hempty
    · exact Or.inr (not_not.mp fun hne => hknown ⟨hempty, hne⟩)
  · rw [Hello.bytes, hflagbytes]
    conv_lhs => rw [asked_eq hlasked, hmagic, hexport, hlength]
    simp only [List.append_assoc]

theorem handshake_of_hello {h : Hello} (hwelcome : server.Welcomes h) (rest : Bytes) :
    server.handshake (h.bytes ++ rest) = .ok (h.clientFlags, rest) := by
  have hflags : ofBigEndian (bigEndian 4 h.clientFlags) = h.clientFlags :=
    ofBigEndian_bigEndian hwelcome.fits
  have hfits : h.name.length < 256 ^ 4 := lt_of_le_of_lt hwelcome.length (by decide)
  have hcut₁ : cut 4 (h.bytes ++ rest) = .ok (bigEndian 4 h.clientFlags,
      (bigEndian 8 iHaveOpt ++ bigEndian 4 optExportName ++ bigEndian 4 h.name.length) ++
        (h.name ++ rest)) :=
    cut_eq_ok.mpr ⟨length_bigEndian _ _, by simp only [Hello.bytes, List.append_assoc]⟩
  have hcut₂ : cut 16 ((bigEndian 8 iHaveOpt ++ bigEndian 4 optExportName ++
      bigEndian 4 h.name.length) ++ (h.name ++ rest)) = .ok (bigEndian 8 iHaveOpt ++
        bigEndian 4 optExportName ++ bigEndian 4 h.name.length, h.name ++ rest) :=
    cut_eq_ok.mpr ⟨by simp, rfl⟩
  have hcut₃ : cut h.name.length (h.name ++ rest) = .ok (h.name, rest) :=
    cut_eq_ok.mpr ⟨rfl, rfl⟩
  have hmagic : ofBigEndian ((bigEndian 8 iHaveOpt ++ bigEndian 4 optExportName ++
      bigEndian 4 h.name.length).take 8) = iHaveOpt := by
    rw [List.append_assoc, List.take_left' (length_bigEndian _ _),
      ofBigEndian_bigEndian (by decide)]
  have hoption : ofBigEndian (((bigEndian 8 iHaveOpt ++ bigEndian 4 optExportName ++
      bigEndian 4 h.name.length).drop 8).take 4) = optExportName := by
    rw [List.append_assoc, List.drop_left' (length_bigEndian _ _),
      List.take_left' (length_bigEndian _ _), ofBigEndian_bigEndian (by decide)]
  have hlength : ofBigEndian (((bigEndian 8 iHaveOpt ++ bigEndian 4 optExportName ++
      bigEndian 4 h.name.length).drop 12).take 4) = h.name.length := by
    rw [List.drop_left' (by simp), List.take_of_length_le (by simp), ofBigEndian_bigEndian hfits]
  have hknown : ¬ (h.name ≠ [] ∧ h.name ≠ server.exportName) := by
    rintro ⟨h1, h2⟩
    exact hwelcome.known.elim h1 h2
  have hasked : ¬ (iHaveOpt ≠ iHaveOpt ∨ optExportName ≠ optExportName ∨
      maxName < h.name.length) := by
    have hle := hwelcome.length
    simp only [ne_eq, not_true_eq_false, false_or, Nat.not_lt]
    exact hle
  rw [handshake, hcut₁]
  simp only [ok_seq, hflags, failIf_of_not hwelcome.newstyle, hcut₂, hmagic, hoption, hlength,
    failIf_of_not hasked, hcut₃, failIf_of_not hknown, failIf_of_not (Nat.not_le.mpr hwelcome.size)]
  rfl

/-- **A handshake is accepted exactly when the stream starts with a client's hello that the server
welcomes.** -/
theorem handshake_ok_iff {stream rest : Bytes} {clientFlags : Nat} :
    server.handshake stream = .ok (clientFlags, rest) ↔
      ∃ h : Hello, server.Welcomes h ∧ h.clientFlags = clientFlags ∧ stream = h.bytes ++ rest := by
  constructor
  · exact hello_of_handshake
  · rintro ⟨h, hwelcome, rfl, rfl⟩
    exact handshake_of_hello hwelcome rest

/-! ## 5. Sessions -/

variable (server)

/-- How a session on a stream goes.  A client that is not welcome is greeted and dropped; any other
is let in, and the frames behind its hello are served. -/
inductive Session (stream : Bytes) (e : E) : SessionEnd E → Prop
  | refused (fault : SessionFault) (h : server.handshake stream = .error fault)
      (hunwelcome : ∀ (h : Hello) (rest : Bytes), server.Welcomes h → stream ≠ h.bytes ++ rest) :
      Session stream e ⟨.error fault, e, [.sendall greeting]⟩
  | served (h : Hello) (rest : Bytes) (hwelcome : server.Welcomes h) (hstream : stream = h.bytes ++ rest)
      (t : Ended E)
      (ht : t = serve server.toNbdServer (decode rest).frames (decode rest).ending e) :
      Session stream e ⟨t.outcome.mapError .fault, t.engine,
        .sendall greeting :: (server.exportReply h.clientFlags).map .sendall ++ t.trace⟩

/-- The sessions of a server, each on the engine that the one before it left. -/
inductive Sessions : List Bytes → E → List (SessionEnd E) → Prop
  | nil (e : E) : Sessions [] e []
  | cons {stream : Bytes} {streams : List Bytes} {e : E} {t : SessionEnd E} {ts : List (SessionEnd E)}
      (h : server.Session stream e t) (rest : Sessions streams t.engine ts) :
      Sessions (stream :: streams) e (t :: ts)

variable {server} {stream : Bytes} {streams : List Bytes} {e : E}

/-- A session goes by the bytes of its stream. -/
theorem serveConnection_session (connection : Connection) (e : E) :
    server.Session connection.stream e (server.serveConnection connection e) := by
  have h := server.negotiated connection
  unfold Negotiated at h
  unfold serveConnection
  cases hhandshake : server.handshake connection.stream with
  | error fault =>
    rw [hhandshake] at h
    obtain ⟨rest, hnegotiate⟩ := h
    rw [hnegotiate]
    refine .refused fault hhandshake fun hello rest hwelcome hstream => ?_
    have hok := handshake_ok_iff.mpr ⟨hello, hwelcome, rfl, hstream⟩
    rw [hhandshake] at hok
    cases hok
  | ok accepted =>
    obtain ⟨clientFlags, stream⟩ := accepted
    rw [hhandshake] at h
    obtain ⟨rest, rfl, hnegotiate⟩ := h
    obtain ⟨hello, hwelcome, rfl, hstream⟩ := handshake_ok_iff.mp hhandshake
    rw [hnegotiate]
    exact .served hello rest.stream hwelcome hstream (server.transmit rest e)
      (transmit_eq_serve server.toNbdServer rest e)

theorem Session.unique {t t' : SessionEnd E} (h : server.Session stream e t)
    (h' : server.Session stream e t') : t = t' := by
  cases h with
  | refused fault hfault hunwelcome =>
    cases h' with
    | refused fault' hfault' =>
      rw [hfault] at hfault'
      cases hfault'
      rfl
    | served hello rest hwelcome hstream => exact absurd hstream (hunwelcome hello rest hwelcome)
  | served hello rest hwelcome hstream t ht =>
    cases h' with
    | refused _ _ hunwelcome => exact absurd hstream (hunwelcome hello rest hwelcome)
    | served hello' rest' hwelcome' hstream' t' ht' =>
      have hok := handshake_ok_iff.mpr ⟨hello, hwelcome, rfl, hstream⟩
      have hok' := handshake_ok_iff.mpr ⟨hello', hwelcome', rfl, hstream'⟩
      rw [hok] at hok'
      obtain ⟨hflags, rfl⟩ := Prod.mk.inj (Except.ok.inj hok')
      rw [hflags, ht, ht']

theorem serveTcp_sessions (connections : List Connection) (e : E) :
    server.Sessions (connections.map Connection.stream) e (server.serveTcp connections e) := by
  induction connections generalizing e with
  | nil => exact .nil e
  | cons connection rest ih => exact .cons (serveConnection_session connection e) (ih _)

theorem Sessions.unique {ts ts' : List (SessionEnd E)} (h : server.Sessions streams e ts)
    (h' : server.Sessions streams e ts') : ts = ts' := by
  induction h generalizing ts' with
  | nil e =>
    cases h'
    rfl
  | cons h _ ih =>
    cases h' with
    | cons h' hrest' =>
      obtain rfl := h.unique h'
      rw [ih hrest']

/-- **A server that no client can stop**: every connection it accepts is served in its turn, on the
engine that the sessions before it left, and what it does there depends on the bytes of the stream
and not on how they arrive.  Before a client is let in the engine is not called. -/
theorem serveTcp_iff (connections : List Connection) (e : E) (ts : List (SessionEnd E)) :
    server.Sessions (connections.map Connection.stream) e ts ↔ ts = server.serveTcp connections e := by
  have hserved := server.serveTcp_sessions connections e
  constructor
  · intro h
    exact h.unique hserved
  · rintro rfl
    exact hserved

end NbdExport

end AegisShield.Nbd
