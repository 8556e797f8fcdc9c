/-
# A client of the export (`tests/test_nbd.py`: `_connect`, `_request`)

A client says hello, packs requests one behind the other, and takes the replies off the stream that
comes back: the greeting and the size of the export first, then for each request 16 bytes of header
and the data of a READ that was answered with 0.

The replies are read back one for each request (`readReplies_replies`).  So the two ends of a
session agree (`client_gets_answers`).
-/
import AegisShield.Nbd.Volume

namespace AegisShield.Nbd

open Lib

/-! ## 1. Replies -/

/-- The first `n` bytes and the rest, if they come. -/
def takeExact (n : Nat) (stream : Bytes) : Option (Bytes × Bytes) :=
  if stream.length < n then none else some (stream.take n, stream.drop n)

theorem takeExact_append {n : Nat} {bytes : Bytes} (h : bytes.length = n) (rest : Bytes) :
    takeExact n (bytes ++ rest) = some (bytes, rest) := by
  unfold takeExact
  rw [if_neg (by simp [h]), List.take_left' h, List.drop_left' h]

/-- The reply to a request, off the stream. -/
def readReply (f : Frame) (stream : Bytes) : Option (Answer × Bytes) := do
  let (header, stream) ← takeExact 16 stream
  guard (ofBigEndian (header.take 4) = replyMagic)
  guard (ofBigEndian (header.drop 8) = f.request.handle)
  let error := ofBigEndian ((header.drop 4).take 4)
  let (result, stream) ← takeExact
    (if f.request.command = cmdRead ∧ error = 0 then f.request.length else 0) stream
  return (⟨error, result⟩, stream)

/-- The replies to requests, one after the other. -/
def readReplies : List Frame → Bytes → Option (List Answer × Bytes)
  | [], stream => some ([], stream)
  | f :: fs, stream => do
    let (a, stream) ← readReply f stream
    let (as, stream) ← readReplies fs stream
    return (a :: as, stream)

/-- An answer whose error fits and that has the data its request asked for. -/
structure Answer.Fits (f : Frame) (a : Answer) : Prop where
  error : a.error < 256 ^ 4
  result : a.result.length =
    if f.request.command = cmdRead ∧ a.error = 0 then f.request.length else 0

/-- **A reply is read as it was sent.** -/
theorem readReply_reply {f : Frame} {a : Answer} (h : a.Fits f) (rest : Bytes) :
    readReply f (packReply a.error f.request.handle ++ a.result ++ rest) = some (a, rest) := by
  have hhandle : f.request.handle < 256 ^ 8 := by
    have hlt := ofBigEndian_lt ((f.header.drop 8).take 8)
    exact lt_of_lt_of_le hlt (Nat.pow_le_pow_right (by decide) (List.length_take_le _ _))
  have hlength : (packReply a.error f.request.handle).length = 16 := by simp [packReply]
  have hmagic : ofBigEndian ((packReply a.error f.request.handle).take 4) = replyMagic := by
    rw [packReply, List.append_assoc, List.take_left' (length_bigEndian _ _),
      ofBigEndian_bigEndian (by decide)]
  have herror : ofBigEndian (((packReply a.error f.request.handle).drop 4).take 4) = a.error := by
    rw [packReply, List.append_assoc, List.drop_left' (length_bigEndian _ _),
      List.take_left' (length_bigEndian _ _), ofBigEndian_bigEndian h.error]
  have hsame : ofBigEndian ((packReply a.error f.request.handle).drop 8) = f.request.handle := by
    rw [packReply, List.drop_left' (by simp), ofBigEndian_bigEndian hhandle]
  unfold readReply
  rw [List.append_assoc, takeExact_append hlength]
  simp only [Option.bind_eq_bind, Option.bind_some, hmagic, hsame, guard, if_true, herror,
    takeExact_append h.result]
  rfl

/-- **The replies are read as they were sent.** -/
theorem readReplies_replies {fs : List Frame} {as : List Answer}
    (h : List.Forall₂ (fun f a => Answer.Fits f a) fs as) (rest : Bytes) :
    readReplies fs (replies fs as ++ rest) = some (as, rest) := by
  induction h with
  | nil => rfl
  | cons hfits _ ih =>
    rw [replies, readReplies, List.append_assoc _ (replies _ _), readReply_reply hfits]
    simp only [Option.bind_eq_bind, Option.bind_some, ih]
    rfl

/-! ## 2. Answers fit -/

section Fits

variable {md : Metadata} {v v' : Volume}

/-- Every block of the image is a block long. -/
def Volume.Sized (md : Metadata) (v : Volume) : Prop :=
  ∀ b < md.blocks, (v.image b).length = md.blockSize

theorem Shown.sized {W : World} {s : Sys W} (h : Shown md v s) : v.Sized md := by
  obtain ⟨ws, es, p, hgood, -, himage, -⟩ := h
  intro b hb
  rw [himage]
  exact length_imageOf hgood.journal.size _ hb

/-- A write has whole blocks. -/
theorem length_content (w : Write md) {b : Nat} (hb : b < md.blocks) (hc : w.patch.Covers b) :
    (w.patch.content b).length = md.blockSize := by
  have himage := length_imageOf (List.length_replicate (n := md.blocks * md.blockSize) (a := 0)) [w] hb
  rw [imageOf, List.map_singleton] at himage
  change (Patch.overwrite _ w.patch b).length = md.blockSize at himage
  rwa [Patch.overwrite, if_pos hc] at himage

theorem Volume.Step.sized {f : Frame} {a : Answer} (h : v.Step md f a v') (hv : v.Sized md) :
    v'.Sized md := by
  cases h with
  | read => exact hv
  | write w gate =>
    intro b hb
    show (Patch.overwrite _ w.patch b).length = md.blockSize
    rw [Patch.overwrite]
    split
    · rename_i hc
      exact length_content w hb hc
    · exact hv b hb
  | gated => exact hv
  | flush => exact hv
  | misplaced => exact hv
  | unsupported => exact hv

theorem Volume.Step.fits {f : Frame} {a : Answer} (h : v.Step md f a v') (hv : v.Sized md) :
    a.Fits f := by
  cases h with
  | read lba n hcommand hn hrange hoffset hlength =>
    refine ⟨Nat.pow_pos (by decide), ?_⟩
    rw [if_pos ⟨hcommand, rfl⟩, hlength]
    exact length_flatten_blocks _ lba n fun i _ hi => hv i (by omega)
  | write w gate hcommand => exact ⟨by decide, by simp [hcommand, cmdWrite, cmdRead]⟩
  | gated w => exact ⟨by decide, by simp [erofs]⟩
  | flush hcommand => exact ⟨by decide, by simp [hcommand, cmdFlush, cmdRead]⟩
  | misplaced => exact ⟨by decide, by simp [einval]⟩
  | unsupported => exact ⟨by decide, by simp [eopnotsupp]⟩

theorem Volume.Serves.fits {fs : List Frame} {as : List Answer} (h : v.Serves md fs as v')
    (hv : v.Sized md) : List.Forall₂ (fun f a => Answer.Fits f a) fs as := by
  induction h with
  | nil => exact .nil
  | cons hstep _ ih => exact .cons (hstep.fits hv) (ih (hstep.sized hv))

end Fits

/-! ## 3. A session, from the client's end -/

/-- What a client takes off the stream that comes back. -/
def readSession (clientFlags : Nat) (fs : List Frame) (stream : Bytes) : Option (List Answer) := do
  let (_, stream) ← takeExact 18 stream
  let (_, stream) ← takeExact 10 stream
  let (_, stream) ← takeExact (if clientFlags &&& flagNoZeroes = 0 then 124 else 0) stream
  let (as, stream) ← readReplies fs stream
  guard (stream = [])
  return as

/-- A DISC. -/
def disconnect : Request := ⟨requestMagic, 0, cmdDisc, 1, 0, 0⟩

/-- How a client leaves: it closes the connection, with or without a DISC. -/
def IsGoodbye (bytes : Bytes) : Prop := bytes = [] ∨ bytes = disconnect.pack

theorem IsGoodbye.decode {bytes : Bytes} (h : IsGoodbye bytes) :
    (decode bytes).frames = [] ∧ (decode bytes).ending.outcome = .ok () := by
  rcases h with rfl | rfl
  · rw [Nbd.decode]
    exact ⟨rfl, rfl⟩
  · have hfits : disconnect.Fits := ⟨by decide, by decide, by decide, by decide, by decide, by decide⟩
    have htake : disconnect.pack.take 28 = disconnect.pack := List.take_of_length_le (by simp)
    rw [Nbd.decode, if_neg (by simp)]
    simp only [htake, Request.unpack_pack hfits]
    exact ⟨rfl, rfl⟩

section Session

variable {W : World} {md : Metadata} (hsize : 0 < md.blockSize) (exportName : Bytes)

theorem readSession_sent {clientFlags : Nat} {fs : List Frame} {as : List Answer}
    (server : NbdExport (Exported W md))
    (h : List.Forall₂ (fun f a => Answer.Fits f a) fs as) :
    readSession clientFlags fs (greeting ++ (server.exportReply clientFlags).flatten ++
      replies fs as) = some as := by
  have hgreeting : greeting.length = 18 := by simp [greeting]
  have hreplies := readReplies_replies h []
  rw [List.append_nil] at hreplies
  unfold readSession NbdExport.exportReply
  rw [List.append_assoc, takeExact_append hgreeting, List.flatten_cons]
  simp only [Option.bind_eq_bind, Option.bind_some]
  rw [List.append_assoc, takeExact_append (by simp), Option.bind_some]
  split
  · rw [List.flatten_singleton, takeExact_append (by simp), Option.bind_some, hreplies]
    rfl
  · rw [takeExact_append (by simp), Option.bind_some, hreplies]
    rfl

/-- **The two ends of a session agree.**  A client that the server welcomes, that makes any proper
requests and leaves, reads one answer for each of them off the stream that comes back, in whatever
pieces its own bytes arrived; and the answers are those of the volume it talks to. -/
theorem client_gets_answers (e : Exported W md) {h : NbdExport.Hello}
    (hwelcome : (exportedAs W hsize exportName).Welcomes h) {asked : List (Request × Bytes)}
    (hproper : ∀ r ∈ asked, r.1.Proper r.2) {connection : Connection} {goodbye : Bytes}
    (hgoodbye : IsGoodbye goodbye)
    (hstream : connection.stream =
      h.bytes ++ ((packed asked).flatMap Frame.bytes ++ goodbye)) :
    let t := (exportedAs W hsize exportName).serveConnection connection e
    ∃ v v' answers, Shows md v e.1 ∧ v.Serves md (packed asked) answers v' ∧
      readSession h.clientFlags (packed asked) (sentBytes t.trace) =
        some answers ∧ t.outcome = .ok () ∧ Shows md v' t.engine.1 := by
  intro t
  have hvalid : ∀ f ∈ packed asked, f.Valid := by
    intro f hf
    obtain ⟨r, hr, rfl⟩ := List.mem_map.mp hf
    exact (hproper r hr).valid
  obtain ⟨hnone, hok⟩ := hgoodbye.decode
  have hdecode := decode_frames hvalid goodbye
  rw [hnone, List.append_nil] at hdecode
  obtain ⟨ws, es, p, hgood⟩ := e.2.1
  obtain ⟨v, hv⟩ := exists_shown hgood e.2.2
  obtain ⟨as, v', hserves, hshown, hsent, houtcome⟩ :=
    serve_volume hsize (decode goodbye).ending e hvalid hv
  have hsession := ((exportedAs W hsize exportName).serveConnection_session connection e).unique
    (.served h _ hwelcome hstream _ rfl)
  have ht : t = _ := hsession
  rw [hdecode] at ht
  refine ⟨v, v', as, hv.shows, hserves, ?_, ?_, ?_⟩
  · have hsends : sentBytes t.trace = greeting ++ ((exportedAs W hsize exportName).exportReply
        h.clientFlags).flatten ++ replies (packed asked) as := by
      rw [ht]
      show sentBytes (((greeting :: (exportedAs W hsize exportName).exportReply h.clientFlags).map
        .sendall) ++ _) = _
      rw [sentBytes_append, sentBytes_sends, List.flatten_cons]
      exact congrArg _ hsent
    rw [hsends]
    exact readSession_sent (exportedAs W hsize exportName) (hserves.fits hv.sized)
  · rw [ht]
    exact congrArg (Except.mapError SessionFault.fault) (houtcome.trans hok)
  · rw [ht]
    exact hshown.shows

end Session

/-- A client that reads the first block. -/
def reader : NbdExport.Hello := ⟨3, []⟩

/-- Its request. -/
def readFirst : Request := ⟨requestMagic, 0, cmdRead, 1, 0, 512⟩

theorem readFirst_proper : readFirst.Proper [] where
  fits := ⟨by decide, by decide, by decide, by decide, by decide, by decide⟩
  magic := rfl
  command := by decide
  payload := rfl
  limit := nofun

/-- What it sends, in three pieces. -/
def readerConnection : Connection where
  pieces := [reader.bytes, readFirst.pack, disconnect.pack]
  nonempty := by decide

theorem client_gets_answers_reader : ∃ (dir : Dir) (e : Exported World.quiet ⟨"dev", 4, 512⟩)
    (v v' : _) (answers : _), e.1 = quietBoot dir ∧
      Volume.Serves ⟨"dev", 4, 512⟩ v (packed [(readFirst, [])]) answers v' ∧
      readSession 3 (packed [(readFirst, [])])
        (sentBytes ((exportedAs World.quiet (by decide) (utf8 "aegis".toList)).serveConnection
          readerConnection e).trace) = some answers := by
  obtain ⟨dir, -, e, he⟩ := exported_quiet
  have hsize : 0 < (⟨"dev", 4, 512⟩ : Metadata).blockSize := by decide
  have hwelcome : (exportedAs World.quiet hsize (utf8 "aegis".toList)).Welcomes reader :=
    ⟨by decide, by decide, by decide, Or.inl rfl, by show 4 * 512 < 256 ^ 8; decide⟩
  have hproper : ∀ r ∈ [(readFirst, ([] : Bytes))], r.1.Proper r.2 :=
    List.forall_mem_singleton.mpr readFirst_proper
  have hstream : readerConnection.stream = reader.bytes ++
      ((packed [(readFirst, [])]).flatMap Frame.bytes ++ disconnect.pack) := by
    simp [Connection.stream, readerConnection, packed, Request.frame, Frame.bytes]
  obtain ⟨v, v', answers, -, hserves, hread, -, -⟩ := client_gets_answers hsize
    (utf8 "aegis".toList) e hwelcome hproper (Or.inr rfl) hstream
  exact ⟨dir, e, v, v', answers, he, hserves, hread⟩

end AegisShield.Nbd
