/-
# Requests, as a client packs them (`tests/test_nbd.py`: `_request`)

Packing a request and unpacking it gives the request (`unpack_pack`), and frames one behind the
other decode to themselves (`decode_frames`).
-/
import AegisShield.Nbd.Framing

namespace AegisShield.Nbd

open Lib

/-! ## 1. Packing -/

/-- `struct.pack(">IHHQQI", ..)`. -/
def Request.pack (r : Request) : Bytes :=
  bigEndian 4 r.magic ++ (bigEndian 2 r.flags ++ (bigEndian 2 r.command ++ (bigEndian 8 r.handle ++
    (bigEndian 8 r.offset ++ bigEndian 4 r.length))))

/-- The fields fit their formats. -/
structure Request.Fits (r : Request) : Prop where
  magic : r.magic < 256 ^ 4
  flags : r.flags < 256 ^ 2
  command : r.command < 256 ^ 2
  handle : r.handle < 256 ^ 8
  offset : r.offset < 256 ^ 8
  length : r.length < 256 ^ 4

@[simp] theorem Request.length_pack (r : Request) : r.pack.length = 28 := by
  simp [pack]

/-- **A packed request is unpacked as it was.** -/
theorem Request.unpack_pack {r : Request} (h : r.Fits) : Request.unpack r.pack = r := by
  have h4 : r.pack.drop 4 = bigEndian 2 r.flags ++ (bigEndian 2 r.command ++ (bigEndian 8 r.handle ++
      (bigEndian 8 r.offset ++ bigEndian 4 r.length))) := List.drop_left' (length_bigEndian _ _)
  have h6 : r.pack.drop 6 = bigEndian 2 r.command ++ (bigEndian 8 r.handle ++
      (bigEndian 8 r.offset ++ bigEndian 4 r.length)) := by
    rw [← List.drop_drop (i := 2) (j := 4), h4, List.drop_left' (length_bigEndian _ _)]
  have h8 : r.pack.drop 8 = bigEndian 8 r.handle ++ (bigEndian 8 r.offset ++ bigEndian 4 r.length) := by
    rw [← List.drop_drop (i := 2) (j := 6), h6, List.drop_left' (length_bigEndian _ _)]
  have h16 : r.pack.drop 16 = bigEndian 8 r.offset ++ bigEndian 4 r.length := by
    rw [← List.drop_drop (i := 8) (j := 8), h8, List.drop_left' (length_bigEndian _ _)]
  have h24 : r.pack.drop 24 = bigEndian 4 r.length := by
    rw [← List.drop_drop (i := 8) (j := 16), h16, List.drop_left' (length_bigEndian _ _)]
  have hend : (bigEndian 4 r.length).take 4 = bigEndian 4 r.length :=
    List.take_of_length_le (by simp)
  rw [unpack, h4, h6, h8, h16, h24, hend, pack]
  simp only [List.take_left' (length_bigEndian _ _), ofBigEndian_bigEndian h.magic,
    ofBigEndian_bigEndian h.flags, ofBigEndian_bigEndian h.command, ofBigEndian_bigEndian h.handle,
    ofBigEndian_bigEndian h.offset, ofBigEndian_bigEndian h.length]

/-- The frame of a request with a payload. -/
def Request.frame (r : Request) (payload : Bytes) : Frame := ⟨r.pack, payload⟩

/-- The frames of some requests. -/
def packed (asked : List (Request × Bytes)) : List Frame := asked.map fun r => r.1.frame r.2

/-- A request that a client may make: not a DISC, and a payload behind a WRITE alone, of the length
the request has. -/
structure Request.Proper (r : Request) (payload : Bytes) : Prop where
  fits : r.Fits
  magic : r.magic = requestMagic
  command : r.command ≠ cmdDisc
  payload : payload.length = r.payloadLength
  limit : r.command = cmdWrite → r.length ≤ maxPayload

theorem Request.Proper.valid {r : Request} {payload : Bytes} (h : r.Proper payload) :
    (r.frame payload).Valid := by
  have hrequest : (r.frame payload).request = r := Request.unpack_pack h.fits
  refine ⟨r.length_pack, ?_, ?_, ?_, ?_⟩
  · rw [hrequest]
    exact h.magic
  · rw [hrequest]
    exact h.command
  · rw [hrequest]
    exact h.payload
  · rw [hrequest]
    exact h.limit

/-! ## 2. Decoding -/

/-- **Frames are decoded as they were**, one behind the other. -/
theorem decode_frame {f : Frame} (hf : f.Valid) (rest : Bytes) :
    decode (f.bytes ++ rest) =
      ⟨f :: (decode rest).frames, (decode rest).ending, (decode rest).rest⟩ := by
  have hheader : (f.bytes ++ rest).take 28 = f.header := by
    rw [Frame.bytes, List.append_assoc, List.take_left' hf.header]
  have hlength : (f.bytes ++ rest).length = 28 + f.request.payloadLength + rest.length := by
    rw [Frame.bytes, List.length_append, List.length_append, hf.header, hf.payload]
  have hpayload : ((f.bytes ++ rest).drop 28).take f.request.payloadLength = f.payload := by
    rw [Frame.bytes, List.append_assoc, List.drop_left' hf.header, List.take_left' hf.payload]
  have hrest : (f.bytes ++ rest).drop (28 + f.request.payloadLength) = rest := by
    refine List.drop_left' ?_
    rw [Frame.bytes, List.length_append, hf.header, hf.payload]
  have hover : ¬ (f.request.command = cmdWrite ∧ maxPayload < f.request.length) := by
    rintro ⟨hwrite, hlimit⟩
    exact absurd (hf.limit hwrite) (Nat.not_le.mpr hlimit)
  have hrequest : Request.unpack f.header = f.request := rfl
  rw [decode]
  simp only [hheader, hrequest, hpayload, hrest, hf.magic, ne_eq, not_true_eq_false, if_false,
    if_neg hf.command, if_neg hover]
  rw [if_neg (by omega), if_neg (by omega)]

theorem decode_frames {fs : List Frame} (hvalid : ∀ f ∈ fs, f.Valid) (rest : Bytes) :
    decode (fs.flatMap Frame.bytes ++ rest) =
      ⟨fs ++ (decode rest).frames, (decode rest).ending, (decode rest).rest⟩ := by
  induction fs with
  | nil => rfl
  | cons f fs ih =>
    obtain ⟨hf, hfs⟩ := List.forall_mem_cons.mp hvalid
    rw [List.flatMap_cons, List.append_assoc, decode_frame hf, ih hfs]
    rfl

end AegisShield.Nbd
