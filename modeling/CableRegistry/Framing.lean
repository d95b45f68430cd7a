import CableRegistry.Protocol

/-!
# One representation for each frame

`decodeFrame` looks at every byte of a frame: each field of the header is either carried into the
frame or compared with the one value it may have.  So a frame has one representation, the one that
`encodeFrame` writes (`decodeFrame_eq_ok`, `frame_bijection`).

From that it follows that a damaged byte is caught.  If the damaged bytes were a frame at all, they
would be a written frame that differs from the first one in a single byte.  The header is followed
by its own checksum, and the checksum of the payload is in the header; either way the two blocks are
the same (`damaged_frame_refused`).
-/

namespace CableRegistry

theorem MessageType.raw_of_ofRaw {x : UInt16} {type : MessageType} (h : ofRaw x = some type) :
    type.raw = x := by
  unfold ofRaw at h
  split at h <;> cases h <;> rfl

variable {data header : List UInt8} {m : UInt32} {f : Frame} {d : FrameHeader}

/-- The inversion of a header. -/
theorem decodeFrameHeader_eq_ok (h : decodeFrameHeader header m = .ok d) :
    header.length = kFrameHeaderBytes ∧ load 4 header 0 = kFrameMagic.toNat ∧
      load 4 header kHeaderChecksumOffset = (crc32c (header.take kHeaderChecksumOffset)).toNat ∧
      load 2 header 4 = kProtocolVersion.toNat ∧ load 2 header 6 = d.type.raw.toNat ∧
      load 4 header 8 = d.payloadBytes.toNat ∧ load 8 header 12 = d.requestId.toNat ∧
      d.payloadBytes.toNat ≤ m.toNat := by
  unfold decodeFrameHeader makeError at h
  split at h
  · cases h
  rename_i hlen
  have hlen : header.length = kFrameHeaderBytes := by simpa using hlen
  have hin (width offset : Nat) (hle : offset + width ≤ 28) : load width header offset < 256 ^ width :=
    load_lt (by rw [hlen]; exact hle)
  split at h
  · cases h
  rename_i hmagic
  split at h
  · cases h
  rename_i hsum
  split at h
  · cases h
  rename_i hversion
  split at h
  · cases h
  rename_i type htype
  split at h
  · cases h
  rename_i hle
  cases h
  have hbytes : (UInt32.ofNat (load 4 header 8)).toNat = load 4 header 8 :=
    UInt32.toNat_ofNat_of_lt' (hin 4 8 (by decide))
  refine ⟨hlen, by simpa using hmagic, by simpa using hsum, by simpa using hversion, ?_, hbytes.symm, ?_,
    ?_⟩
  · rw [MessageType.raw_of_ofRaw htype, UInt16.toNat_ofNat_of_lt' (hin 2 6 (by decide))]
  · exact (UInt64.toNat_ofNat_of_lt' (hin 8 12 (by decide))).symm
  · rw [hbytes]
    omega

/-- **A header that is accepted is the one that is written** for the payload it describes. -/
theorem header_eq_frameHeader {payload : List UInt8} (h : decodeFrameHeader header m = .ok d)
    (hlen : payload.length = d.payloadBytes.toNat)
    (hsum : (crc32c payload).toNat = load 4 header 20) :
    header = frameHeader d.type d.requestId payload := by
  obtain ⟨hsize, hmagic, hcheck, hversion, htype, hbytes, hid, -⟩ := decodeFrameHeader_eq_ok h
  have hin (width offset : Nat) (hle : offset + width ≤ 28) :
      leBytes width (load width header offset) = slice header offset width :=
    leBytes_load (by rw [hsize]; exact hle)
  have hfields : frameFields d.type d.requestId payload = header.take kHeaderChecksumOffset := by
    rw [frameFields, ← hmagic, ← hversion, ← htype, hlen, ← hbytes, ← hid, hsum,
      hin 4 0 (by decide), hin 2 4 (by decide), hin 2 6 (by decide), hin 4 8 (by decide),
      hin 8 12 (by decide), hin 4 20 (by decide), slice_zero_append, slice_zero_append,
      slice_zero_append, slice_zero_append, slice_zero_append, slice_zero]
    rfl
  rw [frameHeader, hfields, ← hcheck, hin 4 _ (by decide), ← slice_zero, slice_zero_append, slice_zero,
    List.take_of_length_le]
  exact Nat.le_of_eq hsize

/-- **What is accepted is a written frame, and a written frame is accepted.** -/
theorem decodeFrame_eq_ok : decodeFrame data m = .ok f ↔
    f.payload.length ≤ m.toNat ∧ data = f.toBytes := by
  constructor
  · intro h
    unfold decodeFrame makeError at h
    split at h
    · cases h
    split at h
    · cases h
    rename_i d hd
    dsimp only at h
    split at h
    · cases h
    rename_i hlen
    split at h
    · cases h
    rename_i hsum
    cases h
    obtain ⟨-, -, -, -, -, -, -, hle⟩ := decodeFrameHeader_eq_ok hd
    have hsize : ((data.drop kFrameHeaderBytes).take d.payloadBytes.toNat).length =
        d.payloadBytes.toNat := by
      rw [List.length_take, List.length_drop]
      omega
    have hload : load 4 (data.take kFrameHeaderBytes) 20 = load 4 data 20 := by
      rw [load_eq, load_eq, slice_take (by decide)]
    have hheader := header_eq_frameHeader hd hsize (by rw [hload]; simpa using hsum)
    refine ⟨by rw [hsize]; exact hle, ?_⟩
    have hall : (data.drop kFrameHeaderBytes).take d.payloadBytes.toNat = data.drop kFrameHeaderBytes :=
      List.take_of_length_le (by rw [List.length_drop]; omega)
    rw [Frame.toBytes, ← hheader]
    dsimp only
    rw [hall, List.take_append_drop]
  · rintro ⟨hle, rfl⟩
    have hreceived := f.receiveFrame_toBytes hle []
    have hdecoded := decodeFrame_bytes hreceived
    have hsum : f.received.checksumMatches = true := by
      have hload := load_payloadChecksum f.type f.requestId f.payload []
      rw [List.append_nil] at hload
      exact beq_iff_eq.mpr hload
    rw [hsum] at hdecoded
    exact hdecoded

/-- **The frame format is a bijection**: what decodes to a frame is exactly what the frame is encoded
to, and every frame within the bound is the frame of its encoding. -/
theorem frame_bijection (data : List UInt8) (m : UInt32) (f : Frame) :
    decodeFrame data m = .ok f ↔ MessageType.ofRaw f.type.raw = some f.type ∧
      f.payload.length ≤ m.toNat ∧ data = encodeFrame f.type f.requestId f.payload m := by
  rw [decodeFrame_eq_ok, encodeFrame, Frame.toBytes]
  constructor
  · rintro ⟨hle, hdata⟩
    exact ⟨f.type.ofRaw_raw, hle, by rw [if_neg (not_lt.mpr hle), hdata]⟩
  · rintro ⟨-, hle, hdata⟩
    rw [if_neg (not_lt.mpr hle)] at hdata
    exact ⟨hle, hdata⟩

/-- Two written frames that differ in at most one byte are the same. -/
theorem toBytes_eq_of_set {f g : Frame} {i : Nat} {b : UInt8} (h : f.toBytes.set i b = g.toBytes) :
    g.toBytes = f.toBytes := by
  have hlen : g.payload.length = f.payload.length := by
    have hlength := congrArg List.length h
    simp only [Frame.toBytes, List.length_set, List.length_append, length_frameHeader] at hlength
    omega
  unfold Frame.toBytes at h ⊢
  rw [List.set_append] at h
  split at h
  · -- the damage is in the header, which is followed by its own checksum
    obtain ⟨hheader, hpayload⟩ := List.append_inj h (by simp [length_frameHeader])
    have hfields : frameFields g.type g.requestId g.payload = frameFields f.type f.requestId f.payload :=
      eq_of_sealed_set (by simp [length_frameFields]) hheader.symm
    rw [frameHeader, frameHeader, hfields, hpayload]
  · -- the damage is in the payload, whose checksum is in the header
    obtain ⟨hheader, hpayload⟩ := List.append_inj h (by simp [length_frameHeader])
    have hsum : (crc32c f.payload).toNat = (crc32c g.payload).toNat := by
      rw [← load_payloadChecksum f.type f.requestId f.payload [],
        ← load_payloadChecksum g.type g.requestId g.payload [], hheader]
    have hsame := UInt32.toNat_inj.mp hsum
    rw [← hpayload] at hsame
    rw [← hheader, ← hpayload, eq_of_crc32c_set hsame.symm]

/-- **Any single damaged byte in a frame is caught**, wherever it is and under any bound of the
reader. -/
theorem damaged_frame_refused (type : MessageType) (requestId : UInt64) (payload : List UInt8)
    (maxPayloadBytes maxPayloadBytes' : UInt32) (i : Nat) (b : UInt8)
    (hi : i < (encodeFrame type requestId payload maxPayloadBytes).length)
    (hb : b ≠ (encodeFrame type requestId payload maxPayloadBytes)[i]) :
    ∃ error, decodeFrame ((encodeFrame type requestId payload maxPayloadBytes).set i b)
      maxPayloadBytes' = .error error := by
  cases hd : decodeFrame ((encodeFrame type requestId payload maxPayloadBytes).set i b)
      maxPayloadBytes' with
  | error error => exact ⟨error, rfl⟩
  | ok g =>
    exfalso
    obtain ⟨-, hg⟩ := decodeFrame_eq_ok.mp hd
    by_cases hlong : payload.length > maxPayloadBytes.toNat
    · rw [encodeFrame, if_pos hlong] at hi
      exact absurd hi (by simp)
    have hf : encodeFrame type requestId payload maxPayloadBytes =
        Frame.toBytes ⟨type, requestId, payload⟩ := if_neg hlong
    rw [hf] at hg
    have hsame := toBytes_eq_of_set hg
    rw [hsame, ← hf] at hg
    have hbyte := congrArg (fun l : List UInt8 => l[i]?) hg
    simp only [List.getElem?_set_self hi, List.getElem?_eq_getElem hi, Option.some.injEq] at hbyte
    exact hb hbyte

/-- A frame with an empty payload whose first byte is damaged. -/
theorem damaged_frame_refused_hello : ∃ error,
    decodeFrame ((encodeFrame .hello 7 [] 16).set 0 0) 16 = .error error :=
  damaged_frame_refused .hello 7 [] 16 16 0 0 (by decide +kernel) (by decide +kernel)

end CableRegistry
