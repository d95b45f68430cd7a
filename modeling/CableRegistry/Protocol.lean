import CableRegistry.Recovery
import CableRegistry.Views

/-!
# Frames

The publisher and the registry talk in frames: a header of 28 bytes and a payload.  The header
names the type of the message, the length of the payload and the request, and carries a checksum
of the payload and one of itself.

`decodeFrame` reads a buffer that holds one frame and checks everything.  The readers on the two
ends of a connection do not use it; they read a header with `decodeFrameHeader` and then the
payload (`receiveFrame`).  `decodeFrame_bytes` says what separates the two: the checksum of the
payload, which only `decodeFrame` looks at.
-/

namespace CableRegistry

/-! ### Messages -/

inductive MessageType where
  | hello | helloAck | openSession | openSessionAck | closeSession | closeSessionAck | publish
  | publishAck | publishBatch | publishBatchAck | queryPort | queryPortAck | queryEndpoint
  | queryEndpointAck | queryObject | queryObjectAck | queryHistory | queryHistoryAck | inspect
  | inspectAck | snapshot | snapshotAck | digest | digestAck | stats | statsAck | shutdown
  | shutdownAck | failure
  deriving Repr, DecidableEq

namespace MessageType

def raw : MessageType → UInt16
  | hello => 1
  | helloAck => 2
  | openSession => 10
  | openSessionAck => 11
  | closeSession => 12
  | closeSessionAck => 13
  | publish => 20
  | publishAck => 21
  | publishBatch => 22
  | publishBatchAck => 23
  | queryPort => 30
  | queryPortAck => 31
  | queryEndpoint => 32
  | queryEndpointAck => 33
  | queryObject => 34
  | queryObjectAck => 35
  | queryHistory => 36
  | queryHistoryAck => 37
  | inspect => 38
  | inspectAck => 39
  | snapshot => 50
  | snapshotAck => 51
  | digest => 52
  | digestAck => 53
  | stats => 54
  | statsAck => 55
  | shutdown => 60
  | shutdownAck => 61
  | failure => 70

/-- The message type of a value, when it is a known one. -/
def ofRaw : UInt16 → Option MessageType
  | 1 => some hello
  | 2 => some helloAck
  | 10 => some openSession
  | 11 => some openSessionAck
  | 12 => some closeSession
  | 13 => some closeSessionAck
  | 20 => some publish
  | 21 => some publishAck
  | 22 => some publishBatch
  | 23 => some publishBatchAck
  | 30 => some queryPort
  | 31 => some queryPortAck
  | 32 => some queryEndpoint
  | 33 => some queryEndpointAck
  | 34 => some queryObject
  | 35 => some queryObjectAck
  | 36 => some queryHistory
  | 37 => some queryHistoryAck
  | 38 => some inspect
  | 39 => some inspectAck
  | 50 => some snapshot
  | 51 => some snapshotAck
  | 52 => some digest
  | 53 => some digestAck
  | 54 => some stats
  | 55 => some statsAck
  | 60 => some shutdown
  | 61 => some shutdownAck
  | 70 => some failure
  | _ => none

theorem ofRaw_raw (type : MessageType) : ofRaw type.raw = some type := by
  cases type <;> rfl

def toText : MessageType → String
  | hello => "hello"
  | helloAck => "hello-ack"
  | openSession => "open-session"
  | openSessionAck => "open-session-ack"
  | closeSession => "close-session"
  | closeSessionAck => "close-session-ack"
  | publish => "publish"
  | publishAck => "publish-ack"
  | publishBatch => "publish-batch"
  | publishBatchAck => "publish-batch-ack"
  | queryPort => "query-port"
  | queryPortAck => "query-port-ack"
  | queryEndpoint => "query-endpoint"
  | queryEndpointAck => "query-endpoint-ack"
  | queryObject => "query-object"
  | queryObjectAck => "query-object-ack"
  | queryHistory => "query-history"
  | queryHistoryAck => "query-history-ack"
  | inspect => "inspect"
  | inspectAck => "inspect-ack"
  | snapshot => "snapshot"
  | snapshotAck => "snapshot-ack"
  | digest => "digest"
  | digestAck => "digest-ack"
  | stats => "stats"
  | statsAck => "stats-ack"
  | shutdown => "shutdown"
  | shutdownAck => "shutdown-ack"
  | failure => "failure"

end MessageType

/-- A decoded frame. -/
structure Frame where
  type : MessageType := .hello
  requestId : UInt64 := 0
  payload : List UInt8 := []
  deriving Repr, DecidableEq

/-! ### Encoding -/

def kFrameMagic : UInt32 := 0x31424143
def kFrameHeaderBytes : Nat := 28
def kHeaderChecksumOffset : Nat := 24
def kProtocolVersion : UInt32 := 1

/-- The header without its checksum. -/
def frameFields (type : MessageType) (requestId : UInt64) (payload : List UInt8) : List UInt8 :=
  leBytes 4 kFrameMagic.toNat ++ leBytes 2 kProtocolVersion.toNat ++ leBytes 2 type.raw.toNat ++
    leBytes 4 payload.length ++ leBytes 8 requestId.toNat ++ leBytes 4 (crc32c payload).toNat

def frameHeader (type : MessageType) (requestId : UInt64) (payload : List UInt8) : List UInt8 :=
  frameFields type requestId payload ++ leBytes 4 (crc32c (frameFields type requestId payload)).toNat

/-- Nothing when the payload is larger than allowed. -/
def encodeFrame (type : MessageType) (requestId : UInt64) (payload : List UInt8)
    (maxPayloadBytes : UInt32) : List UInt8 :=
  if payload.length > maxPayloadBytes.toNat then []
  else frameHeader type requestId payload ++ payload

/-! ### Decoding -/

/-- What a header says. -/
structure FrameHeader where
  type : MessageType
  requestId : UInt64
  payloadBytes : UInt32
  deriving Repr, DecidableEq

def decodeFrameHeader (header : List UInt8) (maxPayloadBytes : UInt32) : Outcome FrameHeader :=
  if header.length ≠ kFrameHeaderBytes then
    makeError .protocolViolation "the frame header is not the expected size"
  else if load 4 header 0 ≠ kFrameMagic.toNat then
    makeError .protocolViolation "the frame magic does not match"
  else if load 4 header kHeaderChecksumOffset ≠ (crc32c (header.take kHeaderChecksumOffset)).toNat then
    makeError .protocolViolation "the frame header checksum does not match"
  else if load 2 header 4 ≠ kProtocolVersion.toNat then
    makeError .unsupportedVersion
      ("protocol version " ++ toString (load 2 header 4) ++ " is not supported")
  else
    match MessageType.ofRaw (UInt16.ofNat (load 2 header 6)) with
    | none =>
      makeError .protocolViolation ("message type " ++ toString (load 2 header 6) ++ " is not recognised")
    | some type =>
      if load 4 header 8 > maxPayloadBytes.toNat then
        makeError .capacityExceeded
          ("frame payload of " ++ toString (load 4 header 8) ++ " bytes exceeds the " ++
            toString maxPayloadBytes.toNat ++ " byte limit")
      else .ok ⟨type, UInt64.ofNat (load 8 header 12), UInt32.ofNat (load 4 header 8)⟩

def decodeFrame (data : List UInt8) (maxPayloadBytes : UInt32) : Outcome Frame :=
  if data.length < kFrameHeaderBytes then
    makeError .protocolViolation "the frame is shorter than its header"
  else
    match decodeFrameHeader (data.take kFrameHeaderBytes) maxPayloadBytes with
    | .error error => .error error
    | .ok header =>
      if data.length ≠ kFrameHeaderBytes + header.payloadBytes.toNat then
        makeError .protocolViolation "the frame length does not match its header"
      else
        let payload := (data.drop kFrameHeaderBytes).take header.payloadBytes.toNat
        if (crc32c payload).toNat ≠ load 4 data 20 then
          makeError .protocolViolation "the frame payload checksum does not match"
        else .ok ⟨header.type, header.requestId, payload⟩

/-! ### Reading what was written -/

variable {incoming rest : List UInt8} {f : ReceivedFrame} {maxPayloadBytes : UInt32}

section Written

variable (type : MessageType) (requestId : UInt64) (payload : List UInt8)

theorem length_frameFields : (frameFields type requestId payload).length = kHeaderChecksumOffset := by
  simp [frameFields, kHeaderChecksumOffset]

theorem length_frameHeader : (frameHeader type requestId payload).length = kFrameHeaderBytes := by
  simp [frameHeader, length_frameFields, kHeaderChecksumOffset, kFrameHeaderBytes]

theorem frameHeader_fields (rest : List UInt8) :
    frameHeader type requestId payload ++ rest =
      leBytes 4 kFrameMagic.toNat ++ (leBytes 2 kProtocolVersion.toNat ++ (leBytes 2 type.raw.toNat ++
        (leBytes 4 payload.length ++ (leBytes 8 requestId.toNat ++
          (leBytes 4 (crc32c payload).toNat ++
            (leBytes 4 (crc32c (frameFields type requestId payload)).toNat ++ rest)))))) := by
  simp only [frameHeader, frameFields, List.append_assoc]

theorem load_magic (rest : List UInt8) :
    load 4 (frameHeader type requestId payload ++ rest) 0 = kFrameMagic.toNat := by
  rw [frameHeader_fields, load_eq, slice_front (length_leBytes _ _),
    leValue_leBytes kFrameMagic.toNat_lt]

theorem load_version (rest : List UInt8) :
    load 2 (frameHeader type requestId payload ++ rest) 4 = kProtocolVersion.toNat := by
  rw [frameHeader_fields, load_eq]
  simp (disch := simp) only [slice_skip, length_leBytes, Nat.sub_self]
  rw [slice_front (length_leBytes _ _), leValue_leBytes (by decide)]

theorem load_type (rest : List UInt8) :
    load 2 (frameHeader type requestId payload ++ rest) 6 = type.raw.toNat := by
  rw [frameHeader_fields, load_eq]
  simp (disch := simp) only [slice_skip, length_leBytes, Nat.reduceSub]
  rw [slice_front (length_leBytes _ _), leValue_leBytes type.raw.toNat_lt]

theorem load_payloadBytes (h : payload.length < 2 ^ 32) (rest : List UInt8) :
    load 4 (frameHeader type requestId payload ++ rest) 8 = payload.length := by
  rw [frameHeader_fields, load_eq]
  simp (disch := simp) only [slice_skip, length_leBytes, Nat.reduceSub]
  rw [slice_front (length_leBytes _ _), leValue_leBytes h]

theorem load_requestId (rest : List UInt8) :
    load 8 (frameHeader type requestId payload ++ rest) 12 = requestId.toNat := by
  rw [frameHeader_fields, load_eq]
  simp (disch := simp) only [slice_skip, length_leBytes, Nat.reduceSub]
  rw [slice_front (length_leBytes _ _), leValue_leBytes requestId.toNat_lt]

theorem load_payloadChecksum (rest : List UInt8) :
    load 4 (frameHeader type requestId payload ++ rest) 20 = (crc32c payload).toNat := by
  rw [frameHeader_fields, load_eq]
  simp (disch := simp) only [slice_skip, length_leBytes, Nat.reduceSub]
  rw [slice_front (length_leBytes _ _), leValue_leBytes (crc32c payload).toNat_lt]

theorem load_headerChecksum (rest : List UInt8) :
    load 4 (frameHeader type requestId payload ++ rest) kHeaderChecksumOffset =
      (crc32c (frameFields type requestId payload)).toNat := by
  rw [frameHeader_fields, load_eq]
  simp (disch := simp) only [kHeaderChecksumOffset, slice_skip, length_leBytes, Nat.reduceSub]
  rw [slice_front (length_leBytes _ _), leValue_leBytes (crc32c _).toNat_lt]

/-- **A header that was written is read**, under a bound that admits its payload. -/
theorem decodeFrameHeader_frameHeader (hlt : payload.length < 2 ^ 32) :
    decodeFrameHeader (frameHeader type requestId payload) maxPayloadBytes =
      if payload.length > maxPayloadBytes.toNat then
        makeError .capacityExceeded
          ("frame payload of " ++ toString payload.length ++ " bytes exceeds the " ++
            toString maxPayloadBytes.toNat ++ " byte limit")
      else .ok ⟨type, requestId, UInt32.ofNat payload.length⟩ := by
  have hnil : frameHeader type requestId payload = frameHeader type requestId payload ++ [] :=
    (List.append_nil _).symm
  have htake : (frameHeader type requestId payload).take kHeaderChecksumOffset =
      frameFields type requestId payload := by
    rw [frameHeader, ← length_frameFields type requestId payload, List.take_left]
  unfold decodeFrameHeader
  rw [htake, if_neg (by simp [length_frameHeader]), hnil, load_magic, load_headerChecksum, load_version,
    load_type, load_payloadBytes _ _ _ hlt, load_requestId, if_neg (by simp), if_neg (by simp),
    if_neg (by simp), UInt16.ofNat_toNat, MessageType.ofRaw_raw, UInt64.ofNat_toNat]

end Written

/-! ### Reading from a connection -/

/-- A frame as a reader on a socket holds it. -/
structure ReceivedFrame where
  header : List UInt8
  type : MessageType
  requestId : UInt64
  payload : List UInt8
  deriving Repr, DecidableEq

namespace ReceivedFrame

/-- What the frame was received as. -/
def bytes (f : ReceivedFrame) : List UInt8 := f.header ++ f.payload

/-- What the reader makes of it. -/
def frame (f : ReceivedFrame) : Frame := ⟨f.type, f.requestId, f.payload⟩

/-- The checksum in the header is that of the payload. -/
def checksumMatches (f : ReceivedFrame) : Bool := load 4 f.header 20 == (crc32c f.payload).toNat

end ReceivedFrame

/-- What comes of waiting for a frame. -/
inductive Reception where
  | lost
  | refused (error : Error) (rest : List UInt8)
  | frame (f : ReceivedFrame) (rest : List UInt8)
  deriving Repr, DecidableEq

/-- Waits for a header, then for as many bytes as it announces.  The bytes that are still to come
on the connection are an argument; where they end, the peer closed. -/
def receiveFrame (maxPayloadBytes : UInt32) (incoming : List UInt8) : Reception :=
  match Reader.take kFrameHeaderBytes incoming with
  | none => .lost
  | some (header, rest) =>
    match decodeFrameHeader header maxPayloadBytes with
    | .error error => .refused error rest
    | .ok decoded =>
      match Reader.take decoded.payloadBytes.toNat rest with
      | none => .lost
      | some (payload, rest) => .frame ⟨header, decoded.type, decoded.requestId, payload⟩ rest

/-- The inversion of a reception. -/
theorem receiveFrame_eq_frame (h : receiveFrame maxPayloadBytes incoming = .frame f rest) :
    incoming = f.bytes ++ rest ∧ f.header.length = kFrameHeaderBytes ∧
      decodeFrameHeader f.header maxPayloadBytes =
        .ok ⟨f.type, f.requestId, UInt32.ofNat f.payload.length⟩ ∧ f.payload.length < 2 ^ 32 := by
  unfold receiveFrame at h
  cases hheader : Reader.take kFrameHeaderBytes incoming with
  | none =>
    rw [hheader] at h
    exact absurd h (by simp)
  | some first =>
    obtain ⟨header, left⟩ := first
    rw [hheader] at h
    have hlen := Yields.take _ _ _ _ hheader
    have hsplit := Retraces.take _ _ _ _ hheader
    dsimp only at h
    cases hdecoded : decodeFrameHeader header maxPayloadBytes with
    | error error =>
      rw [hdecoded] at h
      exact absurd h (by simp)
    | ok decoded =>
      rw [hdecoded] at h
      dsimp only at h
      cases hpayload : Reader.take decoded.payloadBytes.toNat left with
      | none =>
        rw [hpayload] at h
        exact absurd h (by simp)
      | some second =>
        obtain ⟨payload, remaining⟩ := second
        rw [hpayload] at h
        obtain ⟨rfl, rfl⟩ := Reception.frame.inj h
        have hlen' := Yields.take _ _ _ _ hpayload
        have hsplit' := Retraces.take _ _ _ _ hpayload
        simp only [List.nil_append, id_eq] at hsplit hsplit'
        refine ⟨?_, hlen, ?_, ?_⟩
        · rw [hsplit, hsplit', ReceivedFrame.bytes, List.append_assoc]
        · rw [hdecoded, hlen', UInt32.ofNat_toNat]
        · rw [hlen']
          exact decoded.payloadBytes.toNat_lt

/-- **What is received is a frame, except perhaps for the checksum of its payload.** -/
theorem decodeFrame_bytes (h : receiveFrame maxPayloadBytes incoming = .frame f rest) :
    decodeFrame f.bytes maxPayloadBytes =
      if f.checksumMatches then .ok f.frame
      else makeError .protocolViolation "the frame payload checksum does not match" := by
  obtain ⟨-, hlen, hheader, hlt⟩ := receiveFrame_eq_frame h
  have hsize : (UInt32.ofNat f.payload.length).toNat = f.payload.length := by
    rw [UInt32.toNat_ofNat', Nat.mod_eq_of_lt hlt]
  have htake : f.bytes.take kFrameHeaderBytes = f.header := by
    rw [ReceivedFrame.bytes, ← hlen, List.take_left]
  have hdrop : f.bytes.drop kFrameHeaderBytes = f.payload := by
    rw [ReceivedFrame.bytes, ← hlen, List.drop_left]
  have hload : load 4 f.bytes 20 = load 4 f.header 20 := by
    rw [load_eq, load_eq, ← htake, slice_take (by decide)]
  have hlength : f.bytes.length = kFrameHeaderBytes + f.payload.length := by
    rw [ReceivedFrame.bytes, List.length_append, hlen]
  unfold decodeFrame
  rw [if_neg (by omega), htake, hheader]
  dsimp only
  rw [hsize, if_neg (by simp [hlength]), hdrop, List.take_length, hload]
  unfold ReceivedFrame.checksumMatches
  by_cases heq : load 4 f.header 20 = (crc32c f.payload).toNat
  · rw [heq]
    simp [ReceivedFrame.frame]
  · rw [if_pos (Ne.symm heq)]
    simp [heq]

/-- **A header that was written, followed by as many bytes as it announces, is received**, whatever
those bytes are. -/
theorem receiveFrame_frameHeader (type : MessageType) (requestId : UInt64)
    {payload bytes : List UInt8} (hlen : bytes.length = payload.length)
    (h : payload.length ≤ maxPayloadBytes.toNat) (rest : List UInt8) :
    receiveFrame maxPayloadBytes (frameHeader type requestId payload ++ (bytes ++ rest)) =
      .frame ⟨frameHeader type requestId payload, type, requestId, bytes⟩ rest := by
  have hlt : payload.length < 2 ^ 32 := lt_of_le_of_lt h maxPayloadBytes.toNat_lt
  have hsize : (UInt32.ofNat payload.length).toNat = payload.length := by
    rw [UInt32.toNat_ofNat', Nat.mod_eq_of_lt hlt]
  have hheader := ((Reads.take (frameHeader type requestId payload)) (bytes ++ rest)).1 trivial
  have hpayload := ((Reads.take bytes) rest).1 trivial
  rw [length_frameHeader] at hheader
  unfold receiveFrame
  rw [hheader]
  dsimp only
  rw [decodeFrameHeader_frameHeader _ _ _ hlt, if_neg (not_lt.mpr h)]
  dsimp only
  rw [hsize, ← hlen, hpayload]

namespace Frame

/-- The frame on the wire. -/
def toBytes (f : Frame) : List UInt8 := frameHeader f.type f.requestId f.payload ++ f.payload

/-- A frame that was written, as its reader holds it. -/
def received (f : Frame) : ReceivedFrame :=
  ⟨frameHeader f.type f.requestId f.payload, f.type, f.requestId, f.payload⟩

/-- A frame that was written is received, with what follows it left. -/
theorem receiveFrame_toBytes (f : Frame) (h : f.payload.length ≤ maxPayloadBytes.toNat)
    (rest : List UInt8) :
    receiveFrame maxPayloadBytes (f.toBytes ++ rest) = .frame f.received rest := by
  rw [toBytes, List.append_assoc]
  exact receiveFrame_frameHeader f.type f.requestId rfl h rest

/-- A frame whose payload is too large for the reader is refused at its header. -/
theorem receiveFrame_toBytes_refused {maxPayloadBytes : UInt32} (f : Frame)
    (hlt : f.payload.length < 2 ^ 32) (h : maxPayloadBytes.toNat < f.payload.length)
    (rest : List UInt8) :
    ∃ error, receiveFrame maxPayloadBytes (f.toBytes ++ rest) = .refused error (f.payload ++ rest) := by
  have hheader := ((Reads.take (frameHeader f.type f.requestId f.payload)) (f.payload ++ rest)).1 trivial
  rw [length_frameHeader] at hheader
  unfold receiveFrame
  rw [toBytes, List.append_assoc, hheader]
  dsimp only
  rw [decodeFrameHeader_frameHeader _ _ _ hlt, if_pos h]
  exact ⟨_, rfl⟩

end Frame

/-- The bytes of a received frame are not none. -/
theorem length_lt_of_receiveFrame (h : receiveFrame maxPayloadBytes incoming = .frame f rest) :
    rest.length < incoming.length := by
  obtain ⟨hsplit, hlen, -, -⟩ := receiveFrame_eq_frame h
  rw [hsplit, ReceivedFrame.bytes, List.length_append, List.length_append, hlen]
  unfold kFrameHeaderBytes
  omega

/-! ### Streams -/

/-- Induction along the frames of a stream. -/
theorem stream_induction {motive : List UInt8 → Prop} (maxPayloadBytes : UInt32)
    (lost : ∀ incoming, receiveFrame maxPayloadBytes incoming = .lost → motive incoming)
    (refused : ∀ incoming error rest, receiveFrame maxPayloadBytes incoming = .refused error rest →
      motive incoming)
    (frame : ∀ incoming f rest, receiveFrame maxPayloadBytes incoming = .frame f rest → motive rest →
      motive incoming) : ∀ incoming, motive incoming := by
  intro incoming
  induction hn : incoming.length using Nat.strong_induction_on generalizing incoming with
  | _ n ih =>
    cases h : receiveFrame maxPayloadBytes incoming with
    | lost => exact lost incoming h
    | refused error rest => exact refused incoming error rest h
    | frame f rest =>
      refine frame incoming f rest h (ih rest.length ?_ rest rfl)
      rw [← hn]
      exact length_lt_of_receiveFrame h

/-- The frames that the headers cut a stream into, up to the first header that is not accepted or
the first frame that is cut short. -/
def splitFrames (maxPayloadBytes : UInt32) (incoming : List UInt8) : List ReceivedFrame :=
  match _h : receiveFrame maxPayloadBytes incoming with
  | .lost => []
  | .refused _ _ => []
  | .frame f rest => f :: splitFrames maxPayloadBytes rest
termination_by incoming.length
decreasing_by exact length_lt_of_receiveFrame ‹_›

theorem splitFrames_of_frame (h : receiveFrame maxPayloadBytes incoming = .frame f rest) :
    splitFrames maxPayloadBytes incoming = f :: splitFrames maxPayloadBytes rest := by
  rw [splitFrames]
  split
  · rename_i h'
    exact absurd (h'.symm.trans h) (by simp)
  · rename_i h'
    exact absurd (h'.symm.trans h) (by simp)
  · rename_i h'
    obtain ⟨rfl, rfl⟩ := Reception.frame.inj (h'.symm.trans h)
    rfl

theorem splitFrames_of_not_frame
    (h : ∀ f rest, receiveFrame maxPayloadBytes incoming ≠ .frame f rest) :
    splitFrames maxPayloadBytes incoming = [] := by
  rw [splitFrames]
  split
  · rfl
  · rfl
  · rename_i h'
    exact absurd h' (h _ _)

end CableRegistry
