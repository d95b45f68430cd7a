import CableRegistry.Messages

/-!
# The two ends of a connection

The server reads a request, dispatches it, sends the reply and reads the next one
(`serveConnection`).  The client numbers its requests, sends one, and takes the next frame on the
connection for the reply when it bears the number of the request (`Client.request`).

Neither end checks the payload of a frame against the checksum in its header, so both act on damaged
frames (`damaged_frame_acted_on`); `acts_on_accepted_iff` says that this is the only difference to
`decodeFrame`.
-/

namespace CableRegistry

/-! ### The server -/

structure ServerStats where
  requestsServed : Nat := 0
  protocolFailures : Nat := 0
  framesRejected : Nat := 0
  deriving Repr, DecidableEq

/-- What a server serves: a state, and what becomes of it and is replied when a request is
dispatched.  Only a shutdown that the options allow is acknowledged as one. -/
structure Handler (σ : Type) where
  limits : Limits := {}
  allowShutdown : Bool := true
  dispatch : σ → Frame → σ × MessageType × List UInt8
  acknowledges : ∀ state request, (dispatch state request).2.1 = .shutdownAck ↔
    request.type = .shutdown ∧ allowShutdown = true

/-- What a connection has seen of the server: the requests that were dispatched and the frames that
were sent. -/
structure Service (σ : Type) where
  state : σ
  dispatched : List ReceivedFrame := []
  sent : List Frame := []
  stats : ServerStats := {}
  shutdownRequested : Bool := false
  closed : Bool := false

/-- A request that was dispatched and what was sent for it come before all that is served later. -/
def Service.after {σ : Type} (f : ReceivedFrame) (sent : List Frame) (later : Service σ) : Service σ :=
  { later with
    dispatched := f :: later.dispatched
    sent := sent ++ later.sent
    stats := { later.stats with requestsServed := later.stats.requestsServed + 1 } }

/-- Nothing is sent when the payload does not fit in one frame. -/
def sendFrame (type : MessageType) (requestId : UInt64) (payload : List UInt8) (maxPayload : UInt32) :
    List Frame :=
  if (encodeFrame type requestId payload maxPayload).isEmpty then [] else [⟨type, requestId, payload⟩]

namespace Handler

variable {σ : Type}

def maxPayload (handler : Handler σ) : UInt32 := handler.limits.maxFramePayloadBytes

/-- The loop over the requests of a connection.  It ends where the bytes that arrive end, at a header
that is not accepted, and after a shutdown. -/
def serveConnection (handler : Handler σ) (state : σ) (incoming : List UInt8) : Service σ :=
  match _h : receiveFrame handler.maxPayload incoming with
  | .lost => { state := state }
  | .refused error _ =>
    { state := state
      sent := sendFrame .failure 0 (Encoder.run (encodeFailure error handler.limits)).take
        handler.maxPayload
      stats := { protocolFailures := 1, framesRejected := 1 }
      closed := true }
  | .frame f rest =>
    let (next, type, response) := handler.dispatch state f.frame
    let sent := sendFrame type f.requestId response handler.maxPayload
    if type = .shutdownAck then
      .after f sent { state := next, shutdownRequested := true, closed := true }
    else .after f sent (serveConnection handler next rest)
termination_by incoming.length
decreasing_by exact length_lt_of_receiveFrame ‹_›

/-- The frames of a stream that a connection gets to: those up to a shutdown that is allowed. -/
def upToShutdown (handler : Handler σ) : List ReceivedFrame → List ReceivedFrame
  | [] => []
  | f :: fs =>
    if f.type = .shutdown ∧ handler.allowShutdown = true then [f] else f :: handler.upToShutdown fs

end Handler

/-! ### The client -/

/-- Why a request has no reply: an error of the client's side, or one that the registry reported. -/
inductive RequestError where
  | raised (error : Error)
  | reported (error : ReportedError)
  deriving Repr, DecidableEq

structure Client where
  limits : Limits := {}
  nextRequestId : UInt64 := 1
  closed : Bool := false
  deriving Repr, DecidableEq

/-- A request of the client, with what the socket makes of sending it and the error it reports when
no frame arrives. -/
structure Call where
  type : MessageType
  payload : List UInt8 := []
  sent : Outcome Unit := .ok ()
  lost : Error := ⟨.closed, "the peer closed the connection"⟩

/-- What is left of the stream after waiting for a frame. -/
def Reception.rest : Reception → List UInt8
  | lost => []
  | refused _ rest => rest
  | frame _ rest => rest

namespace Client

def maxPayload (client : Client) : UInt32 := client.limits.maxFramePayloadBytes

def close (client : Client) : Client := { client with closed := true }

/-- What the client makes of the frame it waited for. -/
def replyFrom (limits : Limits) (requestId : UInt64) (lost : Error) :
    Reception → Except RequestError Frame
  | .lost => .error (.raised lost)
  | .refused error _ => .error (.raised error)
  | .frame f _ =>
    if f.requestId ≠ requestId then
      .error (.raised ⟨.protocolViolation,
        "the reply identifier does not match the request that was sent"⟩)
    else if f.type = .failure then
      match decodeFailure limits f.payload with
      | some (error, _) => .error (.reported error)
      | none => .error (.raised ⟨.protocolViolation, "the registry reported an unreadable failure"⟩)
    else .ok f.frame

/-- One request on what is unread of the connection: the client after it, what it returns, and what
is left unread. -/
def request (client : Client) (call : Call) (incoming : List UInt8) :
    Client × Except RequestError Frame × List UInt8 :=
  if client.closed then
    (client, .error (.raised ⟨.closed, "the client is closed"⟩), incoming)
  else
    let requestId := client.nextRequestId
    let next := { client with nextRequestId := requestId + 1 }
    if (encodeFrame call.type requestId call.payload client.maxPayload).isEmpty then
      (next, .error (.raised ⟨.capacityExceeded, "the request does not fit in one frame"⟩), incoming)
    else
      match call.sent with
      | .error error => (next, .error (.raised error), incoming)
      | .ok () =>
        let reception := receiveFrame client.maxPayload incoming
        (next, replyFrom client.limits requestId call.lost reception, reception.rest)

end Client

structure ClientOptions where
  port : UInt16 := 0
  limits : Limits := {}
  deriving Repr, DecidableEq

/-- The number of the greeting. -/
def greetingId : UInt64 := 0

/-- What the client makes of the frame that answers its greeting.  Its number is not looked at. -/
def greetingFrom (limits : Limits) (lost : Error) : Reception → Except RequestError Hello
  | .lost => .error (.raised lost)
  | .refused error _ => .error (.raised error)
  | .frame f _ =>
    if f.type = .failure then
      match decodeFailure limits f.payload with
      | some (error, _) => .error (.reported error)
      | none => .error (.raised ⟨.protocolViolation, "the registry refused the greeting"⟩)
    else
      match f.type, decodeHello f.payload limits with
      | .helloAck, some hello =>
        if hello.protocolVersion ≠ kProtocolVersion then
          .error (.raised ⟨.unsupportedVersion,
            "the registry speaks protocol version " ++ toString hello.protocolVersion.toNat ++
              " but this client speaks " ++ toString kProtocolVersion.toNat⟩)
        else .ok hello
      | _, _ => .error (.raised ⟨.protocolViolation, "the registry sent an unexpected greeting"⟩)

/-- Opens a connection and exchanges the greeting; `connected` and `sent` are what the sockets say
to connecting and to sending the greeting. -/
def Client.connect (options : ClientOptions) (connected sent : Outcome Unit) (lost : Error)
    (incoming : List UInt8) : Except RequestError (Client × Hello × List UInt8) := do
  (validateLimits options.limits).mapError .raised
  refuseIf (options.port == 0) (.raised ⟨.invalidArgument, "the client port must be set"⟩)
  connected.mapError .raised
  sent.mapError .raised
  let reception := receiveFrame options.limits.maxFramePayloadBytes incoming
  let hello ← greetingFrom options.limits lost reception
  pure ({ limits := options.limits }, hello, reception.rest)

/-! ### What the server acts on -/

variable {incoming : List UInt8} {f : ReceivedFrame} {maxPayloadBytes : UInt32}

namespace Handler

variable {σ : Type} {handler : Handler σ} {state : σ} {incoming rest : List UInt8}

theorem serveConnection_of_lost (h : receiveFrame handler.maxPayload incoming = .lost) :
    handler.serveConnection state incoming = { state := state } := by
  rw [serveConnection]
  split
  · rfl
  · rename_i h'
    exact absurd (h'.symm.trans h) (by simp)
  · rename_i h'
    exact absurd (h'.symm.trans h) (by simp)

theorem serveConnection_of_refused {error : Error}
    (h : receiveFrame handler.maxPayload incoming = .refused error rest) :
    handler.serveConnection state incoming =
      { state := state
        sent := sendFrame .failure 0 (Encoder.run (encodeFailure error handler.limits)).take
          handler.maxPayload
        stats := { protocolFailures := 1, framesRejected := 1 }
        closed := true } := by
  rw [serveConnection]
  split
  · rename_i h'
    exact absurd (h'.symm.trans h) (by simp)
  · rename_i h'
    obtain ⟨rfl, -⟩ := Reception.refused.inj (h'.symm.trans h)
    rfl
  · rename_i h'
    exact absurd (h'.symm.trans h) (by simp)

/-- What is left to serve after one request: nothing after a shutdown. -/
def later (handler : Handler σ) (state : σ) (f : ReceivedFrame) (rest : List UInt8) : Service σ :=
  if f.type = .shutdown ∧ handler.allowShutdown = true then
    { state := (handler.dispatch state f.frame).1, shutdownRequested := true, closed := true }
  else handler.serveConnection (handler.dispatch state f.frame).1 rest

/-- One request of a connection, and the rest of it. -/
theorem serveConnection_of_frame (h : receiveFrame handler.maxPayload incoming = .frame f rest) :
    handler.serveConnection state incoming =
      .after f (sendFrame (handler.dispatch state f.frame).2.1 f.requestId
        (handler.dispatch state f.frame).2.2 handler.maxPayload) (handler.later state f rest) := by
  have hack : (handler.dispatch state f.frame).2.1 = .shutdownAck ↔
      f.type = .shutdown ∧ handler.allowShutdown = true := handler.acknowledges state f.frame
  rw [serveConnection]
  split
  · rename_i h'
    exact absurd (h'.symm.trans h) (by simp)
  · rename_i h'
    exact absurd (h'.symm.trans h) (by simp)
  · rename_i h'
    obtain ⟨rfl, rfl⟩ := Reception.frame.inj (h.symm.trans h')
    unfold later
    by_cases hshut : (handler.dispatch state f.frame).2.1 = .shutdownAck
    · rw [if_pos (hack.mp hshut)]
      exact if_pos hshut
    · rw [if_neg fun hs => hshut (hack.mpr hs)]
      exact if_neg hshut

/-- **The server dispatches the frames that the headers cut the stream into.** -/
theorem dispatched_eq (handler : Handler σ) (state : σ) (incoming : List UInt8) :
    (handler.serveConnection state incoming).dispatched =
      handler.upToShutdown (splitFrames handler.maxPayload incoming) := by
  revert state
  refine stream_induction (motive := fun incoming => ∀ state,
    (handler.serveConnection state incoming).dispatched =
      handler.upToShutdown (splitFrames handler.maxPayload incoming)) handler.maxPayload ?_ ?_ ?_ incoming
  · intro incoming h state
    rw [serveConnection_of_lost h, splitFrames_of_not_frame (by simp [h])]
    rfl
  · intro incoming error rest h state
    rw [serveConnection_of_refused h, splitFrames_of_not_frame (by simp [h])]
    rfl
  · intro incoming f rest h ih state
    rw [serveConnection_of_frame h, splitFrames_of_frame h]
    unfold later upToShutdown
    by_cases hshut : f.type = .shutdown ∧ handler.allowShutdown = true
    · rw [if_pos hshut, if_pos hshut]
      rfl
    · rw [if_neg hshut, if_neg hshut]
      exact congrArg (List.cons f) (ih _)

theorem mem_of_mem_upToShutdown {fs : List ReceivedFrame} (h : f ∈ handler.upToShutdown fs) :
    f ∈ fs := by
  induction fs with
  | nil => exact h
  | cons g gs ih =>
    unfold upToShutdown at h
    split at h
    · rw [List.mem_singleton.mp h]
      exact List.mem_cons_self
    · rcases List.mem_cons.mp h with rfl | h
      · exact List.mem_cons_self
      · exact List.mem_cons_of_mem g (ih h)

end Handler

theorem receiveFrame_of_mem_splitFrames :
    ∀ incoming, f ∈ splitFrames maxPayloadBytes incoming →
      ∃ stream rest, receiveFrame maxPayloadBytes stream = .frame f rest := by
  refine stream_induction maxPayloadBytes ?_ ?_ ?_
  · intro incoming h hmem
    rw [splitFrames_of_not_frame (by simp [h])] at hmem
    exact absurd hmem (by simp)
  · intro incoming error rest h hmem
    rw [splitFrames_of_not_frame (by simp [h])] at hmem
    exact absurd hmem (by simp)
  · intro incoming g rest h ih hmem
    rw [splitFrames_of_frame h] at hmem
    rcases List.mem_cons.mp hmem with rfl | hmem
    · exact ⟨incoming, rest, h⟩
    · exact ih hmem

/-- A frame that was received is accepted when its payload matches its checksum. -/
theorem decodeFrame_bytes_iff {rest : List UInt8}
    (h : receiveFrame maxPayloadBytes incoming = .frame f rest) :
    decodeFrame f.bytes maxPayloadBytes = .ok f.frame ↔ f.checksumMatches = true := by
  rw [decodeFrame_bytes h]
  cases f.checksumMatches <;> simp [makeError]

/-! ### What the client acts on -/

/-- What the owner of a client does with it. -/
inductive ClientAction where
  | request (call : Call)
  | close

/-- A request, with the client that makes it and what is unread on the connection. -/
structure Exchange where
  client : Client
  call : Call
  incoming : List UInt8

/-- The requests that are made of a client, one after the other on one connection. -/
def Client.exchanges : Client → List ClientAction → List UInt8 → List Exchange
  | _, [], _ => []
  | client, .close :: actions, incoming => client.close.exchanges actions incoming
  | client, .request call :: actions, incoming =>
    ⟨client, call, incoming⟩ :: (client.request call incoming).1.exchanges actions
      (client.request call incoming).2.2

namespace Exchange

def outcome (x : Exchange) : Except RequestError Frame := (x.client.request x.call x.incoming).2.1

/-- The client gets to wait for a reply: it is open, the request fits in a frame and is sent. -/
def Awaits (x : Exchange) : Prop :=
  x.client.closed = false ∧ x.call.payload.length ≤ x.client.maxPayload.toNat ∧ x.call.sent = .ok ()

/-- The next frame on the connection, if it is one that a client which waits for it returns, is as
its header says. -/
def Intact (x : Exchange) : Prop :=
  x.Awaits → ∀ f rest, receiveFrame x.client.maxPayload x.incoming = .frame f rest →
    f.requestId = x.client.nextRequestId → f.type ≠ .failure → f.checksumMatches = true

end Exchange

theorem isEmpty_encodeFrame (type : MessageType) (requestId : UInt64) (payload : List UInt8)
    (maxPayloadBytes : UInt32) :
    (encodeFrame type requestId payload maxPayloadBytes).isEmpty =
      decide (maxPayloadBytes.toNat < payload.length) := by
  unfold encodeFrame
  split
  · rename_i h
    simp only [List.isEmpty_nil, h, decide_true]
  · rename_i h
    have hlen := length_frameHeader type requestId payload
    have hne : (frameHeader type requestId payload ++ payload).isEmpty = false := by
      rw [List.isEmpty_eq_false_iff, ← List.length_pos_iff, List.length_append, hlen]
      unfold kFrameHeaderBytes
      omega
    rw [hne]
    exact (decide_eq_false h).symm

namespace Client

theorem replyFrom_eq_ok {limits : Limits} {requestId : UInt64} {lost : Error} {reception : Reception}
    {reply : Frame} :
    replyFrom limits requestId lost reception = .ok reply ↔
      ∃ f rest, reception = .frame f rest ∧ f.requestId = requestId ∧ f.type ≠ .failure ∧
        reply = f.frame := by
  cases reception with
  | lost => simp [replyFrom]
  | refused error rest => simp [replyFrom]
  | frame f rest =>
    unfold replyFrom
    dsimp only
    by_cases hid : f.requestId = requestId
    · by_cases htype : f.type = .failure
      · rw [if_neg (not_not.mpr hid), if_pos htype]
        constructor
        · intro h
          split at h <;> exact absurd h (by simp)
        · rintro ⟨g, rest', heq, -, hne, -⟩
          obtain ⟨rfl, -⟩ := Reception.frame.inj heq
          exact absurd htype hne
      · rw [if_neg (not_not.mpr hid), if_neg htype]
        constructor
        · intro h
          exact ⟨f, rest, rfl, hid, htype, (Except.ok.inj h).symm⟩
        · rintro ⟨g, rest', heq, -, -, rfl⟩
          obtain ⟨rfl, -⟩ := Reception.frame.inj heq
          rfl
    · rw [if_pos hid]
      constructor
      · intro h
        exact absurd h (by simp)
      · rintro ⟨g, rest', heq, hid', -, -⟩
        obtain ⟨rfl, -⟩ := Reception.frame.inj heq
        exact absurd hid' hid

/-- What a request does when the client gets to wait for a reply, and when it does not. -/
theorem request_of_awaits {client : Client} {call : Call}
    (h : Exchange.Awaits ⟨client, call, incoming⟩) :
    client.request call incoming =
      ({ client with nextRequestId := client.nextRequestId + 1 },
        replyFrom client.limits client.nextRequestId call.lost
          (receiveFrame client.maxPayload incoming),
        (receiveFrame client.maxPayload incoming).rest) := by
  obtain ⟨hopen, hfits, hsent⟩ := h
  dsimp only at hopen hfits hsent
  unfold request
  rw [if_neg (by simp [hopen])]
  dsimp only
  rw [isEmpty_encodeFrame, hsent]
  exact if_neg (by simpa using hfits)

theorem request_of_not_awaits {client : Client} {call : Call}
    (h : ¬ Exchange.Awaits ⟨client, call, incoming⟩) :
    (∃ error, (client.request call incoming).2.1 = .error error) ∧
      (client.request call incoming).2.2 = incoming := by
  unfold request
  by_cases hclosed : client.closed = true
  · rw [if_pos hclosed]
    exact ⟨⟨_, rfl⟩, rfl⟩
  · rw [if_neg hclosed]
    dsimp only
    rw [isEmpty_encodeFrame]
    by_cases hfits : client.maxPayload.toNat < call.payload.length
    · rw [if_pos (decide_eq_true hfits)]
      exact ⟨⟨_, rfl⟩, rfl⟩
    · rw [if_neg (by simpa using hfits)]
      cases hsent : call.sent with
      | error error => exact ⟨⟨_, rfl⟩, rfl⟩
      | ok u => exact absurd ⟨Bool.not_eq_true _ ▸ hclosed, not_lt.mp hfits, hsent⟩ h

end Client

/-- **The inversion of a success**: the next frame on the connection bears the number of the request
and is no failure. -/
theorem Exchange.outcome_eq_ok {x : Exchange} {reply : Frame} :
    x.outcome = .ok reply ↔
      x.Awaits ∧ ∃ f rest, receiveFrame x.client.maxPayload x.incoming = .frame f rest ∧
        f.requestId = x.client.nextRequestId ∧ f.type ≠ .failure ∧ reply = f.frame := by
  by_cases h : x.Awaits
  · rw [outcome, Client.request_of_awaits h, Client.replyFrom_eq_ok]
    exact ⟨fun hr => ⟨h, hr⟩, fun hr => hr.2⟩
  · obtain ⟨⟨error, herror⟩, -⟩ := Client.request_of_not_awaits h
    rw [outcome, herror]
    constructor
    · intro hr
      exact absurd hr (by simp)
    · intro hr
      exact absurd hr.1 h

/-- A reply that is returned comes from a frame that is accepted exactly when that frame is as its
header says. -/
theorem Exchange.accepted_iff (x : Exchange) :
    (∀ reply, x.outcome = .ok reply → ∃ f rest,
        receiveFrame x.client.maxPayload x.incoming = .frame f rest ∧
          decodeFrame f.bytes x.client.maxPayload = .ok reply) ↔ x.Intact := by
  constructor
  · intro h hawaits f rest hrecv hid htype
    obtain ⟨g, rest', hrecv', hdecode⟩ :=
      h f.frame (outcome_eq_ok.mpr ⟨hawaits, f, rest, hrecv, hid, htype, rfl⟩)
    obtain ⟨rfl, -⟩ := Reception.frame.inj (hrecv.symm.trans hrecv')
    exact (decodeFrame_bytes_iff hrecv).mp hdecode
  · intro h reply hreply
    obtain ⟨hawaits, f, rest, hrecv, hid, htype, rfl⟩ := outcome_eq_ok.mp hreply
    exact ⟨f, rest, hrecv, (decodeFrame_bytes_iff hrecv).mpr (h hawaits f rest hrecv hid htype)⟩

/-- **Both ends act on the frames that `decodeFrame` accepts exactly when no payload they get to is
damaged.**  A server dispatches the frames that the headers cut the stream into, up to a shutdown; a
client returns the next frame when it bears the number of the request.  Neither looks at the
checksum of the payload. -/
theorem acts_on_accepted_iff {σ : Type} (handler : Handler σ) (state : σ) (requests : List UInt8)
    (client : Client) (actions : List ClientAction) (replies : List UInt8) :
    ((∀ f ∈ (handler.serveConnection state requests).dispatched,
        decodeFrame f.bytes handler.maxPayload = .ok f.frame) ↔
      ∀ f ∈ handler.upToShutdown (splitFrames handler.maxPayload requests), f.checksumMatches = true) ∧
    ((∀ x ∈ client.exchanges actions replies, ∀ reply, x.outcome = .ok reply → ∃ f rest,
        receiveFrame x.client.maxPayload x.incoming = .frame f rest ∧
          decodeFrame f.bytes x.client.maxPayload = .ok reply) ↔
      ∀ x ∈ client.exchanges actions replies, x.Intact) := by
  constructor
  · rw [Handler.dispatched_eq]
    refine forall₂_congr fun f hf => ?_
    obtain ⟨stream, rest, hrecv⟩ :=
      receiveFrame_of_mem_splitFrames requests (Handler.mem_of_mem_upToShutdown hf)
    exact decodeFrame_bytes_iff hrecv
  · exact forall₂_congr fun x _ => x.accepted_iff

/-- A header that was written for the payload `0`, followed by the payload `1`. -/
def damagedFrame (type : MessageType) (requestId : UInt64) : ReceivedFrame :=
  ⟨frameHeader type requestId [0], type, requestId, [1]⟩

theorem receiveFrame_damagedFrame (type : MessageType) (requestId : UInt64)
    (h : 1 ≤ maxPayloadBytes.toNat) :
    receiveFrame maxPayloadBytes (damagedFrame type requestId).bytes =
      .frame (damagedFrame type requestId) [] := by
  have hlen : [(1 : UInt8)].length = [(0 : UInt8)].length := rfl
  exact receiveFrame_frameHeader type requestId hlen h []

theorem checksumMatches_damagedFrame (type : MessageType) (requestId : UInt64) :
    (damagedFrame type requestId).checksumMatches = false := by
  have hload := load_payloadChecksum type requestId [0] []
  rw [List.append_nil] at hload
  have hcrc : (crc32c [0]).toNat ≠ (crc32c [1]).toNat := by decide +kernel
  unfold ReceivedFrame.checksumMatches damagedFrame
  rw [hload]
  exact beq_false_of_ne hcrc

/-- **A damaged frame is acted on.**  Every server dispatches it as a request, and a client returns
it as a reply, while `decodeFrame` refuses it. -/
theorem damaged_frame_acted_on :
    decodeFrame (damagedFrame .publish 1).bytes ({} : Limits).maxFramePayloadBytes =
        makeError .protocolViolation "the frame payload checksum does not match" ∧
      (∀ (σ : Type) (handler : Handler σ) (state : σ), handler.limits = {} →
        (handler.serveConnection state (damagedFrame .publish 1).bytes).dispatched =
          [damagedFrame .publish 1]) ∧
      decodeFrame (damagedFrame .publishAck 1).bytes ({} : Limits).maxFramePayloadBytes =
        makeError .protocolViolation "the frame payload checksum does not match" ∧
      Exchange.outcome ⟨{}, { type := .publish }, (damagedFrame .publishAck 1).bytes⟩ =
        .ok ⟨.publishAck, 1, [1]⟩ := by
  have hmax : 1 ≤ ({} : Limits).maxFramePayloadBytes.toNat := by decide
  have hrequest := receiveFrame_damagedFrame .publish 1 hmax
  have hreply := receiveFrame_damagedFrame .publishAck 1 hmax
  have hdecode := decodeFrame_bytes hrequest
  have hdecode' := decodeFrame_bytes hreply
  rw [checksumMatches_damagedFrame] at hdecode hdecode'
  refine ⟨hdecode, ?_, hdecode', ?_⟩
  · intro σ handler state hlimits
    have hrecv : receiveFrame handler.maxPayload (damagedFrame .publish 1).bytes =
        .frame (damagedFrame .publish 1) [] := by
      rw [Handler.maxPayload, hlimits]
      exact hrequest
    rw [Handler.dispatched_eq, splitFrames_of_frame hrecv,
      splitFrames_of_not_frame (by simp [receiveFrame, Reader.take, kFrameHeaderBytes])]
    simp [Handler.upToShutdown, damagedFrame]
  · exact Exchange.outcome_eq_ok.mpr ⟨⟨rfl, by decide, rfl⟩, _, _, hreply, rfl, by decide, rfl⟩

end CableRegistry
