import CableRegistry.Connection

/-!
# Requests and their answers

The client keeps a connection after an error, so frames that answer earlier requests may still be
unread when it makes the next one.  What keeps them apart is the number of the request, which the
server copies into its reply.

`requestNumbers_exchanges` says how a client numbers its requests: from one on, modulo `2 ^ 64`.  As
long as a connection carries at most `2 ^ 64` requests, its greeting included, no two have the same
number, and a reply that the client returns is what the server answered to that very request
(`answers_match`).  The invariant of a `Conversation` is that every unread frame bears the number of
an earlier request.  After `2 ^ 64` requests the numbers come round again
(`number_comes_round_again`).
-/

namespace CableRegistry

/-! ### The numbers of requests -/

namespace Client

variable {client : Client} {call : Call} {incoming : List UInt8}

theorem request_closed (h : client.closed = true) : (client.request call incoming).1 = client := by
  rw [request, if_pos h]

/-- An open client moves on to the next number, whatever becomes of the request. -/
theorem request_open (h : client.closed = false) :
    (client.request call incoming).1 =
      { client with nextRequestId := client.nextRequestId + 1 } := by
  rw [request, if_neg (by simp [h])]
  dsimp only
  split
  · rfl
  · split <;> rfl

theorem limits_request (client : Client) (call : Call) (incoming : List UInt8) :
    (client.request call incoming).1.limits = client.limits := by
  cases h : client.closed with
  | true => rw [request_closed h]
  | false => rw [request_open h]

end Client

/-- The numbers of the requests among the exchanges; a closed client makes none. -/
def requestNumbers (xs : List Exchange) : List UInt64 :=
  (xs.filter fun x => !x.client.closed).map fun x => x.client.nextRequestId

variable {client : Client} {x : Exchange} {f : Frame} {actions : List ClientAction}
  {frames : List Frame}

theorem requestNumbers_cons_closed (h : x.client.closed = true) (xs : List Exchange) :
    requestNumbers (x :: xs) = requestNumbers xs := by
  rw [requestNumbers, List.filter_cons_of_neg (by simp [h])]
  rfl

theorem requestNumbers_cons_open (h : x.client.closed = false) (xs : List Exchange) :
    requestNumbers (x :: xs) = x.client.nextRequestId :: requestNumbers xs := by
  rw [requestNumbers, List.filter_cons_of_pos (by simp [h])]
  rfl

theorem requestNumbers_closed (h : client.closed = true) (actions : List ClientAction)
    (incoming : List UInt8) :
    requestNumbers (client.exchanges actions incoming) = [] := by
  induction actions generalizing client incoming with
  | nil => rfl
  | cons action actions ih =>
    cases action with
    | close => exact ih rfl incoming
    | request call =>
      refine (requestNumbers_cons_closed h _).trans (ih ?_ _)
      rw [Client.request_closed h, h]

/-- **A client numbers its requests one after the other.** -/
theorem requestNumbers_exchanges (client : Client) (actions : List ClientAction)
    (incoming : List UInt8) :
    ∃ n, requestNumbers (client.exchanges actions incoming) =
      (List.range n).map fun k => client.nextRequestId + UInt64.ofNat k := by
  induction actions generalizing client incoming with
  | nil => exact ⟨0, rfl⟩
  | cons action actions ih =>
    cases action with
    | close => exact ⟨0, requestNumbers_closed rfl actions incoming⟩
    | request call =>
      cases h : client.closed with
      | true => exact ⟨0, requestNumbers_closed h (.request call :: actions) incoming⟩
      | false =>
        obtain ⟨n, hn⟩ := ih (client.request call incoming).1 (client.request call incoming).2.2
        refine ⟨n + 1, ?_⟩
        rw [Client.exchanges, requestNumbers_cons_open h, List.range_succ_eq_map, List.map_cons,
          List.map_map]
        refine congrArg₂ List.cons (by simp) (hn.trans (List.map_congr_left fun k _ => ?_))
        rw [Client.request_open h, Function.comp_apply, Nat.succ_eq_add_one, Nat.add_comm,
          UInt64.ofNat_add, ← UInt64.add_assoc]
        rfl

theorem ofNat_inj_of_lt {a b : Nat} (ha : a < 2 ^ 64) (hb : b < 2 ^ 64)
    (h : UInt64.ofNat a = UInt64.ofNat b) : a = b := by
  have hnat := congrArg UInt64.toNat h
  rwa [UInt64.toNat_ofNat', UInt64.toNat_ofNat', Nat.mod_eq_of_lt ha, Nat.mod_eq_of_lt hb] at hnat

/-- The numbers of a new client, with that of the greeting. -/
theorem requestNumbers_new (limits : Limits) (actions : List ClientAction) (incoming : List UInt8) :
    ∃ n, n = (requestNumbers (({ limits := limits } : Client).exchanges actions incoming)).length ∧
      greetingId :: requestNumbers (({ limits := limits } : Client).exchanges actions incoming) =
        (List.range (n + 1)).map UInt64.ofNat := by
  obtain ⟨n, hn⟩ := requestNumbers_exchanges { limits := limits } actions incoming
  refine ⟨n, by rw [hn, List.length_map, List.length_range], ?_⟩
  rw [hn, List.range_succ_eq_map, List.map_cons, List.map_map]
  refine congrArg₂ List.cons rfl (List.map_congr_left fun k _ => ?_)
  rw [Function.comp_apply, Nat.succ_eq_add_one, Nat.add_comm, UInt64.ofNat_add]
  rfl

theorem requestNumbers_nodup {limits : Limits} {actions : List ClientAction} {incoming : List UInt8}
    (h : (requestNumbers (({ limits := limits } : Client).exchanges actions incoming)).length < 2 ^ 64) :
    (greetingId :: requestNumbers (({ limits := limits } : Client).exchanges actions incoming)).Nodup := by
  obtain ⟨n, hn, heq⟩ := requestNumbers_new limits actions incoming
  rw [heq]
  refine List.Nodup.map_on ?_ List.nodup_range
  intro a ha b hb
  rw [List.mem_range] at ha hb
  exact ofNat_inj_of_lt (by omega) (by omega)

/-! ### Streams of frames -/

/-- Frames on the wire. -/
def wireFrames (frames : List Frame) : List UInt8 := frames.flatMap Frame.toBytes

theorem wireFrames_append (frames frames' : List Frame) :
    wireFrames (frames ++ frames') = wireFrames frames ++ wireFrames frames' :=
  List.flatMap_append

theorem receiveFrame_nil (maxPayloadBytes : UInt32) : receiveFrame maxPayloadBytes [] = .lost := by
  simp [receiveFrame, Reader.take, kFrameHeaderBytes]

theorem receiveFrame_wireFrames {maxPayloadBytes : UInt32} {f : Frame}
    (h : f.payload.length ≤ maxPayloadBytes.toNat) (frames : List Frame) :
    receiveFrame maxPayloadBytes (wireFrames (f :: frames)) = .frame f.received (wireFrames frames) :=
  f.receiveFrame_toBytes h (wireFrames frames)

/-- **A success on a stream of frames** returns the first of them, which bears the number of the
request. -/
theorem Exchange.outcome_wireFrames {x : Exchange} {frames : List Frame} {reply : Frame}
    (hwire : x.incoming = wireFrames frames)
    (hfits : ∀ f ∈ frames, f.payload.length ≤ x.client.maxPayload.toNat)
    (h : x.outcome = .ok reply) :
    frames.head? = some reply ∧ reply.requestId = x.client.nextRequestId ∧ reply.type ≠ .failure ∧
      x.Awaits := by
  obtain ⟨hawaits, f, rest, hrecv, hid, htype, rfl⟩ := outcome_eq_ok.mp h
  rw [hwire] at hrecv
  cases frames with
  | nil => exact absurd ((receiveFrame_nil _).symm.trans hrecv) (by simp)
  | cons g frames =>
    have hg := receiveFrame_wireFrames (hfits g List.mem_cons_self) frames
    obtain ⟨rfl, -⟩ := Reception.frame.inj (hg.symm.trans hrecv)
    exact ⟨rfl, hid, htype, hawaits⟩

/-- A request leaves of a stream of frames what follows the first, or all of it. -/
theorem Client.unread_wireFrames (call : Call)
    (hfits : ∀ f ∈ frames, f.payload.length ≤ client.maxPayload.toNat) :
    ∃ left, left <:+ frames ∧ (client.request call (wireFrames frames)).2.2 = wireFrames left := by
  by_cases h : Exchange.Awaits ⟨client, call, wireFrames frames⟩
  · rw [request_of_awaits h]
    cases frames with
    | nil => exact ⟨[], List.suffix_rfl, by rw [wireFrames, List.flatMap_nil, receiveFrame_nil]; rfl⟩
    | cons f frames =>
      refine ⟨frames, List.suffix_cons f frames, ?_⟩
      rw [receiveFrame_wireFrames (hfits f List.mem_cons_self)]
      rfl
  · exact ⟨frames, List.suffix_rfl, (request_of_not_awaits h).2⟩

theorem exchanges_wireFrames (hfits : ∀ f ∈ frames, f.payload.length ≤ client.maxPayload.toNat) :
    ∀ x ∈ client.exchanges actions (wireFrames frames), x.client.limits = client.limits ∧
      ∃ left, left <:+ frames ∧ x.incoming = wireFrames left := by
  induction actions generalizing client frames with
  | nil =>
    intro x hx
    exact absurd hx (by simp [Client.exchanges])
  | cons action actions ih =>
    cases action with
    | close => exact @ih client.close frames hfits
    | request call =>
      intro x hx
      rcases List.mem_cons.mp hx with rfl | hx
      · exact ⟨rfl, frames, List.suffix_rfl, rfl⟩
      · obtain ⟨left, hleft, hrest⟩ := Client.unread_wireFrames call hfits
        rw [hrest] at hx
        have hlimits := Client.limits_request client call (wireFrames frames)
        have hmax : (client.request call (wireFrames frames)).1.maxPayload = client.maxPayload := by
          rw [Client.maxPayload, hlimits, Client.maxPayload]
        obtain ⟨hx', later, hlater, hin⟩ := ih (by
          rw [hmax]
          exact fun f hf => hfits f (hleft.subset hf)) x hx
        exact ⟨hx'.trans hlimits, later, hlater.trans hleft, hin⟩

/-! ### Conversations -/

/-- The two ends of a connection, with what the server sent and the client has not read. -/
structure Conversation (σ : Type) where
  client : Client
  state : σ
  hungUp : Bool := false
  unread : List UInt8 := []

/-- A request of the client and the conversation before it.  The frame reaches the server whole or
not at all, whatever the socket reports to the client. -/
structure Turn (σ : Type) where
  before : Conversation σ
  call : Call
  delivered : Bool

namespace Turn

variable {σ : Type}

def request (t : Turn σ) : Frame := ⟨t.call.type, t.before.client.nextRequestId, t.call.payload⟩

/-- The request gets to the server: it is sent, it is delivered, and the server is still there. -/
def Reaches (t : Turn σ) : Prop :=
  t.before.client.closed = false ∧ t.call.payload.length ≤ t.before.client.maxPayload.toNat ∧
    t.delivered = true ∧ t.before.hungUp = false

instance : DecidablePred (@Reaches σ) := fun t => by
  unfold Reaches
  infer_instance

/-- What the server does with the request. -/
def service (handler : Handler σ) (t : Turn σ) : Service σ :=
  if t.Reaches then handler.serveConnection t.before.state t.request.toBytes
  else { state := t.before.state, closed := t.before.hungUp }

/-- The answer of the server to this very request. -/
def answer (handler : Handler σ) (t : Turn σ) : Frame :=
  ⟨(handler.dispatch t.before.state t.request).2.1, t.request.requestId,
    (handler.dispatch t.before.state t.request).2.2⟩

def exchange (handler : Handler σ) (t : Turn σ) : Exchange :=
  ⟨t.before.client, t.call, t.before.unread ++ wireFrames (t.service handler).sent⟩

def after (handler : Handler σ) (t : Turn σ) : Conversation σ where
  client := (t.before.client.request t.call (t.exchange handler).incoming).1
  state := (t.service handler).state
  hungUp := (t.service handler).closed
  unread := (t.before.client.request t.call (t.exchange handler).incoming).2.2

end Turn

/-- What the owner of a client does, and whether a request is delivered. -/
inductive TurnAction where
  | request (call : Call) (delivered : Bool)
  | close

/-- The requests of a conversation. -/
def Conversation.turns {σ : Type} (handler : Handler σ) :
    Conversation σ → List TurnAction → List (Turn σ)
  | _, [] => []
  | c, .close :: actions => turns handler { c with client := c.client.close } actions
  | c, .request call delivered :: actions =>
    ⟨c, call, delivered⟩ :: turns handler (Turn.after handler ⟨c, call, delivered⟩) actions

theorem mem_sendFrame {type : MessageType} {requestId : UInt64} {payload : List UInt8}
    {maxPayload : UInt32} (h : f ∈ sendFrame type requestId payload maxPayload) :
    f = ⟨type, requestId, payload⟩ := by
  unfold sendFrame at h
  split at h
  · exact absurd h (by simp)
  · exact List.mem_singleton.mp h

namespace Turn

variable {σ : Type} {handler : Handler σ} {t : Turn σ}

theorem service_of_not_reaches (h : ¬ t.Reaches) : (t.service handler).sent = [] := by
  rw [service, if_neg h]

/-- What the server does with a request that reaches it and that it accepts. -/
theorem service_of_reaches (h : t.Reaches)
    (hfits : t.request.payload.length ≤ handler.maxPayload.toNat) :
    (t.service handler).dispatched = [t.request.received] ∧
      (t.service handler).sent = sendFrame (t.answer handler).type (t.answer handler).requestId
        (t.answer handler).payload handler.maxPayload := by
  have hlater : (handler.later t.before.state t.request.received []).sent = [] ∧
      (handler.later t.before.state t.request.received []).dispatched = [] := by
    unfold Handler.later
    split
    · exact ⟨rfl, rfl⟩
    · rw [Handler.serveConnection_of_lost (receiveFrame_nil _)]
      exact ⟨rfl, rfl⟩
  rw [service, if_pos h, ← List.append_nil t.request.toBytes,
    Handler.serveConnection_of_frame (t.request.receiveFrame_toBytes hfits []), Service.after]
  dsimp only
  rw [hlater.1, hlater.2, List.append_nil]
  exact ⟨rfl, rfl⟩

/-- **The server answers the request that reaches it**, or says that its header is not accepted. -/
theorem mem_sent (h : f ∈ (t.service handler).sent) :
    (f.type = .failure ∧ f.requestId = 0) ∨
      ((t.service handler).dispatched = [t.request.received] ∧ f = t.answer handler) := by
  by_cases hreach : t.Reaches
  · by_cases hfits : t.request.payload.length ≤ handler.maxPayload.toNat
    · obtain ⟨hdispatched, hsent⟩ := @service_of_reaches _ handler _ hreach hfits
      rw [hsent] at h
      exact .inr ⟨hdispatched, mem_sendFrame h⟩
    · have hlt : t.request.payload.length < 2 ^ 32 :=
        lt_of_le_of_lt hreach.2.1 t.before.client.maxPayload.toNat_lt
      obtain ⟨error, hrefused⟩ := t.request.receiveFrame_toBytes_refused hlt (not_le.mp hfits) []
      rw [List.append_nil] at hrefused
      rw [service, if_pos hreach, Handler.serveConnection_of_refused hrefused] at h
      rw [mem_sendFrame h]
      exact .inl ⟨rfl, rfl⟩
  · rw [service_of_not_reaches hreach] at h
    exact absurd h (by simp)

/-- **An answer that fits in a frame is returned**, where nothing older is unread. -/
theorem outcome_of_reaches (h : t.Reaches) (hsent : t.call.sent = .ok ()) (hunread : t.before.unread = [])
    (hlimits : handler.limits = t.before.client.limits)
    (hfits : (t.answer handler).payload.length ≤ handler.maxPayload.toNat)
    (htype : (t.answer handler).type ≠ .failure) :
    (t.exchange handler).outcome = .ok (t.answer handler) := by
  have hmax : handler.maxPayload = t.before.client.maxPayload := by
    rw [Handler.maxPayload, hlimits, Client.maxPayload]
  have hin : (t.exchange handler).incoming = wireFrames [t.answer handler] := by
    rw [exchange, hunread, (service_of_reaches h (hmax ▸ h.2.1)).2, sendFrame, isEmpty_encodeFrame,
      if_neg (by simpa using hfits)]
    rfl
  refine Exchange.outcome_eq_ok.mpr ⟨⟨h.1, h.2.1, hsent⟩, (t.answer handler).received, wireFrames [],
    ?_, rfl, htype, rfl⟩
  rw [hin]
  exact receiveFrame_wireFrames (hmax ▸ hfits) _

end Turn

/-- After `m` requests, whatever is unread answers one of them. -/
structure Conversation.Behind {σ : Type} (c : Conversation σ) (m : Nat) : Prop where
  next : c.client.nextRequestId = UInt64.ofNat (m + 1)
  unread : ∃ frames, c.unread = wireFrames frames ∧
    ∀ f ∈ frames, f.payload.length ≤ c.client.maxPayload.toNat ∧
      (f.type = .failure ∨ f.requestId.toNat ≤ m)

namespace Turn

variable {σ : Type} {handler : Handler σ} {t : Turn σ} {m : Nat}

/-- What the client finds on the connection: frames for earlier requests, then the answer to this
one. -/
theorem incoming_eq (h : t.before.Behind m)
    (hsent : ∀ f ∈ (t.service handler).sent, f.payload.length ≤ t.before.client.maxPayload.toNat) :
    ∃ old, (t.exchange handler).incoming = wireFrames (old ++ (t.service handler).sent) ∧
      (∀ f ∈ old, f.type = .failure ∨ f.requestId.toNat ≤ m) ∧
      ∀ f ∈ old ++ (t.service handler).sent, f.payload.length ≤ t.before.client.maxPayload.toNat := by
  obtain ⟨old, hold, hall⟩ := h.unread
  refine ⟨old, ?_, fun f hf => (hall f hf).2, ?_⟩
  · rw [wireFrames_append, ← hold]
    rfl
  · intro f hf
    rcases List.mem_append.mp hf with hf | hf
    · exact (hall f hf).1
    · exact hsent f hf

/-- **One request**: when it succeeds, what it returns is the answer to it. -/
theorem answer_of_outcome (h : t.before.Behind m) (hm : m + 1 < 2 ^ 64)
    (hsent : ∀ f ∈ (t.service handler).sent, f.payload.length ≤ t.before.client.maxPayload.toNat)
    {reply : Frame} (hreply : (t.exchange handler).outcome = .ok reply) :
    (t.service handler).dispatched = [t.request.received] ∧ reply = t.answer handler := by
  obtain ⟨old, hwire, hold, hfits⟩ := incoming_eq h hsent
  obtain ⟨hhead, hid, htype, -⟩ := Exchange.outcome_wireFrames hwire hfits hreply
  have hnumber : reply.requestId.toNat = m + 1 := by
    have hnext : reply.requestId = UInt64.ofNat (m + 1) := hid.trans h.next
    rw [hnext, UInt64.toNat_ofNat', Nat.mod_eq_of_lt hm]
  cases old with
  | cons f old =>
    obtain rfl : f = reply := Option.some.inj hhead
    rcases hold f List.mem_cons_self with hf | hf
    · exact absurd hf htype
    · omega
  | nil =>
    have hmem : reply ∈ (t.service handler).sent := List.mem_of_mem_head? hhead
    rcases mem_sent hmem with hf | hf
    · exact absurd hf.1 htype
    · exact hf

theorem after_closed (h : t.before.Behind m) (hclosed : t.before.client.closed = true) :
    (t.after handler).Behind m := by
  have hreach : ¬ t.Reaches := fun hr => absurd (hclosed.symm.trans hr.1) (by simp)
  have hin : (t.exchange handler).incoming = t.before.unread := by
    rw [exchange, service_of_not_reaches hreach]
    exact List.append_nil _
  have hunread : (t.after handler).unread = t.before.unread := by
    rw [after, hin]
    exact (Client.request_of_not_awaits fun ha => absurd (hclosed.symm.trans ha.1) (by simp)).2
  have hclient : (t.after handler).client = t.before.client := Client.request_closed hclosed
  constructor
  · rw [hclient]
    exact h.next
  · rw [hunread, hclient]
    exact h.unread

theorem after_open (h : t.before.Behind m) (hm : m + 1 < 2 ^ 64)
    (hsent : ∀ f ∈ (t.service handler).sent, f.payload.length ≤ t.before.client.maxPayload.toNat)
    (hopen : t.before.client.closed = false) : (t.after handler).Behind (m + 1) := by
  obtain ⟨old, hwire, hold, hfits⟩ := incoming_eq h hsent
  obtain ⟨left, hleft, hrest⟩ := Client.unread_wireFrames t.call hfits
  have hclient : (t.after handler).client =
      { t.before.client with nextRequestId := t.before.client.nextRequestId + 1 } :=
    Client.request_open hopen
  constructor
  · rw [hclient, UInt64.ofNat_add (m + 1) 1, ← h.next]
    rfl
  · refine ⟨left, ?_, fun f hf => ⟨?_, ?_⟩⟩
    · rw [← hrest, ← hwire]
      rfl
    · rw [hclient]
      exact hfits f (hleft.subset hf)
    · rcases List.mem_append.mp (hleft.subset hf) with hf | hf
      · rcases hold f hf with hf | hf
        · exact .inl hf
        · exact .inr (by omega)
      · rcases mem_sent hf with hf | hf
        · exact .inl hf.1
        · right
          have hid : f.requestId = UInt64.ofNat (m + 1) := by
            rw [hf.2, ← h.next]
            rfl
          rw [hid, UInt64.toNat_ofNat', Nat.mod_eq_of_lt hm]

end Turn

/-- **A whole conversation**: as long as the numbers do not come round, every success is the answer to
its own request. -/
theorem Conversation.answers_of_behind {σ : Type} {handler : Handler σ} {c : Conversation σ} {m : Nat}
    {actions : List TurnAction} (h : c.Behind m)
    (hcount : m + (requestNumbers ((c.turns handler actions).map (Turn.exchange handler))).length
      < 2 ^ 64)
    (hsent : ∀ t ∈ c.turns handler actions, ∀ f ∈ (t.service handler).sent,
      f.payload.length ≤ t.before.client.maxPayload.toNat) :
    ∀ t ∈ c.turns handler actions, ∀ reply, (t.exchange handler).outcome = .ok reply →
      (t.service handler).dispatched = [t.request.received] ∧ reply = t.answer handler := by
  induction actions generalizing c m with
  | nil =>
    intro t ht
    exact absurd ht (by simp [turns])
  | cons action actions ih =>
    cases action with
    | close => exact @ih { c with client := c.client.close } m ⟨h.next, h.unread⟩ hcount hsent
    | request call delivered =>
      have hfirst := hsent ⟨c, call, delivered⟩ List.mem_cons_self
      have hlater := fun t ht => hsent t (List.mem_cons_of_mem _ ht)
      intro t ht reply hreply
      cases hclosed : c.client.closed with
      | true =>
        rw [turns, List.map_cons, requestNumbers_cons_closed hclosed] at hcount
        rcases List.mem_cons.mp ht with rfl | ht
        · exact absurd (hclosed.symm.trans (Exchange.outcome_eq_ok.mp hreply).1.1) (by simp)
        · exact ih (Turn.after_closed h hclosed) hcount hlater t ht reply hreply
      | false =>
        rw [turns, List.map_cons, requestNumbers_cons_open hclosed, List.length_cons] at hcount
        rcases List.mem_cons.mp ht with rfl | ht
        · exact Turn.answer_of_outcome h (by omega) hfirst hreply
        · exact ih (Turn.after_open h (by omega) hfirst hclosed) (by omega) hlater t ht reply hreply

/-- **A reply is not taken for the answer to another question**, as long as a connection carries at
most `2 ^ 64` requests, its greeting included.  On any stream of frames that the client can read, a
success is one of those frames and bears the number of its request, and no two requests have the same
number.  Against a server, a success is what the server answered when it dispatched that request. -/
theorem answers_match (limits : Limits) :
    (∀ (actions : List ClientAction) (frames : List Frame),
      (∀ f ∈ frames, f.payload.length ≤ limits.maxFramePayloadBytes.toNat) →
      (requestNumbers (({ limits := limits } : Client).exchanges actions (wireFrames frames))).length
        < 2 ^ 64 →
      (∀ x ∈ ({ limits := limits } : Client).exchanges actions (wireFrames frames), ∀ reply,
        x.outcome = .ok reply → reply.requestId = x.client.nextRequestId ∧ reply ∈ frames) ∧
      (greetingId ::
        requestNumbers (({ limits := limits } : Client).exchanges actions (wireFrames frames))).Nodup) ∧
    (∀ (σ : Type) (handler : Handler σ) (state : σ) (actions : List TurnAction),
      (requestNumbers ((Conversation.turns handler ⟨{ limits := limits }, state, false, []⟩ actions).map
        (Turn.exchange handler))).length < 2 ^ 64 →
      (∀ t ∈ Conversation.turns handler ⟨{ limits := limits }, state, false, []⟩ actions,
        ∀ f ∈ (t.service handler).sent, f.payload.length ≤ t.before.client.maxPayload.toNat) →
      ∀ t ∈ Conversation.turns handler ⟨{ limits := limits }, state, false, []⟩ actions, ∀ reply,
        (t.exchange handler).outcome = .ok reply →
          (t.service handler).dispatched = [t.request.received] ∧ reply = t.answer handler) := by
  constructor
  · intro actions frames hfits hcount
    refine ⟨?_, requestNumbers_nodup hcount⟩
    intro x hx reply hreply
    obtain ⟨hlimits, left, hleft, hin⟩ :=
      @exchanges_wireFrames { limits := limits } actions frames hfits x hx
    have hfits' : ∀ f ∈ left, f.payload.length ≤ x.client.maxPayload.toNat := by
      intro f hf
      rw [Client.maxPayload, hlimits]
      exact hfits f (hleft.subset hf)
    obtain ⟨hhead, hid, -, -⟩ := Exchange.outcome_wireFrames hin hfits' hreply
    exact ⟨hid, hleft.subset (List.mem_of_mem_head? hhead)⟩
  · intro σ handler state actions hcount hsent
    have hnew : @Conversation.Behind σ ⟨{ limits := limits }, state, false, []⟩ 0 :=
      ⟨rfl, [], rfl, by simp⟩
    exact Conversation.answers_of_behind hnew (by rwa [Nat.zero_add]) hsent

/-- A server that answers every request with its own payload. -/
def echoHandler : Handler Unit where
  allowShutdown := false
  dispatch _ request := ((), .statsAck, request.payload)
  acknowledges _ _ := by simp

/-- The first request of a connection to it. -/
def echoTurn : Turn Unit := ⟨⟨{}, (), false, []⟩, { type := .stats }, true⟩

theorem reaches_echoTurn : echoTurn.Reaches := ⟨rfl, Nat.zero_le _, rfl, rfl⟩

theorem sent_echoTurn : (echoTurn.service echoHandler).sent = [⟨.statsAck, 1, []⟩] :=
  (Turn.service_of_reaches reaches_echoTurn (Nat.zero_le _)).2.trans rfl

theorem outcome_echoTurn : (echoTurn.exchange echoHandler).outcome = .ok ⟨.statsAck, 1, []⟩ :=
  Turn.outcome_of_reaches reaches_echoTurn rfl rfl rfl (Nat.zero_le _) (by decide)

theorem answers_match_echo :
    (greetingId :: requestNumbers (({} : Client).exchanges [.request { type := .stats }]
      (wireFrames [⟨.statsAck, 1, []⟩]))).Nodup ∧
    (echoTurn.service echoHandler).dispatched = [echoTurn.request.received] ∧
      (⟨.statsAck, 1, []⟩ : Frame) = echoTurn.answer echoHandler := by
  refine ⟨((answers_match {}).1 [.request { type := .stats }] [⟨.statsAck, 1, []⟩] ?_ ?_).2,
    (answers_match {}).2 Unit echoHandler () [.request { type := .stats } true] ?_ ?_ echoTurn
      List.mem_cons_self ⟨.statsAck, 1, []⟩ outcome_echoTurn⟩
  · simp
  · rw [Client.exchanges, requestNumbers_cons_open rfl, Client.exchanges]
    decide
  · rw [Conversation.turns, List.map_cons, requestNumbers_cons_open rfl, Conversation.turns]
    decide
  · intro t ht f hf
    rw [Conversation.turns, Conversation.turns, List.mem_singleton] at ht
    obtain rfl : t = echoTurn := ht
    rw [sent_echoTurn, List.mem_singleton] at hf
    rw [hf]
    exact Nat.zero_le _

/-! ### A run in which the numbers come round -/

/-- A client that waits for a reply to every request reads one frame for each. -/
theorem exchanges_replicate {call : Call} (hopen : client.closed = false)
    (hcall : call.payload.length ≤ client.maxPayload.toNat) (hsent : call.sent = .ok ())
    (hf : f.payload.length ≤ client.maxPayload.toNat) (n : Nat) :
    client.exchanges (List.replicate n (.request call)) (wireFrames (List.replicate n f)) =
      (List.range n).map fun k =>
        ⟨{ client with nextRequestId := client.nextRequestId + UInt64.ofNat k }, call,
          wireFrames (List.replicate (n - k) f)⟩ := by
  induction n generalizing client with
  | zero => rfl
  | succ n ih =>
    have hawaits : Exchange.Awaits ⟨client, call, wireFrames (List.replicate (n + 1) f)⟩ :=
      ⟨hopen, hcall, hsent⟩
    have hrest : (client.request call (wireFrames (List.replicate (n + 1) f))).2.2 =
        wireFrames (List.replicate n f) := by
      rw [Client.request_of_awaits hawaits, List.replicate_succ, receiveFrame_wireFrames hf]
      rfl
    rw [List.replicate_succ, Client.exchanges, hrest, Client.request_open hopen,
      List.range_succ_eq_map, List.map_cons, List.map_map]
    refine congrArg₂ List.cons ?_ ((@ih { client with nextRequestId := client.nextRequestId + 1 }
      hopen hcall hf).trans (List.map_congr_left fun k _ => ?_))
    · simp
    · rw [Function.comp_apply, Nat.succ_eq_add_one, Nat.add_sub_add_right, Nat.add_comm k 1,
        UInt64.ofNat_add, ← UInt64.add_assoc]
      rfl

/-- A client that asks for statistics again and again, while one and the same reply keeps arriving. -/
def repeatedReply (n : Nat) : List Exchange :=
  ({} : Client).exchanges (List.replicate n (.request { type := .stats }))
    (wireFrames (List.replicate n ⟨.statsAck, 1, []⟩))

theorem repeatedReply_eq {n k : Nat} (h : k < n) :
    (repeatedReply n)[k]? = some ⟨{ nextRequestId := 1 + UInt64.ofNat k }, { type := .stats },
      wireFrames (List.replicate (n - k) ⟨.statsAck, 1, []⟩)⟩ := by
  unfold repeatedReply
  rw [exchanges_replicate rfl (by simp) rfl (by simp), List.getElem?_map, List.getElem?_range h]
  rfl

theorem outcome_repeatedReply {n : Nat} :
    Exchange.outcome ⟨{ nextRequestId := 1 }, { type := .stats },
      wireFrames (List.replicate (n + 1) ⟨.statsAck, 1, []⟩)⟩ = .ok ⟨.statsAck, 1, []⟩ := by
  refine Exchange.outcome_eq_ok.mpr ⟨⟨rfl, by simp, rfl⟩, Frame.received ⟨.statsAck, 1, []⟩,
    wireFrames (List.replicate n ⟨.statsAck, 1, []⟩), ?_, rfl, by decide, rfl⟩
  rw [List.replicate_succ]
  exact receiveFrame_wireFrames (by simp) _

/-- **After `2 ^ 64` requests the numbers come round again**: the request after them has the number of
the first, and a copy of the reply to the first is returned as the reply to it. -/
theorem number_comes_round_again :
    ∃ x y, (repeatedReply (2 ^ 64 + 1))[0]? = some x ∧ (repeatedReply (2 ^ 64 + 1))[2 ^ 64]? = some y ∧
      x.client.nextRequestId = y.client.nextRequestId ∧
      x.outcome = .ok ⟨.statsAck, 1, []⟩ ∧ y.outcome = .ok ⟨.statsAck, 1, []⟩ := by
  have hfirst : (0 : Nat) < 2 ^ 64 + 1 := Nat.succ_pos _
  have hlast : 2 ^ 64 < 2 ^ 64 + 1 := Nat.lt_succ_self _
  have hround : 1 + UInt64.ofNat (2 ^ 64) = 1 := by decide
  refine ⟨_, _, repeatedReply_eq hfirst, repeatedReply_eq hlast, ?_, ?_, ?_⟩
  · rw [hround]
    rfl
  · exact outcome_repeatedReply
  · rw [hround, Nat.add_sub_cancel_left]
    exact outcome_repeatedReply

end CableRegistry
