import CableRegistry.Protocol
import CableRegistry.Snapshot

/-!
# Requests that travel

The client encodes a request, the server decodes the payload of a frame by the type of the frame.
`decodeRequest_payload` says what the server makes of a request: the request itself, or nothing.
An encoder that failed leaves an empty payload, which is no request.
-/

namespace CableRegistry

open Decoder

def ValidationPolicy.raw : ValidationPolicy → UInt8
  | includeAll => 0
  | liveOnly => 1

def ValidationPolicy.ofRaw (raw : UInt8) : ValidationPolicy :=
  if raw == 0 then .includeAll else .liveOnly

def decodePolicy : Decoder ValidationPolicy := do
  let raw ← u8
  guard (raw ≤ ValidationPolicy.liveOnly.raw)
  pure (.ofRaw raw)

def encodeQueryOptions (value : QueryOptions) : List Write :=
  [.u8 value.validationPolicy.raw, .boolean value.includeObjectSides, .boolean value.includeHistory,
    .boolean value.includeEndpointPorts, .id128 value.endpoint.value, .id128 value.object.value]

/-- The policy is checked last. -/
def decodeQueryOptions : Decoder QueryOptions := do
  let policy ← u8
  let includeObjectSides ← boolean
  let includeHistory ← boolean
  let includeEndpointPorts ← boolean
  let endpoint ← strongId
  let object ← strongId
  guard (policy ≤ ValidationPolicy.liveOnly.raw)
  pure ⟨.ofRaw policy, includeObjectSides, includeHistory, includeEndpointPorts, endpoint, object⟩

/-- A request with a payload. -/
inductive Demand where
  | openSession (descriptor : SourceDescriptor) (incarnation : Incarnation)
  | closeSession (key : SourceIncarnationKey)
  | publish (evidence : Evidence)
  | publishBatch (batch : List Evidence)
  | queryPort (port : PortRef) (policy : ValidationPolicy)
  | queryEndpoint (endpoint : EndpointId) (includePorts : Bool) (policy : ValidationPolicy)
  | queryObject (object : ObjectId) (options : QueryOptions)
  | queryHistory (object : ObjectId) (maxEvents : UInt32)
  | inspect (maxEntries : UInt32)

namespace Demand

def type : Demand → MessageType
  | openSession .. => .openSession
  | closeSession _ => .closeSession
  | publish _ => .publish
  | publishBatch _ => .publishBatch
  | queryPort .. => .queryPort
  | queryEndpoint .. => .queryEndpoint
  | queryObject .. => .queryObject
  | queryHistory .. => .queryHistory
  | inspect _ => .inspect

/-- What the client writes. -/
def encode (limits : Limits) : Demand → List Write
  | openSession descriptor incarnation =>
    encodeSourceDescriptor descriptor limits ++ [.u64 incarnation]
  | closeSession key => [.id128 key.source.value, .u64 key.incarnation]
  | publish evidence => encodeEvidence evidence limits
  | publishBatch batch => encodeList (encodeEvidence · limits) batch
  | queryPort port policy => encodePortRef port ++ [.u8 policy.raw]
  | queryEndpoint endpoint includePorts policy =>
    [.id128 endpoint.value, .boolean includePorts, .u8 policy.raw]
  | queryObject object options => .id128 object.value :: encodeQueryOptions options
  | queryHistory object maxEvents => [.id128 object.value, .u32 maxEvents]
  | inspect maxEntries => [.u32 maxEntries]

/-- What the server reads; the other types carry nothing that it looks at. -/
def decode (limits : Limits) : MessageType → Decoder Demand
  | .openSession => do
    let descriptor ← decodeSourceDescriptor limits
    let incarnation ← u64
    pure (openSession descriptor incarnation)
  | .closeSession => do
    let source ← strongId
    let incarnation ← u64
    pure (closeSession ⟨source, incarnation⟩)
  | .publish => publish <$> decodeEvidence limits
  | .publishBatch => publishBatch <$> decodeVector limits.maxEvidenceBatch (decodeEvidence limits)
  | .queryPort => do
    let port ← decodePortRef
    let policy ← decodePolicy
    pure (queryPort port policy)
  | .queryEndpoint => do
    let endpoint ← strongId
    let includePorts ← boolean
    let policy ← decodePolicy
    pure (queryEndpoint endpoint includePorts policy)
  | .queryObject => do
    let object ← strongId
    let options ← decodeQueryOptions
    pure (queryObject object options)
  | .queryHistory => do
    let object ← strongId
    let maxEvents ← u32
    pure (queryHistory object maxEvents)
  | .inspect => do
    let maxEntries ← u32
    pure (inspect maxEntries)
  | _ => failure

/-- What the decoder of the request checks. -/
def Readable (limits : Limits) : Demand → Prop
  | openSession descriptor _ =>
    descriptor.authority.authorityClass.declared ∧ descriptor.id.isNil = false
  | publish evidence => evidence.Readable limits
  | publishBatch batch =>
    batch.length ≤ limits.maxEvidenceBatch.toNat ∧ ∀ evidence ∈ batch, evidence.Readable limits
  | _ => True

end Demand

/-- The request in the payload of a frame. -/
def decodeRequest (limits : Limits) (type : MessageType) (data : List UInt8) : Option Demand :=
  whole (Demand.decode limits type) data

/-! ### Reading back -/

theorem ValidationPolicy.ofRaw_raw (policy : ValidationPolicy) :
    ofRaw policy.raw = policy ∧ policy.raw ≤ liveOnly.raw := by
  cases policy <;> decide

theorem carries_policy (policy : ValidationPolicy) :
    Carries decodePolicy [.u8 policy.raw] policy True :=
  .u8 <| .pass policy.ofRaw_raw.2 <| .pureEq policy.ofRaw_raw.1

theorem carries_queryOptions (options : QueryOptions) :
    Carries decodeQueryOptions (encodeQueryOptions options) options True := by
  obtain ⟨hraw, hle⟩ := options.validationPolicy.ofRaw_raw
  exact .u8 <| .boolean <| .boolean <| .boolean <| .strongId <| .strongId <| .pass hle <|
    .pureEq (by rw [hraw])

theorem carries_demand (limits : Limits) (demand : Demand) :
    Carries (Demand.decode limits demand.type) (demand.encode limits) demand
      (demand.Readable limits) := by
  cases demand with
  | openSession descriptor _ =>
    exact .congr (.bind (carries_sourceDescriptor descriptor limits) fun _ => .u64 <| .pure _)
      (by rw [and_true]; rfl)
  | closeSession _ => exact .strongId <| .u64 <| .pure _
  | publish evidence => exact .map (carries_evidence evidence limits)
  | publishBatch batch =>
    have hne : ∀ e, encodeEvidence e limits ≠ [] := by simp [encodeEvidence]
    exact .map (.vector limits.maxEvidenceBatch batch (·.count hne) fun e _ =>
      carries_evidence e limits)
  | queryPort port policy =>
    exact .andThen (carries_portRef port) <| .thenPure (carries_policy policy) rfl
  | queryEndpoint _ _ policy =>
    exact .strongId <| .boolean <| .thenPure (carries_policy policy) rfl
  | queryObject _ options => exact .strongId <| .thenPure (carries_queryOptions options) rfl
  | queryHistory _ _ => exact .strongId <| .u32 <| .pure _
  | inspect _ => exact .u32 <| .pure _

/-- **A request is read as it was made, or not at all.** -/
theorem decodeRequest_payload (limits : Limits) (demand read : Demand) :
    decodeRequest limits demand.type (Encoder.run (demand.encode limits)).take = some read ↔
      read = demand ∧ (Encoder.run (demand.encode limits)).ok = true ∧ demand.Readable limits := by
  by_cases hok : (Encoder.run (demand.encode limits)).ok = true
  · have hreads := carries_demand limits demand (Encoder.encodes hok)
    rw [Encoder.take_run _ hok, decodeRequest]
    by_cases hr : demand.Readable limits
    · rw [(whole_eq_some_iff hreads).mpr hr, Option.some.injEq]
      exact ⟨fun h => ⟨h.symm, hok, hr⟩, fun h => h.1.symm⟩
    · simp [whole_eq_none hreads hr, hr]
  · -- The encoder failed, and every decoder reads at least one field.
    have hnone : decodeRequest limits demand.type [] = none := by
      cases demand <;> rfl
    have hempty : (Encoder.run (demand.encode limits)).take = [] := by
      rw [Encoder.take, if_pos (by simpa [Encoder.ok] using hok)]
    simp [hempty, hnone, hok]

end CableRegistry
