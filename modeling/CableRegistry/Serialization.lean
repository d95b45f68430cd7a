import CableRegistry.Codec
import CableRegistry.Evidence

/-!
# Encoding of domain values

The canonical encoding of descriptors, capabilities and evidence records, and
its decoder.  Every decoder checks what it reads: enumerations against their
last enumerator, counts and strings against the limits, identities against nil.

For each pair there is a lemma `carries_…`: what the decoder makes of the encoding
of a value, and under exactly which condition it accepts it.
-/

namespace CableRegistry

open Decoder

/-- Reads a count that is at most `maxCount` and that many elements. -/
def decodeVector {α : Type} (maxCount : UInt32) (element : Decoder α) : Decoder (List α) := do
  let count ← u32
  guard (count ≤ maxCount)
  Reader.times count.toNat element

def encodeAuthority (value : Authority) : List Write :=
  [.u8 value.authorityClass.raw, .u32 value.rank]

def decodeAuthority : Decoder Authority := do
  let authorityClass ← u8
  let rank ← u32
  guard (AuthorityClass.mk authorityClass).declared
  pure ⟨⟨authorityClass⟩, rank⟩

def encodeSideDescriptor (value : ObjectSideDescriptor) : List Write :=
  [.u8 value.connector.raw, .u8 value.media.raw, .u16 value.lanes]

def decodeSideDescriptor : Decoder ObjectSideDescriptor := do
  let connector ← u8
  let media ← u8
  let lanes ← u16
  guard ((ConnectorClass.mk connector).declared ∧ (MediaClass.mk media).declared)
  pure ⟨⟨connector⟩, ⟨media⟩, lanes⟩

def encodeObjectSideRef (value : ObjectSideRef) : List Write :=
  [.id128 value.object.value, .u32 value.side]

def decodeObjectSideRef : Decoder ObjectSideRef := do
  let object ← strongId
  let side ← u32
  pure ⟨object, side⟩

def encodePortRef (value : PortRef) : List Write :=
  [.id128 value.endpoint.value, .u32 value.index]

def decodePortRef : Decoder PortRef := do
  let endpoint ← strongId
  let index ← u32
  pure ⟨endpoint, index⟩

def encodeSourceDescriptor (value : SourceDescriptor) (limits : Limits) : List Write :=
  [.id128 value.id.value, .string value.name limits.maxStringBytes]
    ++ encodeAuthority value.authority
    ++ [.string value.administrativeDomain limits.maxStringBytes]

def decodeSourceDescriptor (limits : Limits) : Decoder SourceDescriptor := do
  let id ← strongId
  let name ← string limits.maxStringBytes
  let authority ← decodeAuthority
  let administrativeDomain ← string limits.maxStringBytes
  guard (id.isNil = false)
  pure ⟨id, name, authority, administrativeDomain⟩

def encodeCapability (value : NominalCapability) (limits : Limits) : List Write :=
  [.u8 value.media.raw, .u8 value.connector.raw, .u16 value.lanes, .u64 value.nominalLaneRateKbps,
    .u64 value.nominalTotalKbps, .u64 value.nominalReachMm, .boolean value.reachDeclared,
    .string value.capabilityCode limits.maxCapabilityCodeBytes]

def decodeCapability (limits : Limits) : Decoder NominalCapability := do
  let media ← u8
  let connector ← u8
  let lanes ← u16
  let nominalLaneRateKbps ← u64
  let nominalTotalKbps ← u64
  let nominalReachMm ← u64
  let reachDeclared ← boolean
  let capabilityCode ← string limits.maxCapabilityCodeBytes
  guard ((MediaClass.mk media).declared ∧ (ConnectorClass.mk connector).declared)
  pure ⟨⟨media⟩, ⟨connector⟩, lanes, nominalLaneRateKbps, nominalTotalKbps, nominalReachMm,
    reachDeclared, capabilityCode⟩

def encodePortCapability (value : PortCapability) : List Write :=
  [.u32 value.maxSimultaneousAttachments, .u8 value.acceptedConnector.raw,
    .u8 value.acceptedMedia.raw, .u16 value.laneCapacity]

def decodePortCapability (limits : Limits) : Decoder PortCapability := do
  let maxSimultaneousAttachments ← u32
  let connector ← u8
  let media ← u8
  let laneCapacity ← u16
  guard (maxSimultaneousAttachments ≠ 0 ∧
    maxSimultaneousAttachments ≤ limits.maxPortSimultaneousAttachments)
  guard ((ConnectorClass.mk connector).declared ∧ (MediaClass.mk media).declared)
  pure ⟨maxSimultaneousAttachments, ⟨connector⟩, ⟨media⟩, laneCapacity⟩

def encodeObjectDescriptor (value : ObjectDescriptor) (limits : Limits) : List Write :=
  [.id128 value.id.value, .u8 value.kind.raw, .string value.physicalLabel limits.maxStringBytes,
    .string value.serialLike limits.maxStringBytes,
    .string value.administrativeLocation limits.maxStringBytes,
    .u32 (UInt32.ofNat value.sides.length)]
    ++ value.sides.flatMap encodeSideDescriptor
    ++ encodeCapability value.capability limits

def decodeObjectDescriptor (limits : Limits) : Decoder ObjectDescriptor := do
  let id ← strongId
  let kind ← u8
  let physicalLabel ← string limits.maxStringBytes
  let serialLike ← string limits.maxStringBytes
  let administrativeLocation ← string limits.maxStringBytes
  guard ((ObjectKind.mk kind).declared ∧ id.isNil = false)
  let sides ← decodeVector limits.maxSidesPerObject decodeSideDescriptor
  guard (sides ≠ [])
  let capability ← decodeCapability limits
  pure ⟨id, ⟨kind⟩, physicalLabel, serialLike, administrativeLocation, sides, capability⟩

def encodeEndpointDescriptor (value : EndpointDescriptor) (limits : Limits) : List Write :=
  [.id128 value.id.value, .u8 value.kind.raw, .string value.name limits.maxStringBytes,
    .string value.administrativeLocation limits.maxStringBytes, .u32 value.portCount]
    ++ encodePortCapability value.defaultPortCapability

def decodeEndpointDescriptor (limits : Limits) : Decoder EndpointDescriptor := do
  let id ← strongId
  let kind ← u8
  let name ← string limits.maxStringBytes
  let administrativeLocation ← string limits.maxStringBytes
  let portCount ← u32
  guard ((EndpointKind.mk kind).declared ∧ id.isNil = false ∧ portCount ≠ 0 ∧
    portCount ≤ limits.maxPortsPerEndpoint)
  let defaultPortCapability ← decodePortCapability limits
  pure ⟨id, ⟨kind⟩, name, administrativeLocation, portCount, defaultPortCapability⟩

/-! ### What the descriptor decoders accept -/

def ObjectSideDescriptor.declared (d : ObjectSideDescriptor) : Bool :=
  d.connector.declared && d.media.declared

def NominalCapability.declared (c : NominalCapability) : Bool :=
  c.media.declared && c.connector.declared

def PortCapability.declared (c : PortCapability) : Bool :=
  c.acceptedConnector.declared && c.acceptedMedia.declared

/-- The declared count of simultaneous attachments is within the limit. -/
def PortCapability.InRange (c : PortCapability) (limits : Limits) : Prop :=
  c.maxSimultaneousAttachments ≠ 0 ∧
    c.maxSimultaneousAttachments ≤ limits.maxPortSimultaneousAttachments

structure ObjectDescriptor.Readable (d : ObjectDescriptor) (limits : Limits) : Prop where
  kind : d.kind.declared
  notNil : d.id.isNil = false
  sidesCount : d.sides.length ≤ limits.maxSidesPerObject.toNat
  sides : ∀ side ∈ d.sides, side.declared
  sidesNonempty : d.sides ≠ []
  capability : d.capability.declared

structure EndpointDescriptor.Readable (d : EndpointDescriptor) (limits : Limits) : Prop where
  kind : d.kind.declared
  notNil : d.id.isNil = false
  portCount : d.portCount ≠ 0 ∧ d.portCount ≤ limits.maxPortsPerEndpoint
  inRange : d.defaultPortCapability.InRange limits
  declared : d.defaultPortCapability.declared

/-- **A list is read element by element.** -/
theorem Carries.vector_map {α β : Type} {element : Decoder β} {enc : α → List Write} {f : α → β}
    {good : α → Prop} (maxCount : UInt32) (l : List α)
    (hl : Encodes (l.flatMap enc) → l.length < 2 ^ 32)
    (h : ∀ x ∈ l, Carries element (enc x) (f x) (good x)) :
    Carries (decodeVector maxCount element) (.u32 (UInt32.ofNat l.length) :: l.flatMap enc) (l.map f)
      (l.length ≤ maxCount.toNat ∧ ∀ x ∈ l, good x) := by
  intro hws
  have hlist : Encodes (l.flatMap enc) := @Encodes.right [_] _ hws
  have hlen : (UInt32.ofNat l.length).toNat = l.length := by
    rw [UInt32.toNat_ofNat']
    exact Nat.mod_eq_of_lt (hl hlist)
  have ht : Carries (Reader.times (UInt32.ofNat l.length).toNat element) (l.flatMap enc) (l.map f)
      (∀ x ∈ l, good x) := by
    intro _
    rw [hlen, wire_flatMap]
    exact Reads.times_map l fun x hx => h x hx (hlist.element hx)
  refine Carries.congr (.u32 <| .check fun _ => ht) ?_ hws
  rw [UInt32.le_iff_toNat_le, hlen]

theorem Carries.vector {α : Type} {element : Decoder α} {enc : α → List Write} {good : α → Prop}
    (maxCount : UInt32) (l : List α)
    (hl : Encodes (l.flatMap enc) → l.length < 2 ^ 32)
    (h : ∀ x ∈ l, Carries element (enc x) x (good x)) :
    Carries (decodeVector maxCount element) (.u32 (UInt32.ofNat l.length) :: l.flatMap enc) l
      (l.length ≤ maxCount.toNat ∧ ∀ x ∈ l, good x) := by
  have hmap := Carries.vector_map (f := id) maxCount l hl h
  rwa [List.map_id] at hmap

theorem carries_authority (v : Authority) :
    Carries decodeAuthority (encodeAuthority v) v v.authorityClass.declared :=
  .congr (.u8 <| .u32 <| .check fun _ => .pure v) (by rw [and_true])

theorem carries_sideDescriptor (v : ObjectSideDescriptor) :
    Carries decodeSideDescriptor (encodeSideDescriptor v) v v.declared :=
  .congr (.u8 <| .u8 <| .u16 <| .check fun _ => .pure v) (by simp [ObjectSideDescriptor.declared])

theorem carries_objectSideRef (v : ObjectSideRef) :
    Carries decodeObjectSideRef (encodeObjectSideRef v) v True :=
  .strongId <| .u32 <| .pure v

theorem carries_portRef (v : PortRef) : Carries decodePortRef (encodePortRef v) v True :=
  .strongId <| .u32 <| .pure v

theorem carries_sourceDescriptor (v : SourceDescriptor) (limits : Limits) :
    Carries (decodeSourceDescriptor limits) (encodeSourceDescriptor v limits) v
      (v.authority.authorityClass.declared ∧ v.id.isNil = false) := by
  simp only [encodeSourceDescriptor, List.cons_append, List.nil_append]
  exact .congr (.strongId <| .text <| .bind (carries_authority _) fun _ => .text <|
    .check fun _ => .pure v) (by simp)

theorem carries_capability (v : NominalCapability) (limits : Limits) :
    Carries (decodeCapability limits) (encodeCapability v limits) v v.declared :=
  .congr (.u8 <| .u8 <| .u16 <| .u64 <| .u64 <| .u64 <| .boolean <| .text <|
    .check fun _ => .pure v) (by simp [NominalCapability.declared])

theorem carries_portCapability (v : PortCapability) (limits : Limits) :
    Carries (decodePortCapability limits) (encodePortCapability v) v
      (v.InRange limits ∧ v.declared) :=
  .congr (.u32 <| .u8 <| .u8 <| .u16 <| .check fun _ => .check fun _ => .pure v)
    (by simp [PortCapability.declared, PortCapability.InRange])

theorem carries_objectDescriptor (v : ObjectDescriptor) (limits : Limits) :
    Carries (decodeObjectDescriptor limits) (encodeObjectDescriptor v limits) v
      (v.Readable limits) := by
  simp only [encodeObjectDescriptor, List.cons_append, List.nil_append]
  rw [← List.cons_append]
  refine .congr (.strongId <| .u8 <| .text <| .text <| .text <| .check fun _ =>
    .bind (.vector _ _ (·.count (by simp [encodeSideDescriptor])) fun side _ =>
      carries_sideDescriptor side) fun _ =>
    .check fun _ => .thenPure (carries_capability _ _) rfl) ?_
  constructor
  · rintro ⟨⟨hKind, hNil⟩, ⟨hCount, hDeclared⟩, hNonempty, hCap⟩
    exact ⟨hKind, hNil, hCount, hDeclared, hNonempty, hCap⟩
  · intro hr
    exact ⟨⟨hr.kind, hr.notNil⟩, ⟨hr.sidesCount, hr.sides⟩, hr.sidesNonempty, hr.capability⟩

theorem carries_endpointDescriptor (v : EndpointDescriptor) (limits : Limits) :
    Carries (decodeEndpointDescriptor limits) (encodeEndpointDescriptor v limits) v
      (v.Readable limits) := by
  refine .congr (.strongId <| .u8 <| .text <| .text <| .u32 <| .check fun _ =>
    .thenPure (carries_portCapability _ limits) rfl) ?_
  constructor
  · rintro ⟨⟨hKind, hNil, hZero, hCount⟩, hRange, hDeclared⟩
    exact ⟨hKind, hNil, ⟨hZero, hCount⟩, hRange, hDeclared⟩
  · intro hr
    exact ⟨⟨hr.kind, hr.notNil, hr.portCount.1, hr.portCount.2⟩, hr.inRange, hr.declared⟩

/-! ### Evidence -/

def encodePayload (payload : EvidencePayload) (limits : Limits) : List Write :=
  match payload with
  | .registerObject p => encodeObjectDescriptor p.descriptor limits
  | .registerEndpoint p => encodeEndpointDescriptor p.descriptor limits
  | .attach p =>
    encodeObjectSideRef p.subject ++ encodePortRef p.port ++ [.u64 p.objectIncarnation, .u32 p.slot]
  | .detach p =>
    encodeObjectSideRef p.subject ++ [.u64 p.objectIncarnation, .boolean p.hasFromPort]
      ++ encodePortRef p.fromPort ++ [.u32 p.slot]
  | .move p =>
    encodeObjectSideRef p.subject ++ [.u64 p.objectIncarnation] ++ encodePortRef p.fromPort
      ++ encodePortRef p.toPort ++ [.u32 p.fromSlot, .u32 p.toSlot]
  | .publishObjectCapability p => [.id128 p.object.value] ++ encodeCapability p.capability limits
  | .publishPortCapability p => encodePortRef p.port ++ encodePortCapability p.capability
  | .setLifecycle p =>
    [.id128 p.object.value, .u64 p.objectIncarnation, .u8 p.action.raw,
      .string p.reason limits.maxStringBytes]
  | .reincarnateObject p =>
    [.id128 p.object.value, .u64 p.fromIncarnation, .string p.newSerialLike limits.maxStringBytes,
      .string p.reason limits.maxStringBytes]

def encodeEvidence (value : Evidence) (limits : Limits) : List Write :=
  [.id128 value.header.id.value, .id128 value.header.source.value, .u64 value.header.incarnation,
    .u64 value.header.generation, .i64 value.header.observedAt, .u8 value.header.provenance.raw,
    .string value.header.provenanceDetail limits.maxStringBytes, .u32 value.header.schemaVersion,
    .u16 value.kindOf.raw]
    ++ encodePayload value.payload limits

def decodePayload (kind : EvidenceKind) (limits : Limits) : Decoder EvidencePayload :=
  match kind with
  | .registerObject => do
    let descriptor ← decodeObjectDescriptor limits
    pure (.registerObject ⟨descriptor⟩)
  | .registerEndpoint => do
    let descriptor ← decodeEndpointDescriptor limits
    pure (.registerEndpoint ⟨descriptor⟩)
  | .attach => do
    let subject ← decodeObjectSideRef
    let port ← decodePortRef
    let objectIncarnation ← u64
    let slot ← u32
    guard (objectIncarnation ≠ 0)
    pure (.attach ⟨subject, port, objectIncarnation, slot⟩)
  | .detach => do
    let subject ← decodeObjectSideRef
    let objectIncarnation ← u64
    let hasFromPort ← boolean
    let fromPort ← decodePortRef
    let slot ← u32
    guard (objectIncarnation ≠ 0)
    pure (.detach ⟨subject, objectIncarnation, hasFromPort, fromPort, slot⟩)
  | .move => do
    let subject ← decodeObjectSideRef
    let objectIncarnation ← u64
    let fromPort ← decodePortRef
    let toPort ← decodePortRef
    let fromSlot ← u32
    let toSlot ← u32
    guard (objectIncarnation ≠ 0)
    pure (.move ⟨subject, objectIncarnation, fromPort, toPort, fromSlot, toSlot⟩)
  | .publishObjectCapability => do
    let object ← strongId
    let capability ← decodeCapability limits
    pure (.publishObjectCapability ⟨object, capability⟩)
  | .publishPortCapability => do
    let port ← decodePortRef
    let capability ← decodePortCapability limits
    pure (.publishPortCapability ⟨port, capability⟩)
  | .setLifecycle => do
    let object ← strongId
    let objectIncarnation ← u64
    let action ← u8
    let reason ← string limits.maxStringBytes
    guard ((LifecycleAction.mk action).declared ∧ objectIncarnation ≠ 0)
    pure (.setLifecycle ⟨object, objectIncarnation, ⟨action⟩, reason⟩)
  | .reincarnateObject => do
    let object ← strongId
    let fromIncarnation ← u64
    let newSerialLike ← string limits.maxStringBytes
    let reason ← string limits.maxStringBytes
    guard (fromIncarnation ≠ 0)
    pure (.reincarnateObject ⟨object, fromIncarnation, newSerialLike, reason⟩)

def decodeEvidence (limits : Limits) : Decoder Evidence := do
  let id ← strongId
  let source ← strongId
  let incarnation ← u64
  let generation ← u64
  let observedAt ← i64
  let provenance ← u8
  let provenanceDetail ← string limits.maxStringBytes
  let schemaVersion ← u32
  guard (ProvenanceClass.mk provenance).declared
  guard (id.isNil = false ∧ source.isNil = false)
  guard (incarnation ≠ 0 ∧ generation ≠ 0)
  guard (schemaVersion = kEvidenceSchemaVersion)
  let kindRaw ← u16
  match EvidenceKind.ofRaw kindRaw with
  | none => failure
  | some kind => do
    let payload ← decodePayload kind limits
    pure ⟨⟨id, source, incarnation, generation, observedAt, ⟨provenance⟩, provenanceDetail,
      schemaVersion⟩, payload⟩

/-! ### What the evidence decoder accepts -/

structure EvidenceHeader.Readable (h : EvidenceHeader) : Prop where
  provenance : h.provenance.declared
  idNotNil : h.id.isNil = false
  sourceNotNil : h.source.isNil = false
  incarnation : h.incarnation ≠ 0
  generation : h.generation ≠ 0
  schemaVersion : h.schemaVersion = kEvidenceSchemaVersion

def EvidencePayload.Readable (limits : Limits) : EvidencePayload → Prop
  | .registerObject p => p.descriptor.Readable limits
  | .registerEndpoint p => p.descriptor.Readable limits
  | .attach p => p.objectIncarnation ≠ 0
  | .detach p => p.objectIncarnation ≠ 0
  | .move p => p.objectIncarnation ≠ 0
  | .publishObjectCapability p => p.capability.declared
  | .publishPortCapability p => p.capability.InRange limits ∧ p.capability.declared
  | .setLifecycle p => p.action.declared ∧ p.objectIncarnation ≠ 0
  | .reincarnateObject p => p.fromIncarnation ≠ 0

structure Evidence.Readable (e : Evidence) (limits : Limits) : Prop where
  header : e.header.Readable
  payload : e.payload.Readable limits

theorem carries_payload (payload : EvidencePayload) (limits : Limits) :
    Carries (decodePayload payload.kindOf limits) (encodePayload payload limits) payload
      (payload.Readable limits) := by
  simp only [encodePayload, List.append_assoc, List.cons_append, List.nil_append]
  cases payload with
  | registerObject p => exact .thenPure (carries_objectDescriptor _ _) rfl
  | registerEndpoint p => exact .thenPure (carries_endpointDescriptor _ _) rfl
  | attach p =>
    exact .congr (.andThen (carries_objectSideRef _) <| .andThen (carries_portRef _) <|
      .u64 <| .u32 <| .check fun _ => .pure _) (by rw [and_true]; rfl)
  | detach p =>
    exact .congr (.andThen (carries_objectSideRef _) <| .u64 <| .boolean <|
      .andThen (carries_portRef _) <| .u32 <| .check fun _ => .pure _) (by rw [and_true]; rfl)
  | move p =>
    exact .congr (.andThen (carries_objectSideRef _) <| .u64 <| .andThen (carries_portRef _) <|
      .andThen (carries_portRef _) <| .u32 <| .u32 <| .check fun _ => .pure _) (by rw [and_true]; rfl)
  | publishObjectCapability p => exact .strongId <| .thenPure (carries_capability _ _) rfl
  | publishPortCapability p =>
    exact .andThen (carries_portRef _) <| .thenPure (carries_portCapability _ limits) rfl
  | setLifecycle p =>
    exact .congr (.strongId <| .u64 <| .u8 <| .text <| .check fun _ => .pure _) (by rw [and_true]; rfl)
  | reincarnateObject p =>
    exact .congr (.strongId <| .u64 <| .text <| .text <| .check fun _ => .pure _)
      (by rw [and_true]; rfl)

/-- **What the decoder makes of an encoded record.** -/
theorem carries_evidence (e : Evidence) (limits : Limits) :
    Carries (decodeEvidence limits) (encodeEvidence e limits) e (e.Readable limits) := by
  have hp := carries_payload e.payload limits
  refine .congr (.strongId <| .strongId <| .u64 <| .u64 <| .i64 <| .u8 <| .text <| .u32 <|
    .check fun _ => .check fun _ => .check fun _ => .check fun _ =>
    .u16 (y := e) (c := e.payload.Readable limits) ?_) ?_
  · rw [EvidenceKind.ofRaw_raw]
    exact .thenPure hp rfl
  · constructor
    · rintro ⟨hProvenance, ⟨hId, hSource⟩, ⟨hIncarnation, hGeneration⟩, hSchema, hBody⟩
      exact ⟨⟨hProvenance, hId, hSource, hIncarnation, hGeneration, hSchema⟩, hBody⟩
    · rintro ⟨⟨hProvenance, hId, hSource, hIncarnation, hGeneration, hSchema⟩, hBody⟩
      exact ⟨hProvenance, ⟨hId, hSource⟩, ⟨hIncarnation, hGeneration⟩, hSchema, hBody⟩

/-! ### Nothing is read of a part -/

section Stability

instance : Stable u8 := by unfold u8 readLe; infer_instance
instance : Stable u16 := by unfold u16 readLe; infer_instance
instance : Stable u32 := by unfold u32 readLe; infer_instance
instance : Stable u64 := by unfold u64 readLe; infer_instance
instance : Stable i64 := by unfold i64; infer_instance
instance : Stable boolean := by unfold boolean; infer_instance
instance : Stable id128 := by unfold id128; infer_instance
instance {tag : IdTag} : Stable (strongId : Decoder (StrongId tag)) := by unfold strongId; infer_instance
instance (maxBytes : UInt32) : Stable (bytes maxBytes) := by unfold bytes; infer_instance
instance (maxBytes : UInt32) : Stable (string maxBytes) := by unfold string; infer_instance

instance {α : Type} (maxCount : UInt32) (element : Decoder α) [Stable element] :
    Stable (decodeVector maxCount element) := by
  unfold decodeVector
  infer_instance

instance : Stable decodeAuthority := by unfold decodeAuthority; infer_instance
instance : Stable decodeSideDescriptor := by unfold decodeSideDescriptor; infer_instance
instance : Stable decodeObjectSideRef := by unfold decodeObjectSideRef; infer_instance
instance : Stable decodePortRef := by unfold decodePortRef; infer_instance

variable (limits : Limits)

instance : Stable (decodeCapability limits) := by unfold decodeCapability; infer_instance
instance : Stable (decodePortCapability limits) := by unfold decodePortCapability; infer_instance
instance : Stable (decodeObjectDescriptor limits) := by unfold decodeObjectDescriptor; infer_instance
instance : Stable (decodeEndpointDescriptor limits) := by unfold decodeEndpointDescriptor; infer_instance

instance (kind : EvidenceKind) : Stable (decodePayload kind limits) := by
  cases kind <;> unfold decodePayload <;> infer_instance

instance : Stable (decodeEvidence limits) := by
  unfold decodeEvidence
  repeat refine @Stable.bind _ _ _ _ _ inferInstance fun _ => ?_
  split <;> infer_instance

end Stability

end CableRegistry
