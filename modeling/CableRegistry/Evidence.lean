import CableRegistry.Vocabulary

/-!
# Evidence records

One evidence record is a header that attributes and orders it and one of nine
payloads.  The registry orders the records of one source incarnation by
generation, never by arrival.
-/

namespace CableRegistry

/-- The kind of fact an evidence record carries. -/
inductive EvidenceKind where
  | registerObject | registerEndpoint | attach | detach | move | publishObjectCapability
  | publishPortCapability | setLifecycle | reincarnateObject
  deriving Repr, DecidableEq

namespace EvidenceKind

/-- The value of the enumerator. -/
def raw : EvidenceKind → UInt16
  | registerObject => 1
  | registerEndpoint => 2
  | attach => 3
  | detach => 4
  | move => 5
  | publishObjectCapability => 6
  | publishPortCapability => 7
  | setLifecycle => 8
  | reincarnateObject => 9

/-- The enumerator of a value, when there is one. -/
def ofRaw : UInt16 → Option EvidenceKind
  | 1 => some registerObject
  | 2 => some registerEndpoint
  | 3 => some attach
  | 4 => some detach
  | 5 => some move
  | 6 => some publishObjectCapability
  | 7 => some publishPortCapability
  | 8 => some setLifecycle
  | 9 => some reincarnateObject
  | _ => none

@[simp] theorem ofRaw_raw (k : EvidenceKind) : ofRaw k.raw = some k := by
  cases k <;> rfl

end EvidenceKind

structure RegisterObjectPayload where
  descriptor : ObjectDescriptor := {}
  deriving Repr, DecidableEq

structure RegisterEndpointPayload where
  descriptor : EndpointDescriptor := {}
  deriving Repr, DecidableEq

/-- "This side of this object is plugged into this port." -/
structure AttachPayload where
  subject : ObjectSideRef := {}
  port : PortRef := {}
  objectIncarnation : ObjectIncarnation := 0
  slot : AttachmentSlot := 0
  deriving Repr, DecidableEq

/-- "This side of this object is not plugged in", and with `hasFromPort` also
"the named slot of that port is empty". -/
structure DetachPayload where
  subject : ObjectSideRef := {}
  objectIncarnation : ObjectIncarnation := 0
  hasFromPort : Bool := false
  fromPort : PortRef := {}
  slot : AttachmentSlot := 0
  deriving Repr, DecidableEq

/-- "This side of this object moved from one port to another." -/
structure MovePayload where
  subject : ObjectSideRef := {}
  objectIncarnation : ObjectIncarnation := 0
  fromPort : PortRef := {}
  toPort : PortRef := {}
  fromSlot : AttachmentSlot := 0
  toSlot : AttachmentSlot := 0
  deriving Repr, DecidableEq

structure PublishObjectCapabilityPayload where
  object : ObjectId := {}
  capability : NominalCapability := {}
  deriving Repr, DecidableEq

structure PublishPortCapabilityPayload where
  port : PortRef := {}
  capability : PortCapability := {}
  deriving Repr, DecidableEq

structure SetLifecyclePayload where
  object : ObjectId := {}
  objectIncarnation : ObjectIncarnation := 0
  action : LifecycleAction := .present
  reason : Text := []
  deriving Repr, DecidableEq

/-- Installs a replacement physical unit under the same asset identity. -/
structure ReincarnateObjectPayload where
  object : ObjectId := {}
  fromIncarnation : ObjectIncarnation := 0
  newSerialLike : Text := []
  reason : Text := []
  deriving Repr, DecidableEq

inductive EvidencePayload where
  | registerObject (payload : RegisterObjectPayload)
  | registerEndpoint (payload : RegisterEndpointPayload)
  | attach (payload : AttachPayload)
  | detach (payload : DetachPayload)
  | move (payload : MovePayload)
  | publishObjectCapability (payload : PublishObjectCapabilityPayload)
  | publishPortCapability (payload : PublishPortCapabilityPayload)
  | setLifecycle (payload : SetLifecyclePayload)
  | reincarnateObject (payload : ReincarnateObjectPayload)
  deriving Repr, DecidableEq

def EvidencePayload.kindOf : EvidencePayload → EvidenceKind
  | .registerObject _ => .registerObject
  | .registerEndpoint _ => .registerEndpoint
  | .attach _ => .attach
  | .detach _ => .detach
  | .move _ => .move
  | .publishObjectCapability _ => .publishObjectCapability
  | .publishPortCapability _ => .publishPortCapability
  | .setLifecycle _ => .setLifecycle
  | .reincarnateObject _ => .reincarnateObject

def kEvidenceSchemaVersion : UInt32 := 1

/-- The attribution and ordering envelope of one evidence record. -/
structure EvidenceHeader where
  id : EvidenceId := {}
  source : SourceId := {}
  incarnation : Incarnation := 0
  generation : Generation := 0
  observedAt : Timestamp := 0
  provenance : ProvenanceClass := .unknown
  provenanceDetail : Text := []
  schemaVersion : UInt32 := kEvidenceSchemaVersion
  deriving Repr, DecidableEq

structure Evidence where
  header : EvidenceHeader := {}
  payload : EvidencePayload
  deriving Repr, DecidableEq

namespace Evidence

def kindOf (e : Evidence) : EvidenceKind := e.payload.kindOf

/-- The source incarnation that published the record. -/
def key (e : Evidence) : SourceIncarnationKey := ⟨e.header.source, e.header.incarnation⟩

end Evidence

/-- What the registry did with one evidence record. -/
inductive IngestDisposition where
  | accepted | acceptedFencedSource | acceptedFencedIncarnation | acceptedPendingReference
  | acceptedPendingIncarnation | acceptedSuperseded | duplicate
  | refusedUnknownSource | refusedLabelConflict | refusedConflict | refusedInvalid
  | refusedCapacity | refusedClosed | refusedPersistence
  deriving Repr, DecidableEq

namespace IngestDisposition

/-- The record was durably stored, whatever its later effect is. -/
def isAccepted : IngestDisposition → Bool
  | accepted | acceptedFencedSource | acceptedFencedIncarnation | acceptedPendingReference
  | acceptedPendingIncarnation | acceptedSuperseded | duplicate => true
  | refusedUnknownSource | refusedLabelConflict | refusedConflict | refusedInvalid
  | refusedCapacity | refusedClosed | refusedPersistence => false

/-- The record contributes to the authoritative graph right now. -/
def isEffective (d : IngestDisposition) : Bool := d == accepted || d == duplicate

end IngestDisposition

/-- The result of one ingest call. -/
structure IngestResult where
  disposition : IngestDisposition := .refusedInvalid
  evidence : EvidenceId := {}
  kind : EvidenceKind := .registerObject
  highWater : Generation := 0
  receivedAt : Timestamp := 0
  detail : String := ""
  deriving Repr, DecidableEq

end CableRegistry
