import CableRegistry.Digest
import CableRegistry.StateImage
import CableRegistry.Views

/-!
# Canonical snapshots

A snapshot is the derived graph without anything that varies with arrival order,
wall clock or registry lifetime: no receive time, no validation state.  Its
canonical encoding sorts every collection.
-/

open Std

namespace CableRegistry

structure SnapshotClaim where
  source : SourceId
  incarnation : Incarnation
  generation : Generation
  evidence : EvidenceId
  observedAt : Timestamp
  provenance : ProvenanceClass
  authority : Authority
  deriving Repr, DecidableEq

structure SnapshotAttachment where
  subject : ObjectSideRef
  port : PortRef
  slot : AttachmentSlot
  objectIncarnation : ObjectIncarnation
  authority : Authority
  connectorCompatible : Bool
  mediaCompatible : Bool
  conflicting : Bool
  claims : List SnapshotClaim
  deriving Repr, DecidableEq

structure SnapshotConflict where
  reason : ConflictReason
  subject : ObjectSideRef
  port : PortRef
  claims : List SnapshotClaim
  deriving Repr, DecidableEq

structure SnapshotPort where
  port : PortRef
  state : PortAttachmentState
  capability : PortCapability
  attachments : List SnapshotAttachment
  conflicts : List SnapshotConflict
  deriving Repr, DecidableEq

structure SnapshotObject where
  id : ObjectId
  kind : ObjectKind
  physicalLabel : Text
  serialLike : Text
  administrativeLocation : Text
  incarnation : ObjectIncarnation
  lifecycle : LifecycleState
  capability : NominalCapability
  sides : List ObjectSideDescriptor
  attachments : List SnapshotAttachment
  deriving Repr, DecidableEq

structure SnapshotEndpoint where
  id : EndpointId
  kind : EndpointKind
  name : Text
  administrativeLocation : Text
  portCount : UInt32
  defaultPortCapability : PortCapability
  deriving Repr, DecidableEq

structure SnapshotFencedSession where
  source : SourceId
  incarnation : Incarnation
  fencedBy : Incarnation
  claims : UInt64
  deriving Repr, DecidableEq

structure SnapshotFencedObject where
  object : ObjectId
  currentIncarnation : ObjectIncarnation
  fencedClaims : UInt64
  deriving Repr, DecidableEq

def kSnapshotFormatVersion : UInt32 := 1

structure TopologySnapshot where
  formatVersion : UInt32 := kSnapshotFormatVersion
  registry : RegistryId
  summary : GraphSummary
  objects : List SnapshotObject
  endpoints : List SnapshotEndpoint
  ports : List SnapshotPort
  fencedSessions : List SnapshotFencedSession
  fencedObjects : List SnapshotFencedObject
  provenanceDigest : Digest256
  deriving DecidableEq

/-! ### Building a snapshot -/

def toSnapshotClaim (claim : ClaimProvenance) : SnapshotClaim :=
  ⟨claim.source, claim.incarnation, claim.generation, claim.evidence, claim.observedAt,
    claim.provenance, claim.authority⟩

def toSnapshotAttachment (edge : AttachmentEdge) : SnapshotAttachment :=
  ⟨edge.subject, edge.port, edge.slot, edge.objectIncarnation, edge.authority,
    edge.connectorCompatible, edge.mediaCompatible, edge.conflicting,
    edge.claims.map toSnapshotClaim⟩

def toSnapshotConflict (note : ConflictNote) : SnapshotConflict :=
  ⟨note.reason, note.subject, note.port, note.claims.map toSnapshotClaim⟩

def objectAttachmentOrder (left right : SnapshotAttachment) : Bool :=
  if left.port ≠ right.port then portLess left.port right.port
  else subjectLess left.subject right.subject

def toSnapshotObject (view : ObjectView) : SnapshotObject where
  id := view.id
  kind := view.kind
  physicalLabel := view.physicalLabel
  serialLike := view.serialLike
  administrativeLocation := view.administrativeLocation
  incarnation := view.incarnation
  lifecycle := view.lifecycle
  capability := view.capability
  sides := view.sides.map (·.descriptor)
  attachments := sortBy objectAttachmentOrder
    (view.sides.flatMap fun side => side.edges.map toSnapshotAttachment)

def toSnapshotPort (view : PortView) : SnapshotPort :=
  ⟨view.port, view.state, view.capability, view.edges.map toSnapshotAttachment,
    view.conflicts.map toSnapshotConflict⟩

def toSnapshotEndpoint (id : EndpointId) (descriptor : EndpointDescriptor) : SnapshotEndpoint :=
  ⟨id, descriptor.kind, descriptor.name, descriptor.administrativeLocation, descriptor.portCount,
    descriptor.defaultPortCapability⟩

def fencedSession (state : RegistryState) (key : SourceIncarnationKey) : SnapshotFencedSession :=
  ⟨key.source, key.incarnation,
    ((state.sources[key.source]?).map (·.currentIncarnation)).getD 0, countSessionClaims state key⟩

def buildSnapshot (state : RegistryState) (limits : Limits) : TopologySnapshot :=
  let objects := state.objectRegistrations.toList.map fun entry =>
    deriveObjectView state limits entry.1 {}
  let ports := state.portRecords.toList.map fun entry =>
    derivePortView state limits entry.1 .includeAll
  { registry := state.id
    -- A validation counter depends on this registry lifetime, so it is zeroed.
    summary := { summarize ports objects (countFencedClaims state) (countPendingClaims state) with
      edgesUnvalidated := 0 }
    objects := objects.map toSnapshotObject
    endpoints := state.endpointRegistrations.toList.filterMap fun entry =>
      (winningEndpoint state entry.1).map fun registration =>
        toSnapshotEndpoint entry.1 registration.value
    ports := ports.map toSnapshotPort
    fencedSessions := (state.sessions.toList.filter fun entry => sessionIsFenced state entry.1).map
      fun entry => fencedSession state entry.1
    fencedObjects := ((fencedClaimsByObject state).toList.filter (·.2 != 0)).map fun entry =>
      ⟨entry.1, objectIncarnationOf state entry.1, entry.2⟩
    -- A failed encoder's buffer is empty, and the empty buffer is hashed then.
    provenanceDigest := sha256 (Encoder.run (encodeProvenanceImage state limits)).buffer }

/-! ### The canonical encoding -/

def claimLess (left right : SnapshotClaim) : Bool :=
  if left.source ≠ right.source then compare left.source right.source == .lt
  else if left.incarnation ≠ right.incarnation then left.incarnation < right.incarnation
  else if left.generation ≠ right.generation then left.generation < right.generation
  else compare left.evidence right.evidence == .lt

def sortAttachmentClaims (attachment : SnapshotAttachment) : SnapshotAttachment :=
  { attachment with claims := sortBy claimLess attachment.claims }

def canonicaliseObject (object : SnapshotObject) : SnapshotObject :=
  { object with attachments := (sortBy (fun left right =>
      if left.port ≠ right.port then portLess left.port right.port else left.slot < right.slot)
      object.attachments).map sortAttachmentClaims }

def conflictLess (left right : SnapshotConflict) : Bool :=
  if left.reason ≠ right.reason then left.reason.raw < right.reason.raw
  else if left.subject ≠ right.subject then subjectLess left.subject right.subject
  else portLess left.port right.port

def canonicalisePort (port : SnapshotPort) : SnapshotPort :=
  { port with
    attachments := (sortBy (fun left right =>
      if left.subject ≠ right.subject then subjectLess left.subject right.subject
      else left.slot < right.slot) port.attachments).map sortAttachmentClaims
    conflicts := (sortBy conflictLess port.conflicts).map fun conflict =>
      { conflict with claims := sortBy claimLess conflict.claims } }

/-- Sorts every collection into its canonical order. -/
def canonicalise (snapshot : TopologySnapshot) : TopologySnapshot :=
  { snapshot with
    objects := (sortBy (fun left right => compare left.id right.id == .lt) snapshot.objects).map
      canonicaliseObject
    endpoints := sortBy (fun left right => compare left.id right.id == .lt) snapshot.endpoints
    ports := (sortBy (fun left right => portLess left.port right.port) snapshot.ports).map
      canonicalisePort
    fencedSessions := sortBy (fun left right =>
      if left.source ≠ right.source then compare left.source right.source == .lt
      else left.incarnation < right.incarnation) snapshot.fencedSessions
    fencedObjects := sortBy (fun left right => compare left.object right.object == .lt)
      snapshot.fencedObjects }

def encodeClaim (value : SnapshotClaim) : List Write :=
  [.id128 value.source.value, .u64 value.incarnation, .u64 value.generation,
    .id128 value.evidence.value, .i64 value.observedAt, .u8 value.provenance.raw,
    .u8 value.authority.authorityClass.raw, .u32 value.authority.rank]

/-- A count and the elements. -/
def encodeList {α : Type} (encodeElement : α → List Write) (l : List α) : List Write :=
  .u32 (UInt32.ofNat l.length) :: l.flatMap encodeElement

def encodeAttachment (value : SnapshotAttachment) : List Write :=
  encodeObjectSideRef value.subject ++ encodePortRef value.port ++
    [.u32 value.slot, .u64 value.objectIncarnation] ++ encodeAuthority value.authority ++
    [.boolean value.connectorCompatible, .boolean value.mediaCompatible,
      .boolean value.conflicting] ++ encodeList encodeClaim value.claims

def encodeConflict (value : SnapshotConflict) : List Write :=
  [.u8 value.reason.raw] ++ encodeObjectSideRef value.subject ++ encodePortRef value.port ++
    encodeList encodeClaim value.claims

def encodePort (value : SnapshotPort) : List Write :=
  encodePortRef value.port ++ [.u8 value.state.raw] ++ encodePortCapability value.capability ++
    encodeList encodeAttachment value.attachments ++ encodeList encodeConflict value.conflicts

def encodeObject (value : SnapshotObject) (limits : Limits) : List Write :=
  [.id128 value.id.value, .u8 value.kind.raw, .string value.physicalLabel limits.maxStringBytes,
    .string value.serialLike limits.maxStringBytes,
    .string value.administrativeLocation limits.maxStringBytes, .u64 value.incarnation,
    .u8 value.lifecycle.raw] ++ encodeCapability value.capability limits ++
    encodeList encodeSideDescriptor value.sides ++ encodeList encodeAttachment value.attachments

def encodeEndpoint (value : SnapshotEndpoint) (limits : Limits) : List Write :=
  [.id128 value.id.value, .u8 value.kind.raw, .string value.name limits.maxStringBytes,
    .string value.administrativeLocation limits.maxStringBytes, .u32 value.portCount] ++
    encodePortCapability value.defaultPortCapability

def encodeSummary (value : GraphSummary) : List Write :=
  [.u64 value.portsAttached, .u64 value.portsEmpty, .u64 value.portsUnknown,
    .u64 value.portsConflicting, .u64 value.objectsTotal, .u64 value.objectsRegistered,
    .u64 value.objectsUnattached, .u64 value.objectsAttached, .u64 value.objectsQuarantined,
    .u64 value.objectsRemoved, .u64 value.objectsRetired, .u64 value.edges,
    .u64 value.edgesUnvalidated, .u64 value.conflicts, .u64 value.claimsFenced,
    .u64 value.claimsPending]

def encodeSnapshot (source : TopologySnapshot) (includeRegistry : Bool) (limits : Limits) :
    List Write :=
  let snapshot := canonicalise source
  [.u32 snapshot.formatVersion] ++
    (if includeRegistry then [.id128 snapshot.registry.value] else []) ++
    [.bytes snapshot.provenanceDigest.toList] ++ encodeSummary snapshot.summary ++
    encodeList (encodeObject · limits) snapshot.objects ++
    encodeList (encodeEndpoint · limits) snapshot.endpoints ++
    encodeList encodePort snapshot.ports ++
    encodeList (fun session => [.id128 session.source.value, .u64 session.incarnation,
      .u64 session.fencedBy, .u64 session.claims]) snapshot.fencedSessions ++
    encodeList (fun object => [.id128 object.object.value, .u64 object.currentIncarnation,
      .u64 object.fencedClaims]) snapshot.fencedObjects

def encodeSnapshotBytes (source : TopologySnapshot) (includeRegistry : Bool) (limits : Limits) :
    List UInt8 :=
  (Encoder.run (encodeSnapshot source includeRegistry limits)).take

namespace TopologySnapshot

/-- The canonical bytes, under the default limits. -/
def encode (snapshot : TopologySnapshot) : List UInt8 := encodeSnapshotBytes snapshot true {}

def digest (snapshot : TopologySnapshot) : Digest256 := sha256 snapshot.encode

/-- The digest of the canonical bytes without the registry identity. -/
def graphDigest (snapshot : TopologySnapshot) : Digest256 :=
  sha256 (encodeSnapshotBytes snapshot false {})

end TopologySnapshot

end CableRegistry
