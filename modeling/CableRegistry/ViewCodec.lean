import CableRegistry.Lib.Delimited
import CableRegistry.Queries
import CableRegistry.SnapshotCodec

/-!
# Answers on the wire

The encoding of the answers a registry gives: claims, notes, edges, the views of ports, objects and
endpoints, histories, and the results of opening a session and of ingesting.

For every kind of answer `v`, `v.Readable limits` says what the decoder checks: counts against the
limits, and values of enumerations.
-/

open Std

namespace CableRegistry

open Decoder

/-! ### Texts -/

/-- The text as a string.  Bytes that are no text, which the registry never writes, are left out. -/
def asString (text : Text) : String := (String.fromUTF8? ⟨text.toArray⟩).getD ""

/-- A text that the registry worded. -/
def detail (limits : Limits) : Decoder String := asString <$> string limits.maxStringBytes

/-! ### Enumerations -/

namespace ValidationState

def raw : ValidationState → UInt8
  | unvalidated => 0
  | partiallyValidated => 1
  | validated => 2

/-- The conversion of a value that was checked. -/
def ofRaw : UInt8 → ValidationState
  | 0 => unvalidated
  | 1 => partiallyValidated
  | _ => validated

theorem ofRaw_raw (v : ValidationState) : ofRaw v.raw = v ∧ v.raw ≤ validated.raw := by
  cases v <;> decide

end ValidationState

namespace LifecycleEventKind

def raw : LifecycleEventKind → UInt8
  | registered => 0
  | attached => 1
  | detached => 2
  | moved => 3
  | reincarnated => 4
  | quarantined => 5
  | released => 6
  | removed => 7
  | retired => 8

/-- The conversion of a value that was checked. -/
def ofRaw : UInt8 → LifecycleEventKind
  | 0 => registered
  | 1 => attached
  | 2 => detached
  | 3 => moved
  | 4 => reincarnated
  | 5 => quarantined
  | 6 => released
  | 7 => removed
  | _ => retired

theorem ofRaw_raw (v : LifecycleEventKind) : ofRaw v.raw = v ∧ v.raw ≤ retired.raw := by
  cases v <;> decide

end LifecycleEventKind

namespace IngestDisposition

def raw : IngestDisposition → UInt8
  | accepted => 0
  | acceptedFencedSource => 1
  | acceptedFencedIncarnation => 2
  | acceptedPendingReference => 3
  | acceptedPendingIncarnation => 4
  | acceptedSuperseded => 5
  | duplicate => 6
  | refusedUnknownSource => 7
  | refusedLabelConflict => 8
  | refusedConflict => 9
  | refusedInvalid => 10
  | refusedCapacity => 11
  | refusedClosed => 12
  | refusedPersistence => 13

/-- The conversion of a value that was checked. -/
def ofRaw : UInt8 → IngestDisposition
  | 0 => accepted
  | 1 => acceptedFencedSource
  | 2 => acceptedFencedIncarnation
  | 3 => acceptedPendingReference
  | 4 => acceptedPendingIncarnation
  | 5 => acceptedSuperseded
  | 6 => duplicate
  | 7 => refusedUnknownSource
  | 8 => refusedLabelConflict
  | 9 => refusedConflict
  | 10 => refusedInvalid
  | 11 => refusedCapacity
  | 12 => refusedClosed
  | _ => refusedPersistence

theorem ofRaw_raw (v : IngestDisposition) : ofRaw v.raw = v ∧ v.raw ≤ refusedPersistence.raw := by
  cases v <;> decide

end IngestDisposition

namespace SessionDisposition

def raw : SessionDisposition → UInt8
  | opened => 0
  | resumed => 1
  | reopened => 2
  | newIncarnation => 3
  | refusedFenced => 4
  | refusedDescriptorConflict => 5
  | refusedInvalid => 6
  | refusedCapacity => 7
  | refusedPersistence => 8
  | refusedClosed => 9

/-- The conversion of a value. -/
def ofRaw : UInt8 → SessionDisposition
  | 0 => opened
  | 1 => resumed
  | 2 => reopened
  | 3 => newIncarnation
  | 4 => refusedFenced
  | 5 => refusedDescriptorConflict
  | 6 => refusedInvalid
  | 7 => refusedCapacity
  | 8 => refusedPersistence
  | _ => refusedClosed

theorem ofRaw_raw (v : SessionDisposition) : ofRaw v.raw = v := by
  cases v <;> rfl

end SessionDisposition

/-! ### Claims, notes and edges -/

def encodeClaimProvenance (value : ClaimProvenance) : List Write :=
  [Write.id128 value.source.value, .u64 value.incarnation, .u64 value.generation,
    .id128 value.evidence.value, .i64 value.observedAt, .i64 value.receivedAt,
    .u8 value.provenance.raw] ++ encodeAuthority value.authority ++
    [Write.u64 value.objectIncarnation, .boolean value.assertedInLifetime]

def decodeClaimProvenance : Decoder ClaimProvenance := do
  let source ← strongId
  let incarnation ← u64
  let generation ← u64
  let evidence ← strongId
  let observedAt ← i64
  let receivedAt ← i64
  let provenance ← u8
  let authority ← decodeAuthority
  let objectIncarnation ← u64
  let assertedInLifetime ← boolean
  guard (ProvenanceClass.mk provenance).declared
  pure ⟨source, incarnation, generation, evidence, observedAt, receivedAt, ⟨provenance⟩, authority,
    objectIncarnation, assertedInLifetime⟩

def ClaimProvenance.Readable (v : ClaimProvenance) : Prop :=
  v.authority.authorityClass.declared ∧ v.provenance.declared

def decodeClaimProvenances (maxCount : UInt32) : Decoder (List ClaimProvenance) :=
  decodeVector maxCount decodeClaimProvenance

def encodeConflictNote (limits : Limits) (value : ConflictNote) : List Write :=
  [Write.u8 value.reason.raw] ++ encodeObjectSideRef value.subject ++ encodePortRef value.port ++
    [Write.string (textOf value.detail) limits.maxStringBytes] ++ encodeList encodeClaimProvenance value.claims

def decodeConflictNote (limits : Limits) : Decoder ConflictNote := do
  let reason ← u8
  let subject ← decodeObjectSideRef
  let port ← decodePortRef
  let detail ← detail limits
  guard (reason ≤ ConflictReason.incompatibleMedia.raw)
  let claims ← decodeClaimProvenances limits.maxClaimRecordsPerPort
  pure ⟨ConflictReason.ofRaw reason, subject, port, detail, claims⟩

def ConflictNote.Readable (v : ConflictNote) (limits : Limits) : Prop :=
  Within limits.maxClaimRecordsPerPort ClaimProvenance.Readable v.claims

def decodeConflictNotes (limits : Limits) : Decoder (List ConflictNote) :=
  decodeVector limits.maxClaimRecordsPerPort (decodeConflictNote limits)

/-- The notes of a view. -/
def NotesReadable (limits : Limits) (l : List ConflictNote) : Prop :=
  Within limits.maxClaimRecordsPerPort (·.Readable limits) l

def encodeAttachmentEdge (value : AttachmentEdge) : List Write :=
  encodeObjectSideRef value.subject ++ encodePortRef value.port ++ [Write.u32 value.slot] ++
    encodeAuthority value.authority ++
    [Write.u8 value.validation.raw, .boolean value.connectorCompatible, .boolean value.mediaCompatible,
      .boolean value.conflicting, .u64 value.objectIncarnation] ++
    encodeList encodeClaimProvenance value.claims ++ encodeList encodeClaimProvenance value.overridden ++
    [Write.u32 value.overriddenTotal]

/-- The product is taken in 32 bits. -/
def decodeAttachmentEdge (limits : Limits) : Decoder AttachmentEdge := do
  let subject ← decodeObjectSideRef
  let port ← decodePortRef
  let slot ← u32
  let authority ← decodeAuthority
  let validation ← u8
  let connectorCompatible ← boolean
  let mediaCompatible ← boolean
  let conflicting ← boolean
  let objectIncarnation ← u64
  guard (validation ≤ ValidationState.validated.raw)
  let claims ← decodeClaimProvenances limits.maxClaimRecordsPerPort
  let overridden ← decodeClaimProvenances (limits.maxHistoryPerKey * limits.maxClaimRecordsPerPort)
  let overriddenTotal ← u32
  pure ⟨subject, port, slot, authority, ValidationState.ofRaw validation, connectorCompatible,
    mediaCompatible, conflicting, objectIncarnation, claims, overridden, overriddenTotal⟩

structure AttachmentEdge.Readable (v : AttachmentEdge) (limits : Limits) : Prop where
  authority : v.authority.authorityClass.declared
  claims : Within limits.maxClaimRecordsPerPort ClaimProvenance.Readable v.claims
  overridden : Within (limits.maxHistoryPerKey * limits.maxClaimRecordsPerPort)
    ClaimProvenance.Readable v.overridden

def decodeAttachmentEdges (limits : Limits) : Decoder (List AttachmentEdge) :=
  decodeVector limits.maxClaimRecordsPerPort (decodeAttachmentEdge limits)

/-- The edges of a view. -/
def EdgesReadable (limits : Limits) (l : List AttachmentEdge) : Prop :=
  Within limits.maxClaimRecordsPerPort (·.Readable limits) l

/-! ### Ports -/

def encodePortView (limits : Limits) (value : PortView) : List Write :=
  encodePortRef value.port ++ [Write.u8 value.state.raw, .u8 value.validation.raw] ++
    encodePortCapability value.capability ++ encodeList encodeAttachmentEdge value.edges ++
    encodeList (encodeConflictNote limits) value.conflicts ++
    encodeList encodeClaimProvenance value.emptinessClaims ++ [Write.u32 value.emptinessClaimsTotal]

def decodePortView (limits : Limits) : Decoder PortView := do
  let port ← decodePortRef
  let state ← u8
  let validation ← u8
  let capability ← decodePortCapability limits
  guard (state ≤ PortAttachmentState.conflicting.raw ∧ validation ≤ ValidationState.validated.raw)
  let edges ← decodeAttachmentEdges limits
  let conflicts ← decodeConflictNotes limits
  let emptinessClaims ← decodeClaimProvenances limits.maxClaimRecordsPerPort
  let emptinessClaimsTotal ← u32
  pure ⟨port, PortAttachmentState.ofRaw state, ValidationState.ofRaw validation, capability, edges,
    conflicts, emptinessClaims, emptinessClaimsTotal⟩

structure PortView.Readable (v : PortView) (limits : Limits) : Prop where
  inRange : v.capability.InRange limits
  declared : v.capability.declared
  edges : EdgesReadable limits v.edges
  conflicts : NotesReadable limits v.conflicts
  emptinessClaims : Within limits.maxClaimRecordsPerPort ClaimProvenance.Readable v.emptinessClaims

/-! ### Objects and their history -/

def encodeLifecycleEvent (limits : Limits) (value : LifecycleEvent) : List Write :=
  [Write.u8 value.kind.raw, .i64 value.observedAt, .i64 value.receivedAt, .id128 value.source.value,
    .u64 value.incarnation, .u64 value.generation, .id128 value.evidence.value,
    .u8 value.provenance.raw, .u64 value.objectIncarnation, .u32 value.side] ++
    encodePortRef value.port ++ encodePortRef value.fromPort ++ [Write.boolean value.hasFromPort] ++
    [Write.string value.detail limits.maxStringBytes]

def decodeLifecycleEvent (limits : Limits) : Decoder LifecycleEvent := do
  let kind ← u8
  let observedAt ← i64
  let receivedAt ← i64
  let source ← strongId
  let incarnation ← u64
  let generation ← u64
  let evidence ← strongId
  let provenance ← u8
  let objectIncarnation ← u64
  let side ← u32
  let port ← decodePortRef
  let fromPort ← decodePortRef
  let hasFromPort ← boolean
  let detail ← string limits.maxStringBytes
  guard (kind ≤ LifecycleEventKind.retired.raw ∧ (ProvenanceClass.mk provenance).declared)
  pure ⟨LifecycleEventKind.ofRaw kind, observedAt, receivedAt, source, incarnation, generation,
    evidence, ⟨provenance⟩, objectIncarnation, side, port, fromPort, hasFromPort, detail⟩

def LifecycleEvent.Readable (v : LifecycleEvent) : Prop := v.provenance.declared

def decodeLifecycleEvents (limits : Limits) : Decoder (List LifecycleEvent) :=
  decodeVector limits.maxHistoryEvents (decodeLifecycleEvent limits)

/-- The events of a history. -/
def EventsReadable (limits : Limits) (l : List LifecycleEvent) : Prop :=
  Within limits.maxHistoryEvents LifecycleEvent.Readable l

def encodeObjectSideView (limits : Limits) (value : ObjectSideView) : List Write :=
  [Write.u32 value.side] ++ encodeSideDescriptor value.descriptor ++
    [Write.u8 value.state.raw, .u8 value.validation.raw] ++ encodeList encodeAttachmentEdge value.edges ++
    encodeList (encodeConflictNote limits) value.conflicts

def decodeObjectSideView (limits : Limits) : Decoder ObjectSideView := do
  let side ← u32
  let descriptor ← decodeSideDescriptor
  let state ← u8
  let validation ← u8
  guard (state ≤ PortAttachmentState.conflicting.raw ∧ validation ≤ ValidationState.validated.raw)
  let edges ← decodeAttachmentEdges limits
  let conflicts ← decodeConflictNotes limits
  pure ⟨side, descriptor, PortAttachmentState.ofRaw state, ValidationState.ofRaw validation, edges,
    conflicts⟩

structure ObjectSideView.Readable (v : ObjectSideView) (limits : Limits) : Prop where
  descriptor : v.descriptor.declared
  edges : EdgesReadable limits v.edges
  conflicts : NotesReadable limits v.conflicts

def encodeObjectView (limits : Limits) (value : ObjectView) : List Write :=
  [Write.id128 value.id.value, .u8 value.kind.raw] ++ [Write.string value.physicalLabel limits.maxStringBytes] ++
    [Write.string value.serialLike limits.maxStringBytes] ++
    [Write.string value.administrativeLocation limits.maxStringBytes] ++
    [Write.u64 value.incarnation, .u8 value.lifecycle.raw] ++ encodeCapability value.capability limits ++
    encodeList (encodeObjectSideView limits) value.sides ++
    encodeList (encodeLifecycleEvent limits) value.history ++ [Write.u32 value.historyDropped] ++
    encodeList (encodeConflictNote limits) value.conflicts ++ [Write.u8 value.validation.raw]

def decodeObjectView (limits : Limits) : Decoder ObjectView := do
  let id ← strongId
  let kind ← u8
  let physicalLabel ← string limits.maxStringBytes
  let serialLike ← string limits.maxStringBytes
  let administrativeLocation ← string limits.maxStringBytes
  let incarnation ← u64
  let lifecycle ← u8
  guard ((ObjectKind.mk kind).declared ∧ lifecycle ≤ LifecycleState.conflicting.raw)
  let capability ← decodeCapability limits
  let sides ← decodeVector limits.maxSidesPerObject (decodeObjectSideView limits)
  let history ← decodeLifecycleEvents limits
  let historyDropped ← u32
  let conflicts ← decodeConflictNotes limits
  let validation ← u8
  guard (validation ≤ ValidationState.validated.raw)
  pure ⟨id, ⟨kind⟩, physicalLabel, serialLike, administrativeLocation, incarnation,
    LifecycleState.ofRaw lifecycle, capability, sides, history, historyDropped, conflicts,
    ValidationState.ofRaw validation⟩

structure ObjectView.Readable (v : ObjectView) (limits : Limits) : Prop where
  kind : v.kind.declared
  capability : v.capability.declared
  sides : Within limits.maxSidesPerObject (·.Readable limits) v.sides
  history : EventsReadable limits v.history
  conflicts : NotesReadable limits v.conflicts

def encodeObjectHistory (limits : Limits) (value : ObjectHistory) : List Write :=
  [Write.id128 value.object.value] ++ encodeList (encodeLifecycleEvent limits) value.events ++
    [Write.u32 value.droppedEvents]

def decodeObjectHistory (limits : Limits) : Decoder ObjectHistory := do
  let object ← strongId
  let events ← decodeLifecycleEvents limits
  let droppedEvents ← u32
  pure ⟨object, events, droppedEvents⟩

def ObjectHistory.Readable (v : ObjectHistory) (limits : Limits) : Prop := EventsReadable limits v.events

/-! ### Endpoints -/

def encodeEndpointView (limits : Limits) (value : EndpointView) : List Write :=
  [Write.id128 value.id.value, .u8 value.kind.raw] ++ [Write.string value.name limits.maxStringBytes] ++
    [Write.string value.administrativeLocation limits.maxStringBytes] ++ [Write.u32 value.portCount] ++
    encodePortCapability value.defaultPortCapability ++ encodeList (encodePortView limits) value.ports

def decodeEndpointView (limits : Limits) : Decoder EndpointView := do
  let id ← strongId
  let kind ← u8
  let name ← string limits.maxStringBytes
  let administrativeLocation ← string limits.maxStringBytes
  let portCount ← u32
  guard ((EndpointKind.mk kind).declared ∧ portCount ≤ limits.maxPortsPerEndpoint)
  let defaultPortCapability ← decodePortCapability limits
  let ports ← decodeVector limits.maxPortsPerEndpoint (decodePortView limits)
  pure ⟨id, ⟨kind⟩, name, administrativeLocation, portCount, defaultPortCapability, ports⟩

structure EndpointView.Readable (v : EndpointView) (limits : Limits) : Prop where
  kind : v.kind.declared
  portCount : v.portCount ≤ limits.maxPortsPerEndpoint
  inRange : v.defaultPortCapability.InRange limits
  declared : v.defaultPortCapability.declared
  ports : Within limits.maxPortsPerEndpoint (·.Readable limits) v.ports

/-! ### Results -/

def encodeIngestResult (limits : Limits) (value : IngestResult) : List Write :=
  [Write.u8 value.disposition.raw, .id128 value.evidence.value, .u16 value.kind.raw, .u64 value.highWater,
    .i64 value.receivedAt] ++ [Write.string (textOf value.detail) limits.maxStringBytes]

/-- The enumerator of a kind, where the value is one. -/
def evidenceKind (raw : UInt16) : Decoder EvidenceKind :=
  match EvidenceKind.ofRaw raw with
  | some kind => pure kind
  | none => failure

def decodeIngestResult (limits : Limits) : Decoder IngestResult := do
  let disposition ← u8
  let evidence ← strongId
  let kind ← u16
  let highWater ← u64
  let receivedAt ← i64
  let detail ← detail limits
  guard (disposition ≤ IngestDisposition.refusedPersistence.raw)
  let kind ← evidenceKind kind
  pure ⟨IngestDisposition.ofRaw disposition, evidence, kind, highWater, receivedAt, detail⟩

def encodeIngestResults (limits : Limits) (values : List IngestResult) : List Write :=
  encodeList (encodeIngestResult limits) values

def decodeIngestResults (limits : Limits) : Decoder (List IngestResult) :=
  decodeVector limits.maxEvidenceBatch (decodeIngestResult limits)

def encodeOpenSessionResult (limits : Limits) (value : OpenSessionResult) : List Write :=
  [Write.u8 value.disposition.raw, .id128 value.key.source.value, .u64 value.key.incarnation,
    .u64 value.previousIncarnation, .u64 value.fencedClaims] ++
    [Write.string (textOf value.detail) limits.maxStringBytes]

def decodeOpenSessionResult (limits : Limits) : Decoder OpenSessionResult := do
  let disposition ← u8
  let source ← strongId
  let incarnation ← u64
  let previousIncarnation ← u64
  let fencedClaims ← u64
  let detail ← detail limits
  guard (disposition ≤ SessionDisposition.refusedPersistence.raw)
  pure ⟨SessionDisposition.ofRaw disposition, ⟨source, incarnation⟩, previousIncarnation, fencedClaims,
    detail⟩

end CableRegistry
