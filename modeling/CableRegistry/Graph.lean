import CableRegistry.State

/-!
# The derived graph

The types of the answers: claims with their provenance, edges, conflict notes
and the views of ports, objects and endpoints.
-/

namespace CableRegistry

/-- Whether the claims behind an answer were asserted in this registry lifetime. -/
inductive ValidationState where
  | unvalidated | partiallyValidated | validated
  deriving Repr, DecidableEq

inductive ValidationPolicy where
  | includeAll | liveOnly
  deriving Repr, DecidableEq

inductive ConflictReason where
  | none | tooManyAttachments | emptyAndOccupied | objectSideDoubleBooked | lifecycleConflict
  | capabilityConflict | incompatibleConnector | incompatibleMedia
  deriving Repr, DecidableEq

inductive PortAttachmentState where
  | unknown | empty | attached | conflicting
  deriving Repr, DecidableEq

/-- Resting lifecycle state of a physical object. -/
inductive LifecycleState where
  | registered | unattached | attached | quarantined | removed | retired | conflicting
  deriving Repr, DecidableEq

inductive LifecycleEventKind where
  | registered | attached | detached | moved | reincarnated | quarantined | released | removed
  | retired
  deriving Repr, DecidableEq

namespace ConflictReason

/-- The value of the enumerator. -/
def raw : ConflictReason → UInt8
  | none => 0
  | tooManyAttachments => 1
  | emptyAndOccupied => 2
  | objectSideDoubleBooked => 3
  | lifecycleConflict => 4
  | capabilityConflict => 5
  | incompatibleConnector => 6
  | incompatibleMedia => 7

end ConflictReason

def PortAttachmentState.raw : PortAttachmentState → UInt8
  | unknown => 0
  | empty => 1
  | attached => 2
  | conflicting => 3

def LifecycleState.raw : LifecycleState → UInt8
  | registered => 0
  | unattached => 1
  | attached => 2
  | quarantined => 3
  | removed => 4
  | retired => 5
  | conflicting => 6

structure ClaimProvenance where
  source : SourceId := {}
  incarnation : Incarnation := 0
  generation : Generation := 0
  evidence : EvidenceId := {}
  observedAt : Timestamp := 0
  receivedAt : Timestamp := 0
  provenance : ProvenanceClass := .unknown
  authority : Authority := {}
  objectIncarnation : ObjectIncarnation := 0
  assertedInLifetime : Bool := false
  deriving Repr, DecidableEq

structure ConflictNote where
  reason : ConflictReason := .none
  subject : ObjectSideRef := {}
  port : PortRef := {}
  detail : String := ""
  claims : List ClaimProvenance := []
  deriving Repr, DecidableEq

/-- One side of one object at one port. -/
structure AttachmentEdge where
  subject : ObjectSideRef := {}
  port : PortRef := {}
  slot : AttachmentSlot := 0
  authority : Authority := {}
  validation : ValidationState := .unvalidated
  connectorCompatible : Bool := true
  mediaCompatible : Bool := true
  conflicting : Bool := false
  objectIncarnation : ObjectIncarnation := 0
  claims : List ClaimProvenance := []
  overridden : List ClaimProvenance := []
  overriddenTotal : UInt32 := 0
  deriving Repr, DecidableEq

structure PortView where
  port : PortRef := {}
  state : PortAttachmentState := .unknown
  validation : ValidationState := .unvalidated
  capability : PortCapability := {}
  edges : List AttachmentEdge := []
  conflicts : List ConflictNote := []
  emptinessClaims : List ClaimProvenance := []
  emptinessClaimsTotal : UInt32 := 0
  deriving Repr, DecidableEq

structure ObjectSideView where
  side : SideIndex := 0
  descriptor : ObjectSideDescriptor := {}
  state : PortAttachmentState := .unknown
  validation : ValidationState := .unvalidated
  edges : List AttachmentEdge := []
  conflicts : List ConflictNote := []
  deriving Repr, DecidableEq

structure LifecycleEvent where
  kind : LifecycleEventKind := .registered
  observedAt : Timestamp := 0
  receivedAt : Timestamp := 0
  source : SourceId := {}
  incarnation : Incarnation := 0
  generation : Generation := 0
  evidence : EvidenceId := {}
  provenance : ProvenanceClass := .unknown
  objectIncarnation : ObjectIncarnation := 0
  side : SideIndex := 0
  port : PortRef := {}
  fromPort : PortRef := {}
  hasFromPort : Bool := false
  detail : Text := []
  deriving Repr, DecidableEq

structure ObjectView where
  id : ObjectId := {}
  kind : ObjectKind := .unknown
  physicalLabel : Text := []
  serialLike : Text := []
  administrativeLocation : Text := []
  incarnation : ObjectIncarnation := 0
  lifecycle : LifecycleState := .registered
  capability : NominalCapability := {}
  sides : List ObjectSideView := []
  history : List LifecycleEvent := []
  historyDropped : UInt32 := 0
  conflicts : List ConflictNote := []
  validation : ValidationState := .unvalidated
  deriving Repr, DecidableEq

structure GraphSummary where
  portsAttached : UInt64 := 0
  portsEmpty : UInt64 := 0
  portsUnknown : UInt64 := 0
  portsConflicting : UInt64 := 0
  objectsTotal : UInt64 := 0
  objectsRegistered : UInt64 := 0
  objectsUnattached : UInt64 := 0
  objectsAttached : UInt64 := 0
  objectsQuarantined : UInt64 := 0
  objectsRemoved : UInt64 := 0
  objectsRetired : UInt64 := 0
  edges : UInt64 := 0
  edgesUnvalidated : UInt64 := 0
  conflicts : UInt64 := 0
  claimsFenced : UInt64 := 0
  claimsPending : UInt64 := 0
  deriving Repr, DecidableEq

structure QueryOptions where
  validationPolicy : ValidationPolicy := .includeAll
  includeObjectSides : Bool := true
  includeHistory : Bool := false
  includeEndpointPorts : Bool := false
  endpoint : EndpointId := {}
  object : ObjectId := {}
  deriving Repr, DecidableEq

end CableRegistry
