import CableRegistry.Derive

/-!
# Deciding and applying evidence

A record touches one or more claim keys.  `decide` resolves each key on its own,
without touching the state: a key that is new or holds an older generation is
written, a key that holds a newer generation only feeds the ring of superseded
records, and a key that already holds the identical record is left alone.  The
result is a `StagedChange`, which `applyChange` writes.
-/

open Std

namespace CableRegistry

/-! ### Folding a record into a claim key -/

def ringOrder (left right : Attestation) : Bool :=
  if left.generation ≠ right.generation then left.generation < right.generation
  else compare left.evidence right.evidence == .lt

/-- Sorts a ring and drops from its front what exceeds the bound. -/
def Folded.settleRing {ν : Type} (historyPerKey : UInt32) (ring : List Attestation) (r : Folded ν) :
    Folded ν :=
  let sorted := sortBy ringOrder ring
  let excess := sorted.length - historyPerKey.toNat
  { r with
    superseded := sorted.drop excess
    historyDropped := r.historyDropped + UInt32.ofNat excess }

/-- A new winner: the old one joins the ring. -/
def Folded.win {ν : Type} (historyPerKey : UInt32) (metadata : Attestation) (value : ν)
    (r : Folded ν) : Folded ν :=
  let ring := if r.superseded.any (·.evidence == r.metadata.evidence) then r.superseded
    else r.superseded ++ [r.metadata]
  { r.settleRing historyPerKey ring with metadata := metadata, value := value }

/-- A losing record joins the ring, unless it is the winner or already there. -/
def Folded.lose {ν : Type} (historyPerKey : UInt32) (metadata : Attestation) (r : Folded ν) : Folded ν :=
  if r.metadata.evidence == metadata.evidence then r
  else if r.superseded.any (·.evidence == metadata.evidence) then r
  else r.settleRing historyPerKey (r.superseded ++ [metadata])

section Fold

variable {κ ι ν : Type} [Ord κ] [TransOrd κ] [Ord ι] [TransOrd ι] (historyPerKey : UInt32)

def fold (slots : OrdMap ι (Folded ν)) (key : ι) (metadata : Attestation) (value : ν) :
    OrdMap ι (Folded ν) :=
  match slots[key]? with
  | none => slots.insert key ⟨metadata, value, [], 0⟩
  | some folded => slots.insert key (folded.win historyPerKey metadata value)

def foldLosing (slots : OrdMap ι (Folded ν)) (key : ι) (metadata : Attestation) : OrdMap ι (Folded ν) :=
  match slots[key]? with
  | none => slots
  | some folded => slots.insert key (folded.lose historyPerKey metadata)

/-- Folds under an outer key, which is created when it is missing. -/
def foldGroup (groups : Groups κ ι ν) (key : κ) (inner : ι) (metadata : Attestation) (value : ν) :
    Groups κ ι ν :=
  groups.insert key (fold historyPerKey (groups.getD key ∅) inner metadata value)

def foldLosingGroup (groups : Groups κ ι ν) (key : κ) (inner : ι) (metadata : Attestation) :
    Groups κ ι ν :=
  match groups[key]? with
  | none => groups
  | some slots => groups.insert key (foldLosing historyPerKey slots inner metadata)

end Fold

/-! ### Staged changes -/

/-- A claim key of the record's own source incarnation, with the value to store. -/
inductive ClaimUpdate where
  | objectRegistration (object : ObjectId) (value : ObjectRegistrationValue)
  | endpointRegistration (endpoint : EndpointId) (value : EndpointRegistrationValue)
  | subject (subject : ObjectSideRef) (value : SubjectValue)
  | port (key : PortSlotKey) (value : PortValue)
  | lifecycle (object : ObjectId) (value : LifecycleValue)
  | reincarnation (object : ObjectId) (value : ReincarnationValue)
  | objectCapability (object : ObjectId) (value : ObjectCapabilityValue)
  | portCapability (port : PortRef) (value : PortCapabilityValue)
  deriving Repr, DecidableEq

/-- One staged mutation: the claims to write, and the claims whose record lost and
only joins the ring of its key.  A refused or duplicate record stages nothing. -/
@[ext]
structure StagedChange where
  metadata : Attestation
  writes : List ClaimUpdate := []
  rings : List ClaimUpdate := []
  apply : Bool := false
  deriving Repr, DecidableEq

section Apply

variable (historyPerKey : UInt32) (metadata : Attestation)

/-- Puts the record in the ring of a key; no value is replaced. -/
def applyRing (state : RegistryState) (update : ClaimUpdate) : RegistryState :=
  let owner := metadata.owner
  match update with
  | .objectRegistration object _ => { state with
      objectRegistrations :=
        foldLosingGroup historyPerKey state.objectRegistrations object owner metadata }
  | .endpointRegistration endpoint _ => { state with
      endpointRegistrations :=
        foldLosingGroup historyPerKey state.endpointRegistrations endpoint owner metadata }
  | .subject subject _ => { state with
      subjectRecords := foldLosingGroup historyPerKey state.subjectRecords subject owner metadata }
  | .port key _ => { state with
      portRecords := foldLosingGroup historyPerKey state.portRecords key.port key metadata }
  | .lifecycle object _ => { state with
      lifecycleRecords := foldLosingGroup historyPerKey state.lifecycleRecords object owner metadata }
  | .reincarnation object _ => { state with
      reincarnationRecords :=
        foldLosingGroup historyPerKey state.reincarnationRecords object owner metadata }
  | .objectCapability object _ => { state with
      objectCapabilityRecords :=
        foldLosingGroup historyPerKey state.objectCapabilityRecords object owner metadata }
  | .portCapability port _ => { state with
      portCapabilityRecords :=
        foldLosingGroup historyPerKey state.portCapabilityRecords port owner metadata }

/-- Writes a claim. -/
def applyWrite (state : RegistryState) (update : ClaimUpdate) : RegistryState :=
  let owner := metadata.owner
  match update with
  | .objectRegistration object value => { state with
      objectRegistrations :=
        foldGroup historyPerKey state.objectRegistrations object owner metadata value }
  | .endpointRegistration endpoint value => { state with
      endpointRegistrations :=
        foldGroup historyPerKey state.endpointRegistrations endpoint owner metadata value }
  | .subject subject value => { state with
      subjectRecords := foldGroup historyPerKey state.subjectRecords subject owner metadata value }
  | .port key value => { state with
      portRecords := foldGroup historyPerKey state.portRecords key.port key metadata value }
  | .lifecycle object value => { state with
      lifecycleRecords := foldGroup historyPerKey state.lifecycleRecords object owner metadata value }
  | .reincarnation object value => { state with
      reincarnationRecords :=
        foldGroup historyPerKey state.reincarnationRecords object owner metadata value }
  | .objectCapability object value => { state with
      objectCapabilityRecords :=
        foldGroup historyPerKey state.objectCapabilityRecords object owner metadata value }
  | .portCapability port value => { state with
      portCapabilityRecords :=
        foldGroup historyPerKey state.portCapabilityRecords port owner metadata value }

end Apply

/-- The rings first, then the writes. -/
def applyChange (historyPerKey : UInt32) (state : RegistryState) (change : StagedChange) :
    RegistryState :=
  change.writes.foldl (applyWrite historyPerKey change.metadata)
    (change.rings.foldl (applyRing historyPerKey change.metadata) state)

/-! ### The label index -/

/-- Physical label to the objects that have registered it. -/
abbrev LabelIndex := OrdMap Text (ExtTreeSet ObjectId compare)

namespace LabelIndex

def add (index : LabelIndex) (label : Text) (object : ObjectId) : LabelIndex :=
  if label.isEmpty then index
  else index.insert label ((index.getD label ∅).insert object)

def rebuild (state : RegistryState) : LabelIndex :=
  state.objectRegistrations.toList.foldl (fun index entry =>
    entry.2.toList.foldl (fun index owner => index.add owner.2.value.physicalLabel entry.1) index) ∅

def holders (index : LabelIndex) (label : Text) : List ObjectId :=
  ((index[label]?).map (·.toList)).getD []

/-- A valid index follows the registrations that are written. -/
def applyChange (index : LabelIndex) (change : StagedChange) : LabelIndex :=
  change.writes.foldl (fun index update =>
    match update with
    | .objectRegistration object value => index.add value.physicalLabel object
    | _ => index) index

end LabelIndex

/-! ### Deciding -/

inductive GenerationOutcome where
  | insert | superseded | duplicate | collision
  deriving Repr, DecidableEq

def compareGeneration (stored incoming : Attestation) (sameContent : Bool) : GenerationOutcome :=
  if incoming.generation > stored.generation then .insert
  else if incoming.generation < stored.generation then .superseded
  else if sameContent then .duplicate
  else .collision

/-- The outcome of writing one claim key, given what already lives there. -/
def existingOutcome {κ ι ν : Type} [Ord κ] [TransOrd κ] [Ord ι] [TransOrd ι]
    (groups : Groups κ ι ν) (key : κ) (inner : ι) (metadata : Attestation) (same : ν → Bool) :
    GenerationOutcome :=
  match groups[key]? with
  | none => .insert
  | some slots =>
    match slots[inner]? with
    | none => .insert
    | some existing => compareGeneration existing.metadata metadata (same existing.value)

/-- What was decided about a record.  `labelIndex` is the index after the decision: it
is rebuilt the first time it is needed. -/
structure Decision where
  change : StagedChange
  disposition : IngestDisposition
  detail : String := ""
  labelIndex : Option LabelIndex

def effectiveDisposition (base : IngestDisposition)
    (sessionFenced fencedIncarnation futureIncarnation : Bool) : IngestDisposition :=
  if base = .duplicate ∨ base = .refusedConflict ∨ base = .acceptedSuperseded ∨
      base = .refusedLabelConflict ∨ base = .refusedCapacity ∨ base = .refusedInvalid then base
  else if sessionFenced then .acceptedFencedSource
  else if fencedIncarnation then .acceptedFencedIncarnation
  else if futureIncarnation then .acceptedPendingIncarnation
  else base

/-- What the details of one kind of claim call it. -/
structure ClaimTexts where
  collision : String
  duplicate : String
  superseded : String

section Decide

variable (limits : Limits) (state : RegistryState) (labelIndex : Option LabelIndex)
  (metadata : Attestation)

/-- A refusal or a duplicate: nothing is staged. -/
def settled (disposition : IngestDisposition) (detail : String) : Decision :=
  ⟨{ metadata := metadata }, disposition, detail, labelIndex⟩

def collisionDetail (what : String) : String :=
  "generation " ++ toString metadata.generation.toNat ++ " already carries " ++ what

/-- The claim is written. -/
def stageWrite (update : ClaimUpdate) (base : IngestDisposition)
    (fencedIncarnation futureIncarnation : Bool) : Decision :=
  ⟨{ metadata := metadata, writes := [update], apply := true },
    effectiveDisposition base (sessionIsFenced state metadata.owner) fencedIncarnation
      futureIncarnation, "", labelIndex⟩

/-- The record only joins the ring of its key. -/
def stageRing (update : ClaimUpdate) (detail : String) : Decision :=
  ⟨{ metadata := metadata, rings := [update], apply := true }, .acceptedSuperseded, detail,
    labelIndex⟩

/-- A record that touches one claim key: what follows when the key is taken by a record
that is not older, and `insert` otherwise. -/
def decideSingle (outcome : GenerationOutcome) (update : ClaimUpdate) (texts : ClaimTexts)
    (insert : Decision) : Decision :=
  match outcome with
  | .collision => settled labelIndex metadata .refusedConflict (collisionDetail metadata texts.collision)
  | .duplicate => settled labelIndex metadata .duplicate texts.duplicate
  | .superseded => stageRing labelIndex metadata update texts.superseded
  | .insert => insert

/-- Another object that registered the label and is not retired. -/
def holdsLiveLabel (label : Text) (object holder : ObjectId) : Bool :=
  holder != object &&
  (match state.objectRegistrations[holder]? with
    | none => false
    | some owners => owners.toList.any (·.2.value.physicalLabel == label)) &&
  (lifecycleActionOf state holder).action != .retired

def decideRegisterObject (descriptor : ObjectDescriptor) : Decision :=
  let update := ClaimUpdate.objectRegistration descriptor.id descriptor
  decideSingle labelIndex metadata
    (existingOutcome state.objectRegistrations descriptor.id metadata.owner metadata (· == descriptor))
    update
    ⟨"a different object registration", "the object registration is already recorded",
      "a newer generation of this source already registered the object"⟩ <|
    let needed := !descriptor.physicalLabel.isEmpty
    let index := labelIndex.getD (LabelIndex.rebuild state)
    let labelIndex := if needed then some index else labelIndex
    let conflict := if needed then
        (index.holders descriptor.physicalLabel).find?
          (holdsLiveLabel state descriptor.physicalLabel descriptor.id)
      else none
    match conflict with
    | some holder => settled labelIndex metadata .refusedLabelConflict
        ("the physical label is already bound to live object " ++ holder.toHex)
    | none =>
      if !state.objectRegistrations.contains descriptor.id &&
          state.objectRegistrations.size ≥ limits.maxObjects.toNat then
        settled labelIndex metadata .refusedCapacity "the registry has reached its object limit"
      else stageWrite state labelIndex metadata update .accepted false false

def decideRegisterEndpoint (descriptor : EndpointDescriptor) : Decision :=
  let update := ClaimUpdate.endpointRegistration descriptor.id descriptor
  decideSingle labelIndex metadata
    (existingOutcome state.endpointRegistrations descriptor.id metadata.owner metadata (· == descriptor))
    update
    ⟨"a different endpoint registration", "the endpoint registration is already recorded",
      "a newer generation of this source already registered the endpoint"⟩ <|
    if !state.endpointRegistrations.contains descriptor.id &&
        state.endpointRegistrations.size ≥ limits.maxEndpoints.toNat then
      settled labelIndex metadata .refusedCapacity "the registry has reached its endpoint limit"
    else stageWrite state labelIndex metadata update .accepted false false

/-- What an attach, detach or move says: about the side, and about slots of ports. -/
structure PositionClaim where
  subject : ObjectSideRef
  incarnation : ObjectIncarnation
  attached : Bool
  viaMove : Bool := false
  moveFrom : PortRef := {}
  updates : List (PortSlotKey × PortValue)

def attachClaim (owner : SourceIncarnationKey) (p : AttachPayload) : PositionClaim where
  subject := p.subject
  incarnation := p.objectIncarnation
  attached := true
  updates := [(⟨owner, p.port, p.slot⟩, ⟨p.objectIncarnation, false, p.subject⟩)]

def detachClaim (owner : SourceIncarnationKey) (p : DetachPayload) : PositionClaim where
  subject := p.subject
  incarnation := p.objectIncarnation
  attached := false
  updates := if p.hasFromPort then
      [(⟨owner, p.fromPort, p.slot⟩, ⟨p.objectIncarnation, true, p.subject⟩)] else []

def moveClaim (owner : SourceIncarnationKey) (p : MovePayload) : PositionClaim where
  subject := p.subject
  incarnation := p.objectIncarnation
  attached := true
  viaMove := true
  moveFrom := p.fromPort
  updates :=
    let destination := (⟨owner, p.toPort, p.toSlot⟩, ⟨p.objectIncarnation, false, p.subject⟩)
    let samePlace := p.fromPort == p.toPort && p.fromSlot == p.toSlot
    if samePlace then [destination]
    else [destination, (⟨owner, p.fromPort, p.fromSlot⟩, ⟨p.objectIncarnation, true, p.subject⟩)]

def PositionClaim.subjectValue (claim : PositionClaim) : SubjectValue :=
  let value : SubjectValue :=
    { objectIncarnation := claim.incarnation, attached := claim.attached, viaMove := claim.viaMove,
      moveFrom := claim.moveFrom }
  match claim.attached, claim.updates with
  | true, (key, portValue) :: _ =>
    { value with port := if portValue.empty then {} else key.port, slot := key.slot }
  | _, _ => value

/-- The port is full and the key would be a new one. -/
def portCapacityReached (key : PortSlotKey) : Bool :=
  match state.portRecords[key.port]? with
  | none => false
  | some slots => !slots.contains key && slots.size ≥ limits.maxClaimRecordsPerPort.toNat

/-- The claim keys of a position claim: the side's, then the slots'. -/
def PositionClaim.claims (claim : PositionClaim) : List ClaimUpdate :=
  .subject claim.subject claim.subjectValue ::
    claim.updates.map fun update => .port update.1 update.2

/-- The outcome at the key of a claim of a position. -/
def positionOutcome (update : ClaimUpdate) : GenerationOutcome :=
  match update with
  | .subject subject value =>
    existingOutcome state.subjectRecords subject metadata.owner metadata (· == value)
  | .port key value => existingOutcome state.portRecords key.port key metadata (· == value)
  | _ => .insert

/-- One record, several claim keys; each key is resolved independently. -/
def decidePosition (claim : PositionClaim) : Decision :=
  if claim.updates.any (portCapacityReached limits state ·.1) then
    settled labelIndex metadata .refusedCapacity
      "the port already carries the maximum number of distinct claims"
  else if claim.claims.any (positionOutcome state metadata · == .collision) then
    settled labelIndex metadata .refusedConflict
      (collisionDetail metadata "different content for this claim key")
  else
    let writes := claim.claims.filter (positionOutcome state metadata · == .insert)
    let rings := claim.claims.filter (positionOutcome state metadata · == .superseded)
    if writes.isEmpty && rings.isEmpty then
      settled labelIndex metadata .duplicate "the record is already stored at this generation"
    else
      let change : StagedChange :=
        { metadata := metadata, writes := writes, rings := rings, apply := true }
      if writes.isEmpty then
        ⟨change, .acceptedSuperseded,
          "a newer generation of this source already owns every claim key", labelIndex⟩
      else
        let current := objectIncarnationOf state claim.subject.object
        let pending := !objectExists state claim.subject.object ||
          claim.updates.any (!portExists state ·.1.port)
        ⟨change, effectiveDisposition
          (if pending then .acceptedPendingReference else .accepted)
          (sessionIsFenced state metadata.owner) (claim.incarnation < current)
          (claim.incarnation > current), "", labelIndex⟩

/-- A reference to an object that is not registered is pending. -/
def referenceBase (known : Bool) : IngestDisposition :=
  if known then .accepted else .acceptedPendingReference

def decideSetLifecycle (payload : SetLifecyclePayload) : Decision :=
  let update := ClaimUpdate.lifecycle payload.object
    ⟨payload.objectIncarnation, payload.action, payload.reason⟩
  -- The object incarnation is not part of the comparison.
  decideSingle labelIndex metadata
    (existingOutcome state.lifecycleRecords payload.object metadata.owner metadata fun stored =>
      stored.action == payload.action && stored.reason == payload.reason)
    update
    ⟨"a different lifecycle assertion", "the lifecycle assertion is already recorded",
      "a newer generation of this source already asserted the lifecycle"⟩ <|
    let current := objectIncarnationOf state payload.object
    stageWrite state labelIndex metadata update (referenceBase (objectExists state payload.object))
      (payload.objectIncarnation < current) (payload.objectIncarnation > current)

def reincarnationValue (payload : ReincarnateObjectPayload) : ReincarnationValue :=
  ⟨payload.fromIncarnation, payload.fromIncarnation + 1, payload.newSerialLike, payload.reason⟩

def decideReincarnateObject (payload : ReincarnateObjectPayload) : Decision :=
  let value := reincarnationValue payload
  let update := ClaimUpdate.reincarnation payload.object value
  decideSingle labelIndex metadata
    (existingOutcome state.reincarnationRecords payload.object metadata.owner metadata fun stored =>
      stored.fromIncarnation == value.fromIncarnation && stored.serialLike == value.serialLike &&
        stored.reason == value.reason)
    update
    ⟨"a different reincarnation", "the reincarnation is already recorded",
      "a newer generation of this source already asserted a reincarnation"⟩ <|
    if !objectExists state payload.object then
      stageWrite state labelIndex metadata update .acceptedPendingReference false false
    else
      let current := objectIncarnationOf state payload.object
      -- A target that is already reached only joins the ring, whatever its generation.
      if value.target ≤ current then
        stageRing labelIndex metadata update
          ("the object is already at incarnation " ++ toString current.toNat ++ " or beyond")
      else stageWrite state labelIndex metadata update .accepted false false

def decidePublishObjectCapability (payload : PublishObjectCapabilityPayload) : Decision :=
  let update := ClaimUpdate.objectCapability payload.object payload.capability
  decideSingle labelIndex metadata
    (existingOutcome state.objectCapabilityRecords payload.object metadata.owner metadata
      (· == payload.capability))
    update
    ⟨"a different capability", "the capability publication is already recorded",
      "a newer generation of this source already published the capability"⟩ <|
    stageWrite state labelIndex metadata update (referenceBase (objectExists state payload.object))
      false false

def decidePublishPortCapability (payload : PublishPortCapabilityPayload) : Decision :=
  let update := ClaimUpdate.portCapability payload.port payload.capability
  decideSingle labelIndex metadata
    (existingOutcome state.portCapabilityRecords payload.port metadata.owner metadata
      (· == payload.capability))
    update
    ⟨"a different port capability", "the port capability publication is already recorded",
      "a newer generation of this source already published the port capability"⟩ <|
    stageWrite state labelIndex metadata update (referenceBase (portExists state payload.port))
      false false

/-- What to do with a record of the given payload. -/
def decideEvidence (payload : EvidencePayload) : Decision :=
  match payload with
  | .registerObject p => decideRegisterObject limits state labelIndex metadata p.descriptor
  | .registerEndpoint p => decideRegisterEndpoint limits state labelIndex metadata p.descriptor
  | .attach p => decidePosition limits state labelIndex metadata (attachClaim metadata.owner p)
  | .detach p => decidePosition limits state labelIndex metadata (detachClaim metadata.owner p)
  | .move p => decidePosition limits state labelIndex metadata (moveClaim metadata.owner p)
  | .publishObjectCapability p => decidePublishObjectCapability state labelIndex metadata p
  | .publishPortCapability p => decidePublishPortCapability state labelIndex metadata p
  | .setLifecycle p => decideSetLifecycle state labelIndex metadata p
  | .reincarnateObject p => decideReincarnateObject state labelIndex metadata p

end Decide

/-- The physical incarnation a record was made against, when its kind carries one. -/
def objectIncarnationOfEvidence : EvidencePayload → ObjectIncarnation
  | .attach p => p.objectIncarnation
  | .detach p => p.objectIncarnation
  | .move p => p.objectIncarnation
  | .setLifecycle p => p.objectIncarnation
  | _ => 0

/-- The attestation of a record. -/
def attestationOf (evidence : Evidence) (authority : Authority) (receivedAt : Timestamp)
    (live : Bool) : Attestation where
  owner := evidence.key
  generation := evidence.header.generation
  evidence := evidence.header.id
  observedAt := evidence.header.observedAt
  receivedAt := receivedAt
  provenance := evidence.header.provenance
  authority := authority
  objectIncarnation := objectIncarnationOfEvidence evidence.payload
  assertedInLifetime := live

end CableRegistry
