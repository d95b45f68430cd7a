import CableRegistry.Graph

/-!
# Deriving answers from claims

What one key's records say: which of them count under a policy, which authority
wins, where an object side is (`deriveSubject`), which lifecycle action holds for
an object (`lifecycleActionOf`) and which capability a port has.  No timestamp
takes part in any of it; the highest authority wins and disagreement at the same
authority is a conflict.
-/

open Std

namespace CableRegistry

def combineValidation (any all : Bool) : ValidationState :=
  if !any then .unvalidated
  else if all then .validated
  else .partiallyValidated

def toProvenance (a : Attestation) : ClaimProvenance where
  source := a.owner.source
  incarnation := a.owner.incarnation
  generation := a.generation
  evidence := a.evidence
  observedAt := a.observedAt
  receivedAt := a.receivedAt
  provenance := a.provenance
  authority := a.authority
  objectIncarnation := a.objectIncarnation
  assertedInLifetime := a.assertedInLifetime

def claimOrder (left right : ClaimProvenance) : Bool :=
  if left.source ≠ right.source then compare left.source right.source == .lt
  else if left.incarnation ≠ right.incarnation then left.incarnation < right.incarnation
  else if left.generation ≠ right.generation then left.generation < right.generation
  else compare left.evidence right.evidence == .lt

/-- The claims of a list of attestations, in claim order. -/
def sortedClaims (l : List Attestation) : List ClaimProvenance := sortBy claimOrder (l.map toProvenance)

def participates (metadata : Attestation) (policy : ValidationPolicy) : Bool :=
  policy == .includeAll || metadata.assertedInLifetime

/-- The highest authority of a list, found by one pass that starts at its front. -/
def bestAuthority (l : List Authority) : Authority :=
  l.foldl (fun best a => if best < a then a else best) (l.headD {})

/-- The winning and losing claims for one key. -/
structure ClaimSet where
  any : Bool := false
  authority : Authority := {}
  validation : ValidationState := .unvalidated
  top : List Attestation := []
  lower : List Attestation := []
  lowerTotal : UInt32 := 0

def topOrder (left right : Attestation) : Bool :=
  if left.owner ≠ right.owner then compare left.owner right.owner == .lt
  else left.generation < right.generation

def lowerOrder (left right : Attestation) : Bool :=
  if left.authority ≠ right.authority then right.authority < left.authority
  else topOrder left right

def collectClaims {ν : Type} (records : OrdMap SourceIncarnationKey (Folded ν))
    (policy : ValidationPolicy) (accept : SourceIncarnationKey → Folded ν → Bool) : ClaimSet :=
  let eligible := (records.toList.filter fun entry =>
    participates entry.2.metadata policy && accept entry.1 entry.2).map (·.2.metadata)
  if eligible.isEmpty then {}
  else
    let authority := bestAuthority (eligible.map (·.authority))
    let top := eligible.filter (·.authority == authority)
    let lower := eligible.filter (·.authority != authority)
    { any := true
      authority := authority
      validation := combineValidation (eligible.any (·.assertedInLifetime))
        (eligible.all (·.assertedInLifetime))
      top := sortBy topOrder top
      lower := sortBy lowerOrder lower
      lowerTotal := UInt32.ofNat lower.length }

/-! ### Winning records -/

/-- The entry of highest authority, and among those the one of the lowest key. -/
def chooseRecord {ν : Type} (entries : List (SourceIncarnationKey × Folded ν)) :
    Option (SourceIncarnationKey × Folded ν) :=
  entries.foldl (fun chosen entry =>
    match chosen with
    | none => some entry
    | some current =>
      if current.2.metadata.authority < entry.2.metadata.authority ||
          (current.2.metadata.authority == entry.2.metadata.authority &&
            compare entry.1 current.1 == .lt)
      then some entry else some current) none

/-- A registration is a catalogue fact and survives the fencing of its source. -/
def winningRegistration (state : RegistryState) (object : ObjectId) :
    Option (Folded ObjectRegistrationValue) :=
  match state.objectRegistrations[object]? with
  | none => none
  | some owners => (chooseRecord owners.toList).map (·.2)

def winningEndpoint (state : RegistryState) (endpoint : EndpointId) :
    Option (Folded EndpointRegistrationValue) :=
  match state.endpointRegistrations[endpoint]? with
  | none => none
  | some owners => (chooseRecord owners.toList).map (·.2)

/-- One pass over the published capabilities: the chosen publication, its authority
and the smallest attachment count declared at that authority. -/
def choosePortCapability (entries : List (SourceIncarnationKey × Folded PortCapabilityValue)) :
    Option ((SourceIncarnationKey × Folded PortCapabilityValue) × UInt32) :=
  entries.foldl (fun chosen entry =>
    match chosen with
    | none => some (entry, entry.2.value.maxSimultaneousAttachments)
    | some (current, minimum) =>
      if current.2.metadata.authority < entry.2.metadata.authority then
        some (entry, entry.2.value.maxSimultaneousAttachments)
      else if entry.2.metadata.authority == current.2.metadata.authority then
        some (if compare entry.1 current.1 == .lt then entry else current,
          min minimum entry.2.value.maxSimultaneousAttachments)
      else some (current, minimum)) none

def portCapabilityOf (state : RegistryState) (port : PortRef) : PortCapability :=
  let published := match state.portCapabilityRecords[port]? with
    | none => none
    | some owners =>
      choosePortCapability (owners.toList.filter fun entry => !sessionIsFenced state entry.1)
  match published with
  | some (chosen, minimum) =>
    { chosen.2.value with maxSimultaneousAttachments := if minimum == 0 then 1 else minimum }
  | none =>
    match winningEndpoint state port.endpoint with
    | some endpoint => endpoint.value.defaultPortCapability
    | none => {}

def sideDescriptorOf (state : RegistryState) (object : ObjectId) (side : SideIndex) :
    ObjectSideDescriptor :=
  match winningRegistration state object with
  | none => {}
  | some registration => registration.value.sides.getD side.toNat {}

/-! ### Object sides -/

/-- One object side, derived from its own records alone. -/
structure SubjectDerivation where
  hasRecords : Bool := false
  state : PortAttachmentState := .unknown
  validation : ValidationState := .unvalidated
  authority : Authority := {}
  incarnation : ObjectIncarnation := 1
  ports : List PortRef := []
  slots : List AttachmentSlot := []
  top : List Attestation := []

def subjectRecordLive {ν : Type} (state : RegistryState) (owner : SourceIncarnationKey)
    (record : Folded ν) (policy : ValidationPolicy) : Bool :=
  !sessionIsFenced state owner && participates record.metadata policy

def portLess (left right : PortRef) : Bool := compare left right == .lt

/-- The attach records of a side that hold the winning authority. -/
def winningAttachments (state : RegistryState) (records : OrdMap SourceIncarnationKey (Folded SubjectValue))
    (policy : ValidationPolicy) (current : ObjectIncarnation) (authority : Authority) :
    List (Folded SubjectValue) :=
  (records.toList.filter fun entry =>
    subjectRecordLive state entry.1 entry.2 policy &&
    (entry.2.value.objectIncarnation == current && entry.2.value.attached) &&
    entry.2.metadata.authority == authority).map (·.2)

/-- The claims that the side is attached, or those that it is detached. -/
def subjectClaims (state : RegistryState) (records : OrdMap SourceIncarnationKey (Folded SubjectValue))
    (policy : ValidationPolicy) (current : ObjectIncarnation) (attached : Bool) : ClaimSet :=
  collectClaims records policy fun owner record =>
    subjectRecordLive state owner record policy &&
      (record.value.objectIncarnation == current && record.value.attached == attached)

def deriveSubject (state : RegistryState) (subject : ObjectSideRef) (policy : ValidationPolicy) :
    SubjectDerivation :=
  let current := objectIncarnationOf state subject.object
  let derivation : SubjectDerivation := { incarnation := current }
  if !objectExists state subject.object then derivation
  else match state.subjectRecords[subject]? with
  | none => derivation
  | some records =>
    let attached := subjectClaims state records policy current true
    let detached := subjectClaims state records policy current false
    if !attached.any && !detached.any then derivation
    else
      let derivation := { derivation with hasRecords := true }
      let attachedWins := attached.any && (!detached.any || detached.authority < attached.authority)
      let detachedWins := detached.any && (!attached.any || attached.authority < detached.authority)
      if !attachedWins && !detachedWins then
        { derivation with
          state := .conflicting
          authority := if attached.any then attached.authority else detached.authority
          validation := combineValidation
            ((attached.any && attached.validation != .unvalidated) ||
              (detached.any && detached.validation != .unvalidated))
            (attached.validation == .validated || detached.validation == .validated) }
      else if detachedWins then
        { derivation with
          state := .empty, authority := detached.authority, validation := detached.validation }
      else
        let winners := winningAttachments state records policy current attached.authority
        let ports := unique (sortBy portLess (winners.map (·.value.port)))
        { derivation with
          authority := attached.authority
          validation := attached.validation
          top := attached.top
          ports := ports
          -- The slots keep the order of the records; only the ports are sorted.
          slots := winners.map (·.value.slot)
          state := if ports.length > 1 then .conflicting else .attached }

def subjectDoubleBooked (state : RegistryState) (subject : ObjectSideRef)
    (policy : ValidationPolicy) : Bool :=
  let derivation := deriveSubject state subject policy
  derivation.state == .conflicting && derivation.ports.length > 1

def connectorCompatible (side : ObjectSideDescriptor) (capability : PortCapability) : Bool :=
  if side.connector == .unknown || capability.acceptedConnector == .unknown then true
  else side.connector == capability.acceptedConnector

def mediaCompatible (side : ObjectSideDescriptor) (capability : PortCapability) : Bool :=
  if side.media == .unknown || capability.acceptedMedia == .unknown then true
  else side.media == capability.acceptedMedia

/-! ### Lifecycle -/

/-- A record that speaks about the lifecycle of an object's current incarnation. -/
structure LifecycleCandidate where
  action : LifecycleAction
  fromReincarnation : Bool
  metadata : Attestation

def lifecycleCandidates (state : RegistryState) (object : ObjectId) : List LifecycleCandidate :=
  let current := objectIncarnationOf state object
  let asserted := match state.lifecycleRecords[object]? with
    | none => []
    | some owners => (owners.toList.filter fun entry =>
        !sessionIsFenced state entry.1 && entry.2.value.objectIncarnation == current).map
        fun entry => ⟨entry.2.value.action, false, entry.2.metadata⟩
  let replaced := match state.reincarnationRecords[object]? with
    | none => []
    | some owners => (owners.toList.filter fun entry =>
        !sessionIsFenced state entry.1 && entry.2.value.target == current).map
        fun entry => ⟨.present, true, entry.2.metadata⟩
  asserted ++ replaced

structure LifecycleVerdict where
  action : LifecycleAction := .present
  conflicting : Bool := false
  citations : List Attestation := []

/-- The action that the candidates of the winning authority amount to, and whether they
are in conflict. -/
def resolveActions (winners : List LifecycleCandidate) : LifecycleAction × Bool :=
  let sawPresent := winners.any (·.action == .present)
  let sawRetired := winners.any (·.action == .retired)
  let sawRemoved := winners.any (·.action == .removed)
  let sawQuarantined := winners.any (·.action == .quarantined)
  let presentFromReincarnation := winners.any fun c => c.action == .present && c.fromReincarnation
  let distinct := sawPresent.toNat + sawRetired.toNat + sawRemoved.toNat + sawQuarantined.toNat
  if distinct ≤ 1 then
    if sawRetired then (.retired, false)
    else if sawRemoved then (.removed, false)
    else if sawQuarantined then (.quarantined, false)
    else (.present, false)
  -- Retirement is sticky unless a reincarnation at the same authority restores the object.
  else if sawRetired && sawPresent && presentFromReincarnation && distinct == 2 then
    (.present, false)
  else if sawRetired then (.retired, false)
  else if sawRemoved && sawPresent && !sawQuarantined && distinct == 2 then (.removed, false)
  else (.present, true)

def lifecycleActionOf (state : RegistryState) (object : ObjectId) : LifecycleVerdict :=
  let candidates := lifecycleCandidates state object
  if candidates.isEmpty then {}
  else
    let best := bestAuthority (candidates.map (·.metadata.authority))
    let winners := candidates.filter (·.metadata.authority == best)
    let (action, conflicting) := resolveActions winners
    ⟨action, conflicting, winners.map (·.metadata)⟩

structure LifecycleDerivation where
  state : LifecycleState := .registered
  action : LifecycleAction := .present
  conflicting : Bool := false
  citations : List Attestation := []

def deriveLifecycle (state : RegistryState) (object : ObjectId) (hasAttachment hasDetachment : Bool) :
    LifecycleDerivation :=
  let verdict := lifecycleActionOf state object
  let lifecycle : LifecycleState :=
    if verdict.conflicting then .conflicting
    else if verdict.action == .retired then .retired
    else if verdict.action == .removed then .removed
    else if verdict.action == .quarantined then .quarantined
    else if hasAttachment then .attached
    else if hasDetachment then .unattached
    else .registered
  ⟨lifecycle, verdict.action, verdict.conflicting, verdict.citations⟩

/-- The object is quarantined, removed or retired, and therefore out of the
authoritative graph. -/
def objectExcluded (state : RegistryState) (object : ObjectId) : Bool :=
  let action := (lifecycleActionOf state object).action
  action == .quarantined || action == .removed || action == .retired

end CableRegistry
