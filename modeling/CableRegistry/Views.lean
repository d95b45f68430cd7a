import CableRegistry.Derive

/-!
# Views

The answers to queries: the view of a port, of an object, its history, and the
counts of a summary.  A port's view is derived from the records of its slots, an
object's view from the records of its sides; the two are different maps, and a
slot record counts only while its own source still says that the side sits there
(`portRecordLive`).
-/

open Std

namespace CableRegistry

/-! ### Ports -/

/-- The owning source still asserts that this subject sits in this slot, by the very
record that is stored in the slot. -/
def subjectStillHere (state : RegistryState) (port : PortRef) (key : PortSlotKey)
    (folded : Folded PortValue) (current : ObjectIncarnation) : Bool :=
  match state.subjectRecords[folded.value.subject]? with
  | none => false
  | some owners =>
    match owners[key.owner]? with
    | none => false
    | some entry =>
      entry.value.attached && entry.value.port == port && entry.value.slot == key.slot &&
        entry.value.objectIncarnation == current &&
        entry.metadata.generation == folded.metadata.generation

/-- A slot record that counts. -/
def portRecordLive (state : RegistryState) (port : PortRef) (policy : ValidationPolicy)
    (key : PortSlotKey) (folded : Folded PortValue) : Bool :=
  let object := folded.value.subject.object
  let current := objectIncarnationOf state object
  !sessionIsFenced state key.owner && participates folded.metadata policy &&
    objectExists state object && !objectExcluded state object &&
    folded.value.objectIncarnation == current &&
    (folded.value.empty || subjectStillHere state port key folded current)

/-- A slot record with the key it is stored under. -/
abbrev LiveRecord := PortSlotKey × Folded PortValue

def livePortRecords (state : RegistryState) (port : PortRef) (policy : ValidationPolicy) :
    List LiveRecord :=
  match state.portRecords[port]? with
  | none => []
  | some records => records.toList.filter fun entry => portRecordLive state port policy entry.1 entry.2

def LiveRecord.metadata (r : LiveRecord) : Attestation := r.2.metadata

def subjectLess (left right : ObjectSideRef) : Bool := compare left right == .lt

/-- What the edges of one port share. -/
structure PortContext where
  port : PortRef
  capability : PortCapability
  best : Authority
  conflicting : Bool
  overridden : List ClaimProvenance
  overriddenTotal : UInt32

def portEdge (state : RegistryState) (context : PortContext) (occupied : List LiveRecord)
    (subject : ObjectSideRef) : AttachmentEdge :=
  let matching := occupied.filter (·.2.value.subject == subject)
  let descriptor := sideDescriptorOf state subject.object subject.side
  { subject := subject
    port := context.port
    -- The last matching record decides the slot.
    slot := (matching.getLast?.map (·.1.slot)).getD 0
    authority := context.best
    validation := combineValidation (matching.any (·.metadata.assertedInLifetime))
      (matching.all (·.metadata.assertedInLifetime))
    connectorCompatible := connectorCompatible descriptor context.capability
    mediaCompatible := mediaCompatible descriptor context.capability
    conflicting := context.conflicting
    objectIncarnation := (matching.getLast?.map (·.2.value.objectIncarnation)).getD 0
    claims := sortedClaims (matching.map (·.metadata))
    overridden := context.overridden
    overriddenTotal := context.overriddenTotal }

def compatibilityNotes (edge : AttachmentEdge) : List ConflictNote :=
  (if edge.connectorCompatible then [] else
    [{ reason := .incompatibleConnector, subject := edge.subject, port := edge.port,
       detail := "the object side connector does not match the declared port connector",
       claims := edge.claims }]) ++
  (if edge.mediaCompatible then [] else
    [{ reason := .incompatibleMedia, subject := edge.subject, port := edge.port,
       detail := "the object side media does not match the declared port media",
       claims := edge.claims }])

def doubleBookedNote (state : RegistryState) (policy : ValidationPolicy) (port : PortRef)
    (subject : ObjectSideRef) : ConflictNote where
  reason := .objectSideDoubleBooked
  subject := subject
  port := port
  detail := "the object side is claimed at more than one port at the same authority"
  claims := sortedClaims (deriveSubject state subject policy).top

def derivePortView (state : RegistryState) (limits : Limits) (port : PortRef)
    (policy : ValidationPolicy) : PortView :=
  let capability := portCapabilityOf state port
  let live := livePortRecords state port policy
  if live.isEmpty then { port := port, capability := capability }
  else
    let best := bestAuthority (live.map (·.metadata.authority))
    let top := live.filter (·.metadata.authority == best)
    let lower := live.filter (·.metadata.authority != best)
    let empty := top.filter (·.2.value.empty)
    let occupied := top.filter (!·.2.value.empty)
    let view : PortView :=
      { port := port
        capability := capability
        validation := combineValidation (top.any (·.metadata.assertedInLifetime))
          (top.all (·.metadata.assertedInLifetime))
        emptinessClaims := sortedClaims (empty.map (·.metadata))
        emptinessClaimsTotal := UInt32.ofNat empty.length }
    if occupied.isEmpty then
      { view with state := if empty.isEmpty then .unknown else .empty }
    else
      let subjects := unique (sortBy subjectLess (occupied.map (·.2.value.subject)))
      let doubleBooked := subjects.any (subjectDoubleBooked state · policy)
      let tooMany : Bool := subjects.length > capability.maxSimultaneousAttachments.toNat
      let mixed := !empty.isEmpty
      let portState : PortAttachmentState :=
        if tooMany || mixed || doubleBooked then .conflicting else .attached
      let context : PortContext :=
        { port := port
          capability := capability
          best := best
          conflicting := portState == .conflicting
          overridden := sortedClaims
            ((lower.take limits.maxOverriddenReported.toNat).map (·.metadata))
          overriddenTotal := UInt32.ofNat lower.length }
      let edges := subjects.map (portEdge state context occupied)
      let tooManyNotes : List ConflictNote := if tooMany then
          [{ reason := .tooManyAttachments, port := port,
             detail := toString subjects.length ++ " distinct subjects claim a port that admits " ++
               toString capability.maxSimultaneousAttachments.toNat,
             claims := sortedClaims (occupied.map (·.metadata)) }]
        else []
      let mixedNotes : List ConflictNote := if mixed then
          [{ reason := .emptyAndOccupied, port := port,
             detail := "equal authority asserts both that the port is empty and that it is occupied",
             claims := sortedClaims (top.map (·.metadata)) }]
        else []
      let doubleBookedNotes := (subjects.filter (subjectDoubleBooked state · policy)).map
        (doubleBookedNote state policy port)
      { view with
        state := portState
        edges := sortBy (fun left right => subjectLess left.subject right.subject) edges
        conflicts := edges.flatMap compatibilityNotes ++ tooManyNotes ++ mixedNotes ++
          doubleBookedNotes }

/-! ### History -/

/-- The bytes of a text. -/
def textOf (s : String) : Text := s.toUTF8.data.toList

/-- What an event says besides its attestation. -/
structure EventContent where
  kind : LifecycleEventKind
  detail : Text
  side : SideIndex := 0
  port : PortRef := {}
  fromPort : PortRef := {}
  hasFromPort : Bool := false

def lifecycleEvent (state : RegistryState) (object : ObjectId) (metadata : Attestation)
    (content : EventContent) : LifecycleEvent where
  kind := content.kind
  observedAt := metadata.observedAt
  receivedAt := metadata.receivedAt
  source := metadata.owner.source
  incarnation := metadata.owner.incarnation
  generation := metadata.generation
  evidence := metadata.evidence
  provenance := metadata.provenance
  objectIncarnation := objectIncarnationOf state object
  side := content.side
  port := content.port
  fromPort := content.fromPort
  hasFromPort := content.hasFromPort
  detail := content.detail

def registrationEvents (state : RegistryState) (object : ObjectId) : List LifecycleEvent :=
  match state.objectRegistrations[object]? with
  | none => []
  | some owners => owners.toList.flatMap fun entry =>
      lifecycleEvent state object entry.2.metadata ⟨.registered, textOf "registered", 0, {}, {}, false⟩ ::
      entry.2.superseded.map fun superseded =>
        lifecycleEvent state object superseded ⟨.registered, textOf "re-registered", 0, {}, {}, false⟩

/-- The events of one side's record: the record itself and the records it superseded. -/
def subjectRecordEvents (state : RegistryState) (subject : ObjectSideRef) (record : Folded SubjectValue) :
    List LifecycleEvent :=
  let value := record.value
  let content : Text → Text → EventContent := fun attachedDetail detachedDetail =>
    if value.attached then
      ⟨if value.viaMove then .moved else .attached, attachedDetail, subject.side, value.port,
        value.moveFrom, value.viaMove⟩
    else ⟨.detached, detachedDetail, subject.side, {}, {}, false⟩
  lifecycleEvent state subject.object record.metadata
      (content (if value.viaMove then textOf "moved" else textOf "attached") (textOf "detached")) ::
    record.superseded.map fun superseded =>
      lifecycleEvent state subject.object superseded
        (content (textOf "superseded") (textOf "superseded"))

def subjectEvents (state : RegistryState) (object : ObjectId) : List LifecycleEvent :=
  (state.subjectRecords.toList.filter fun entry => entry.1.object == object).flatMap fun entry =>
    (entry.2.toList.filter fun owner =>
      !sessionIsFenced state owner.1 &&
        owner.2.value.objectIncarnation == objectIncarnationOf state object).flatMap fun owner =>
      subjectRecordEvents state entry.1 owner.2

def lifecycleEventKind (action : LifecycleAction) : LifecycleEventKind :=
  if action == .quarantined then .quarantined
  else if action == .removed then .removed
  else if action == .retired then .retired
  else .released

def lifecycleEvents (state : RegistryState) (object : ObjectId) : List LifecycleEvent :=
  match state.lifecycleRecords[object]? with
  | none => []
  | some owners => (owners.toList.filter fun entry => !sessionIsFenced state entry.1).map fun entry =>
      lifecycleEvent state object entry.2.metadata
        ⟨lifecycleEventKind entry.2.value.action, entry.2.value.reason, 0, {}, {}, false⟩

def reincarnationEvents (state : RegistryState) (object : ObjectId) : List LifecycleEvent :=
  match state.reincarnationRecords[object]? with
  | none => []
  | some owners => (owners.toList.filter fun entry => !sessionIsFenced state entry.1).map fun entry =>
      lifecycleEvent state object entry.2.metadata
        ⟨.reincarnated, entry.2.value.reason, 0, {}, {}, false⟩

def eventOrder (left right : LifecycleEvent) : Bool :=
  if left.observedAt ≠ right.observedAt then left.observedAt < right.observedAt
  else if left.source ≠ right.source then compare left.source right.source == .lt
  else if left.incarnation ≠ right.incarnation then left.incarnation < right.incarnation
  else if left.generation ≠ right.generation then left.generation < right.generation
  else compare left.evidence right.evidence == .lt

/-- The last `maxEvents` events of an object and the number of earlier ones left out. -/
def collectHistory (state : RegistryState) (object : ObjectId) (maxEvents : UInt32) :
    List LifecycleEvent × UInt32 :=
  let events := sortBy eventOrder (registrationEvents state object ++ subjectEvents state object ++
    lifecycleEvents state object ++ reincarnationEvents state object)
  let dropped := UInt32.ofNat (events.length - maxEvents.toNat)
  (events.drop dropped.toNat, dropped)

/-! ### Objects -/

/-- The serial-like identity of the replacement unit at the current incarnation. -/
def replacementSerial (state : RegistryState) (object : ObjectId) : Option Text :=
  match state.reincarnationRecords[object]? with
  | none => none
  | some owners =>
    let entries := owners.toList.filter fun entry =>
      !sessionIsFenced state entry.1 && entry.2.value.target == objectIncarnationOf state object
    match chooseRecord entries with
    | none => none
    | some chosen => if chosen.2.value.serialLike.isEmpty then none else some chosen.2.value.serialLike

/-- One pass over the published capabilities of an object: the chosen publication, and
whether another one of the same authority differed from the one chosen so far. -/
def chooseObjectCapability (entries : List (SourceIncarnationKey × Folded ObjectCapabilityValue)) :
    Option ((SourceIncarnationKey × Folded ObjectCapabilityValue) × Bool) :=
  entries.foldl (fun chosen entry =>
    match chosen with
    | none => some (entry, false)
    | some (current, differing) =>
      if current.2.metadata.authority < entry.2.metadata.authority then some (entry, false)
      else if entry.2.metadata.authority == current.2.metadata.authority then
        some (if compare entry.1 current.1 == .lt then entry else current,
          differing || entry.2.value != current.2.value)
      else some (current, differing)) none

/-- Whether a registration of the highest authority differs from the winning one.  The
first registration at each new highest authority is not compared. -/
def registrationsDiffer (entries : List (SourceIncarnationKey × Folded ObjectRegistrationValue))
    (winning : ObjectRegistrationValue) : Bool :=
  (entries.foldl (fun (scan : Option Authority × Bool) entry =>
    let authority := entry.2.metadata.authority
    match scan.1 with
    | none => (some authority, false)
    | some best =>
      if best < authority then (some authority, false)
      else (some best, scan.2 || (authority == best && entry.2.value != winning))) (none, false)).2

def sideEdge (state : RegistryState) (reference : ObjectSideRef) (descriptor : ObjectSideDescriptor)
    (derivation : SubjectDerivation) (index : Nat) (port : PortRef) : AttachmentEdge where
  subject := reference
  port := port
  slot := derivation.slots.getD index 0
  authority := derivation.authority
  validation := derivation.validation
  objectIncarnation := derivation.incarnation
  conflicting := derivation.state == .conflicting
  claims := sortedClaims derivation.top
  connectorCompatible := connectorCompatible descriptor (portCapabilityOf state port)
  mediaCompatible := mediaCompatible descriptor (portCapabilityOf state port)

def deriveSideView (state : RegistryState) (policy : ValidationPolicy) (reference : ObjectSideRef) :
    ObjectSideView :=
  let descriptor := sideDescriptorOf state reference.object reference.side
  let derivation := deriveSubject state reference policy
  { side := reference.side
    descriptor := descriptor
    state := derivation.state
    validation := derivation.validation
    edges := derivation.ports.mapIdx (sideEdge state reference descriptor derivation)
    conflicts := if derivation.state == .conflicting && derivation.ports.length > 1 then
        [{ reason := .objectSideDoubleBooked, subject := reference,
           detail := "the object side is claimed at more than one port at the same authority",
           claims := sortedClaims derivation.top }]
      else [] }

/-- The sides an object declares. -/
def sideRefs (object : ObjectId) (count : Nat) : List ObjectSideRef :=
  (List.range count).map fun index => ⟨object, UInt32.ofNat index⟩

def objectCapabilityNotes (differing : Bool) (detail : String) : List ConflictNote :=
  if differing then [{ reason := .capabilityConflict, detail := detail }] else []

def deriveObjectView (state : RegistryState) (limits : Limits) (object : ObjectId)
    (options : QueryOptions) : ObjectView :=
  match winningRegistration state object with
  | none => {}
  | some registration =>
    let descriptor := registration.value
    let published := chooseObjectCapability
      ((recordsOf state.objectCapabilityRecords object).filter fun entry =>
        !sessionIsFenced state entry.1)
    let registrations := recordsOf state.objectRegistrations object
    let references := sideRefs object descriptor.sides.length
    let derivations := references.map (deriveSubject state · options.validationPolicy)
    let recorded := derivations.filter (·.hasRecords)
    let hasAttachment := derivations.any fun d => d.state == .attached || d.state == .conflicting
    let hasDetachment := derivations.any (·.state == .empty)
    let lifecycle := deriveLifecycle state object hasAttachment hasDetachment
    let history := if options.includeHistory then collectHistory state object limits.maxHistoryEvents
      else ([], 0)
    { id := object
      kind := descriptor.kind
      physicalLabel := descriptor.physicalLabel
      serialLike := (replacementSerial state object).getD descriptor.serialLike
      administrativeLocation := descriptor.administrativeLocation
      incarnation := objectIncarnationOf state object
      lifecycle := lifecycle.state
      capability := (published.map (·.1.2.value)).getD descriptor.capability
      sides := if options.includeObjectSides then
          references.map (deriveSideView state options.validationPolicy) else []
      history := history.1
      historyDropped := history.2
      conflicts :=
        objectCapabilityNotes ((published.map (·.2)).getD false)
          "equal authority published different nominal capabilities for this object" ++
        objectCapabilityNotes (registrationsDiffer registrations descriptor)
          "equal authority registered different descriptors for this object" ++
        (if lifecycle.conflicting then
          [{ reason := .lifecycleConflict,
             detail := "equal authority asserts incompatible lifecycle states",
             claims := sortedClaims lifecycle.citations }] else [])
      -- The lifetime flags are only gathered when the sides are included.
      validation := if options.includeObjectSides then
          combineValidation (recorded.any (·.validation != .unvalidated))
            (recorded.all (·.validation == .validated))
        else combineValidation false true }

/-! ### Counts -/

/-- The winner and the ring of a record. -/
def Folded.claimCount {ν : Type} (r : Folded ν) : UInt64 := 1 + UInt64.ofNat r.superseded.length

/-- Sums a weight over every record of a group. -/
def sumGroups {κ ι ν : Type} [Ord κ] [TransOrd κ] [Ord ι] [TransOrd ι] (groups : Groups κ ι ν)
    (weight : κ → ι → Folded ν → UInt64) : UInt64 :=
  groups.toList.foldl (fun total entry =>
    entry.2.toList.foldl (fun total owner => total + weight entry.1 owner.1 owner.2) total) 0

/-- The claims of fenced sessions in a group. -/
def sumFenced {κ ν : Type} [Ord κ] [TransOrd κ] (state : RegistryState)
    (groups : Groups κ SourceIncarnationKey ν) : UInt64 :=
  sumGroups groups fun _ owner record => if sessionIsFenced state owner then record.claimCount else 0

/-- The object is registered and at another incarnation. -/
def incarnationFenced (state : RegistryState) (object : ObjectId)
    (incarnation : ObjectIncarnation) : Bool :=
  objectExists state object && incarnation != objectIncarnationOf state object

def countFencedClaims (state : RegistryState) : UInt64 :=
  sumFenced state state.objectCapabilityRecords + sumFenced state state.portCapabilityRecords +
    sumGroups state.subjectRecords (fun subject owner record =>
      if sessionIsFenced state owner ||
        incarnationFenced state subject.object record.value.objectIncarnation
      then record.claimCount else 0) +
    sumGroups state.portRecords (fun _ key record =>
      if sessionIsFenced state key.owner ||
        incarnationFenced state record.value.subject.object record.value.objectIncarnation
      then record.claimCount else 0) +
    sumGroups state.lifecycleRecords (fun object owner record =>
      if sessionIsFenced state owner || incarnationFenced state object record.value.objectIncarnation
      then record.claimCount else 0)

/-- The records of a group whose object is not registered. -/
def countUnregistered {ν : Type} (state : RegistryState)
    (groups : Groups ObjectId SourceIncarnationKey ν) : UInt64 :=
  sumGroups groups fun object _ _ => if objectExists state object then 0 else 1

/-- Counts records whose reference does not exist yet. -/
def countPendingClaims (state : RegistryState) : UInt64 :=
  sumGroups state.subjectRecords (fun subject owner record =>
      if !objectExists state subject.object then 1
      else if sessionIsFenced state owner then 0
      else if record.value.objectIncarnation > objectIncarnationOf state subject.object then 1
      else 0) +
    sumGroups state.portRecords (fun port _ record =>
      let object := record.value.subject.object
      if !portExists state port then 1
      else if !objectExists state object then 1
      else if record.value.objectIncarnation > objectIncarnationOf state object then 1
      else 0) +
    countUnregistered state state.lifecycleRecords +
    countUnregistered state state.reincarnationRecords +
    countUnregistered state state.objectCapabilityRecords +
    sumGroups state.portCapabilityRecords (fun port _ _ => if portExists state port then 0 else 1)

/-- The claims of a group whose owner is selected. -/
def scanOwners {κ ν : Type} [Ord κ] [TransOrd κ] (groups : Groups κ SourceIncarnationKey ν)
    (selected : SourceIncarnationKey → Bool) : UInt64 :=
  sumGroups groups fun _ owner record => if selected owner then record.claimCount else 0

/-- The claims of selected owners among those that fencing applies to. -/
def countOwned (state : RegistryState) (selected : SourceIncarnationKey → Bool) : UInt64 :=
  scanOwners state.subjectRecords selected + scanOwners state.lifecycleRecords selected +
    scanOwners state.reincarnationRecords selected +
    scanOwners state.objectCapabilityRecords selected +
    scanOwners state.portCapabilityRecords selected +
    sumGroups state.portRecords
      (fun _ key record => if selected key.owner then record.claimCount else 0)

def countClaimsBefore (state : RegistryState) (source : SourceId) (incarnation : Incarnation) : UInt64 :=
  countOwned state fun owner => owner.source == source && owner.incarnation < incarnation

def countSessionClaims (state : RegistryState) (key : SourceIncarnationKey) : UInt64 :=
  countOwned state (· == key)

/-- Adds a count to an object's total; a zero count leaves no entry. -/
def addFenced (totals : OrdMap ObjectId UInt64) (object : ObjectId) (count : UInt64) :
    OrdMap ObjectId UInt64 :=
  if count == 0 then totals else totals.insert object (totals.getD object 0 + count)

/-- The claims under one key made against another incarnation than the current one. -/
def staleCount {ν : Type} (incarnation : ν → ObjectIncarnation) (current : ObjectIncarnation)
    (owners : OrdMap SourceIncarnationKey (Folded ν)) : UInt64 :=
  owners.toList.foldl (fun count owner =>
    if incarnation owner.2.value == current then count else count + owner.2.claimCount) 0

/-- Claims fenced by a replacement, grouped by object. -/
def fencedClaimsByObject (state : RegistryState) : OrdMap ObjectId UInt64 :=
  let totals := state.subjectRecords.toList.foldl (fun totals entry =>
    addFenced totals entry.1.object
      (staleCount (·.objectIncarnation) (objectIncarnationOf state entry.1.object) entry.2)) ∅
  let totals := state.portRecords.toList.foldl (fun totals entry =>
    entry.2.toList.foldl (fun totals owner =>
      let object := owner.2.value.subject.object
      if owner.2.value.objectIncarnation == objectIncarnationOf state object then totals
      else addFenced totals object owner.2.claimCount) totals) totals
  state.lifecycleRecords.toList.foldl (fun totals entry =>
    addFenced totals entry.1
      (staleCount (·.objectIncarnation) (objectIncarnationOf state entry.1) entry.2)) totals

/-- How many elements of a list satisfy a test, as a counter of the summary. -/
def count64 {α : Type} (l : List α) (p : α → Bool) : UInt64 := UInt64.ofNat (l.countP p)

/-- Every counter is a 64 bit sum of increments. -/
def summarize (ports : List PortView) (objects : List ObjectView) (fenced pending : UInt64) :
    GraphSummary where
  portsUnknown := count64 ports (·.state == .unknown)
  portsEmpty := count64 ports (·.state == .empty)
  portsAttached := count64 ports (·.state == .attached)
  portsConflicting := count64 ports (·.state == .conflicting)
  edges := UInt64.ofNat ((ports.map (·.edges.length)).sum)
  edgesUnvalidated := UInt64.ofNat ((ports.map (·.edges.countP (·.validation != .validated))).sum)
  objectsTotal := UInt64.ofNat objects.length
  objectsRegistered := count64 objects (·.lifecycle == .registered)
  objectsUnattached := count64 objects (·.lifecycle == .unattached)
  objectsAttached := count64 objects (·.lifecycle == .attached)
  objectsQuarantined := count64 objects (·.lifecycle == .quarantined)
  objectsRemoved := count64 objects (·.lifecycle == .removed)
  objectsRetired := count64 objects (·.lifecycle == .retired)
  conflicts := UInt64.ofNat ((ports.map (·.conflicts.length)).sum +
    objects.countP (·.lifecycle == .conflicting) + (objects.map (·.conflicts.length)).sum)
  claimsFenced := fenced
  claimsPending := pending

end CableRegistry
