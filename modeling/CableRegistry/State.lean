import CableRegistry.Evidence

/-!
# The registry state

The state is a set of folded records: for every claim key the registry keeps the
record with the highest generation of that source incarnation, and a bounded
ring of the records it superseded.  A claim key is a pair, an outer key (an
object, a side, a port) and the owner under it.

A `Blur` of a state changes receive times, lifetime flags, drop counts and the
contents of sessions, and nothing else.  `clearVolatile` is one.  What other
modules say about those fields (that they do not influence a decision, that they
do not show in a snapshot) is said with `RegistryState.blur`.
-/

open Std

namespace CableRegistry

/-- Everything the registry knows about how one record was produced. -/
structure Attestation where
  owner : SourceIncarnationKey := {}
  generation : Generation := 0
  evidence : EvidenceId := {}
  observedAt : Timestamp := 0
  receivedAt : Timestamp := 0
  provenance : ProvenanceClass := .unknown
  authority : Authority := {}
  objectIncarnation : ObjectIncarnation := 0
  assertedInLifetime : Bool := false
  deriving Repr, DecidableEq

/-- A claim key's winning record and the ring of the records it superseded. -/
structure Folded (ν : Type) where
  metadata : Attestation
  value : ν
  superseded : List Attestation := []
  historyDropped : UInt32 := 0
  deriving Repr, DecidableEq

structure SourceRecord where
  descriptor : SourceDescriptor := {}
  descriptorIncarnation : Incarnation := 0
  currentIncarnation : Incarnation := 0
  described : Bool := false
  deriving Repr, DecidableEq

structure SessionRecord where
  openedAt : Timestamp := 0
  highWater : Generation := 0
  live : Bool := false
  closed : Bool := false
  accepted : UInt64 := 0
  refused : UInt64 := 0
  duplicates : UInt64 := 0
  missingGenerations : UInt64 := 0
  deriving Repr, DecidableEq

/-- One object side's position, as asserted by one source incarnation. -/
structure SubjectValue where
  objectIncarnation : ObjectIncarnation := 0
  attached : Bool := false
  port : PortRef := {}
  slot : AttachmentSlot := 0
  viaMove : Bool := false
  moveFrom : PortRef := {}
  deriving Repr, DecidableEq

/-- One attachment slot of one port, as asserted by one source incarnation. -/
structure PortValue where
  objectIncarnation : ObjectIncarnation := 0
  empty : Bool := true
  subject : ObjectSideRef := {}
  deriving Repr, DecidableEq

structure LifecycleValue where
  objectIncarnation : ObjectIncarnation := 0
  action : LifecycleAction := .present
  reason : Text := []
  deriving Repr, DecidableEq

structure ReincarnationValue where
  fromIncarnation : ObjectIncarnation := 0
  target : ObjectIncarnation := 0
  serialLike : Text := []
  reason : Text := []
  deriving Repr, DecidableEq

abbrev ObjectCapabilityValue := NominalCapability
abbrev PortCapabilityValue := PortCapability
abbrev ObjectRegistrationValue := ObjectDescriptor
abbrev EndpointRegistrationValue := EndpointDescriptor

/-- The key of one attachment slot record: which source incarnation asserts it, and
which slot of the port it is about. -/
structure PortSlotKey where
  owner : SourceIncarnationKey := {}
  port : PortRef := {}
  slot : AttachmentSlot := 0
  deriving Repr, DecidableEq, Inhabited

namespace PortSlotKey

/-- The port and the slot. -/
def place (k : PortSlotKey) : PortRef × AttachmentSlot := (k.port, k.slot)

instance : Ord (PortRef × AttachmentSlot) := lexOrd

instance : Ord PortSlotKey := ⟨compareLex (compareOn owner) (compareOn place)⟩

instance : TransOrd (PortRef × AttachmentSlot) :=
  inferInstanceAs (TransCmp (compareLex (compareOn Prod.fst) (compareOn Prod.snd)))

instance : LawfulEqOrd (PortRef × AttachmentSlot) :=
  lawfulEqCmp_compareLex (f := Prod.fst) (g := Prod.snd) (by
    rintro ⟨a, b⟩ ⟨c, d⟩ h h'
    simp_all)

instance : TransOrd PortSlotKey :=
  inferInstanceAs (TransCmp (compareLex (compareOn owner) (compareOn place)))

instance : LawfulEqOrd PortSlotKey := lawfulEqCmp_compareLex (by
  rintro ⟨a, b, c⟩ ⟨d, e, f⟩ h h'
  simp_all [place])

end PortSlotKey

/-- Folded records under an outer key and an inner key. -/
abbrev Groups (κ ι ν : Type) [Ord κ] [Ord ι] := OrdMap κ (OrdMap ι (Folded ν))

/-- The records under an outer key, in the order of their owners. -/
def recordsOf {κ ι ν : Type} [Ord κ] [TransOrd κ] [Ord ι] [TransOrd ι] (groups : Groups κ ι ν)
    (key : κ) : List (ι × Folded ν) :=
  match groups[key]? with
  | none => []
  | some owners => owners.toList

structure RegistryState where
  id : RegistryId := {}
  openedAt : Timestamp := 0
  sources : OrdMap SourceId SourceRecord := ∅
  sessions : OrdMap SourceIncarnationKey SessionRecord := ∅
  objectRegistrations : Groups ObjectId SourceIncarnationKey ObjectRegistrationValue := ∅
  endpointRegistrations : Groups EndpointId SourceIncarnationKey EndpointRegistrationValue := ∅
  subjectRecords : Groups ObjectSideRef SourceIncarnationKey SubjectValue := ∅
  portRecords : Groups PortRef PortSlotKey PortValue := ∅
  lifecycleRecords : Groups ObjectId SourceIncarnationKey LifecycleValue := ∅
  reincarnationRecords : Groups ObjectId SourceIncarnationKey ReincarnationValue := ∅
  objectCapabilityRecords : Groups ObjectId SourceIncarnationKey ObjectCapabilityValue := ∅
  portCapabilityRecords : Groups PortRef SourceIncarnationKey PortCapabilityValue := ∅

/-! ### Reading the state -/

/-- A session is fenced once a strictly higher incarnation of the same source exists. -/
def sessionIsFenced (state : RegistryState) (key : SourceIncarnationKey) : Bool :=
  match state.sources[key.source]? with
  | none => false
  | some source => source.currentIncarnation > key.incarnation

/-- The canonical incarnation of a physical object: the highest target asserted by a
reincarnation record that is not fenced, and at least one. -/
def objectIncarnationOf (state : RegistryState) (object : ObjectId) : ObjectIncarnation :=
  match state.reincarnationRecords[object]? with
  | none => 1
  | some owners => owners.toList.foldl (fun current entry =>
      if sessionIsFenced state entry.1 then current
      else if entry.2.value.target > current then entry.2.value.target
      else current) 1

/-- The object has at least one registration record. -/
def objectExists (state : RegistryState) (object : ObjectId) : Bool :=
  match state.objectRegistrations[object]? with
  | none => false
  | some owners => !owners.isEmpty

def endpointExists (state : RegistryState) (endpoint : EndpointId) : Bool :=
  match state.endpointRegistrations[endpoint]? with
  | none => false
  | some owners => !owners.isEmpty

/-- The port count of a registered endpoint, or zero when it is not registered. -/
def endpointPortCount (state : RegistryState) (endpoint : EndpointId) : UInt32 :=
  match state.endpointRegistrations[endpoint]? with
  | none => 0
  | some owners => owners.toList.foldl (fun count entry =>
      if entry.2.value.portCount > count then entry.2.value.portCount else count) 0

/-- The port reference names a port that exists. -/
def portExists (state : RegistryState) (port : PortRef) : Bool :=
  port.index < endpointPortCount state port.endpoint

/-! ### Blurring a state -/

/-- What may be changed in a state without changing which records it holds: receive
times, lifetime flags, drop counts and the contents of sessions. -/
structure Blur where
  receivedAt : Timestamp → Timestamp := id
  asserted : Bool → Bool := id
  dropped : UInt32 → UInt32 := id
  session : SessionRecord → SessionRecord := id

def Attestation.blur (b : Blur) (a : Attestation) : Attestation :=
  { a with
    receivedAt := b.receivedAt a.receivedAt
    assertedInLifetime := b.asserted a.assertedInLifetime }

def Folded.blur {ν : Type} (b : Blur) (r : Folded ν) : Folded ν :=
  { r with
    metadata := r.metadata.blur b
    superseded := r.superseded.map (·.blur b)
    historyDropped := b.dropped r.historyDropped }

/-- Blurs every record under an outer key. -/
def blurOwners {ι ν : Type} [Ord ι] [TransOrd ι] (b : Blur) (owners : OrdMap ι (Folded ν)) :
    OrdMap ι (Folded ν) :=
  ExtTreeMap.map (fun _ r => r.blur b) owners

def blurGroups {κ ι ν : Type} [Ord κ] [Ord ι] [TransOrd κ] [TransOrd ι] (b : Blur)
    (groups : Groups κ ι ν) : Groups κ ι ν :=
  ExtTreeMap.map (fun _ owners => blurOwners b owners) groups

def RegistryState.blur (b : Blur) (s : RegistryState) : RegistryState :=
  { s with
    sessions := ExtTreeMap.map (fun _ session => b.session session) s.sessions
    objectRegistrations := blurGroups b s.objectRegistrations
    endpointRegistrations := blurGroups b s.endpointRegistrations
    subjectRecords := blurGroups b s.subjectRecords
    portRecords := blurGroups b s.portRecords
    lifecycleRecords := blurGroups b s.lifecycleRecords
    reincarnationRecords := blurGroups b s.reincarnationRecords
    objectCapabilityRecords := blurGroups b s.objectCapabilityRecords
    portCapabilityRecords := blurGroups b s.portCapabilityRecords }

/-- Resets everything that is a property of this process rather than of the evidence:
session liveness and per-record lifetime validation. -/
def clearVolatile (state : RegistryState) : RegistryState :=
  state.blur { asserted := fun _ => false, session := fun session => { session with live := false } }

/-! ### What a blur leaves alone -/

section Blurred

variable {κ ι ν : Type} [Ord κ] [TransOrd κ] [Ord ι] [TransOrd ι] (b : Blur)

@[simp] theorem find_blurGroups (groups : Groups κ ι ν) (k : κ) :
    (blurGroups b groups)[k]? = (groups[k]?).map (blurOwners b) := by
  simp [blurGroups]

@[simp] theorem find_blurOwners (owners : OrdMap ι (Folded ν)) (i : ι) :
    (blurOwners b owners)[i]? = (owners[i]?).map (Folded.blur b) := by
  simp [blurOwners]

@[simp] theorem toList_blurOwners (owners : OrdMap ι (Folded ν)) :
    (blurOwners b owners).toList = owners.toList.map (fun e => (e.1, e.2.blur b)) := by
  simp [blurOwners, ExtTreeMap.toList_map]

@[simp] theorem toList_blurGroups (groups : Groups κ ι ν) :
    (blurGroups b groups).toList = groups.toList.map (fun e => (e.1, blurOwners b e.2)) := by
  simp [blurGroups, ExtTreeMap.toList_map]

@[simp] theorem size_blurOwners (owners : OrdMap ι (Folded ν)) :
    (blurOwners b owners).size = owners.size := by
  simp [blurOwners]

@[simp] theorem size_blurGroups (groups : Groups κ ι ν) :
    (blurGroups b groups).size = groups.size := by
  simp [blurGroups]

@[simp] theorem isEmpty_blurOwners (owners : OrdMap ι (Folded ν)) :
    (blurOwners b owners).isEmpty = owners.isEmpty := by
  simp [ExtTreeMap.isEmpty_eq_size_beq_zero]

variable (s : RegistryState)

@[simp] theorem sessionIsFenced_blur (key : SourceIncarnationKey) :
    sessionIsFenced (s.blur b) key = sessionIsFenced s key := rfl

@[simp] theorem objectIncarnationOf_blur (object : ObjectId) :
    objectIncarnationOf (s.blur b) object = objectIncarnationOf s object := by
  simp only [objectIncarnationOf, RegistryState.blur, find_blurGroups]
  cases s.reincarnationRecords[object]? with
  | none => rfl
  | some owners =>
    simp only [Option.map_some, toList_blurOwners, List.foldl_map]
    rfl

@[simp] theorem objectExists_blur (object : ObjectId) :
    objectExists (s.blur b) object = objectExists s object := by
  simp only [objectExists, RegistryState.blur, find_blurGroups]
  cases s.objectRegistrations[object]? <;> simp

@[simp] theorem endpointPortCount_blur (endpoint : EndpointId) :
    endpointPortCount (s.blur b) endpoint = endpointPortCount s endpoint := by
  simp only [endpointPortCount, RegistryState.blur, find_blurGroups]
  cases s.endpointRegistrations[endpoint]? with
  | none => rfl
  | some owners =>
    simp only [Option.map_some, toList_blurOwners, List.foldl_map]
    rfl

@[simp] theorem portExists_blur (port : PortRef) :
    portExists (s.blur b) port = portExists s port := by
  simp [portExists]

end Blurred

end CableRegistry
