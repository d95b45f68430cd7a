import CableRegistry.Serialization
import CableRegistry.State

/-!
# The state image

The encoding of the whole state that compaction writes and recovery loads, its
decoder, and the provenance image that a snapshot's digest is taken over.  The
decoder bounds every count it reads: sources, sessions, outer keys, owners under
a key and the length of a ring.
-/

open Std

namespace CableRegistry

open Decoder

/-! ### Records -/

def encodeOwner (owner : SourceIncarnationKey) : List Write :=
  [.id128 owner.source.value, .u64 owner.incarnation]

def decodeOwner : Decoder SourceIncarnationKey := do
  let source ← strongId
  let incarnation ← u64
  guard (source.isNil = false ∧ incarnation ≠ 0)
  pure ⟨source, incarnation⟩

def encodeAttestation (value : Attestation) : List Write :=
  encodeOwner value.owner ++
    [.u64 value.generation, .id128 value.evidence.value, .i64 value.observedAt, .i64 value.receivedAt,
      .u8 value.provenance.raw, .u8 value.authority.authorityClass.raw, .u32 value.authority.rank,
      .u64 value.objectIncarnation, .boolean value.assertedInLifetime]

def decodeAttestation : Decoder Attestation := do
  let owner ← decodeOwner
  let generation ← u64
  let evidence ← strongId
  let observedAt ← i64
  let receivedAt ← i64
  let provenance ← u8
  let authorityClass ← u8
  let rank ← u32
  let objectIncarnation ← u64
  let assertedInLifetime ← boolean
  guard ((ProvenanceClass.mk provenance).declared ∧ (AuthorityClass.mk authorityClass).declared)
  pure ⟨owner, generation, evidence, observedAt, receivedAt, ⟨provenance⟩, ⟨⟨authorityClass⟩, rank⟩,
    objectIncarnation, assertedInLifetime⟩

def encodeFolded {ν : Type} (encodeValue : ν → List Write) (folded : Folded ν) : List Write :=
  encodeAttestation folded.metadata ++ encodeValue folded.value ++
    [.u32 (UInt32.ofNat folded.superseded.length)] ++ folded.superseded.flatMap encodeAttestation ++
    [.u32 folded.historyDropped]

def decodeFolded {ν : Type} (maxHistory : UInt32) (decodeValue : Decoder ν) : Decoder (Folded ν) := do
  let metadata ← decodeAttestation
  let value ← decodeValue
  let superseded ← decodeVector maxHistory decodeAttestation
  let historyDropped ← u32
  pure ⟨metadata, value, superseded, historyDropped⟩

/-! ### Values -/

def encodeSubjectValue (value : SubjectValue) : List Write :=
  [.u64 value.objectIncarnation, .boolean value.attached] ++ encodePortRef value.port ++
    [.u32 value.slot, .boolean value.viaMove] ++ encodePortRef value.moveFrom

def decodeSubjectValue : Decoder SubjectValue := do
  let objectIncarnation ← u64
  let attached ← boolean
  let port ← decodePortRef
  let slot ← u32
  let viaMove ← boolean
  let moveFrom ← decodePortRef
  guard (objectIncarnation ≠ 0)
  pure ⟨objectIncarnation, attached, port, slot, viaMove, moveFrom⟩

def encodePortValue (value : PortValue) : List Write :=
  [.u64 value.objectIncarnation, .boolean value.empty] ++ encodeObjectSideRef value.subject

def decodePortValue : Decoder PortValue := do
  let objectIncarnation ← u64
  let empty ← boolean
  let subject ← decodeObjectSideRef
  pure ⟨objectIncarnation, empty, subject⟩

def encodeLifecycleValue (limits : Limits) (value : LifecycleValue) : List Write :=
  [.u64 value.objectIncarnation, .u8 value.action.raw, .string value.reason limits.maxStringBytes]

def decodeLifecycleValue (limits : Limits) : Decoder LifecycleValue := do
  let objectIncarnation ← u64
  let action ← u8
  let reason ← string limits.maxStringBytes
  guard (LifecycleAction.mk action).declared
  pure ⟨objectIncarnation, ⟨action⟩, reason⟩

def encodeReincarnationValue (limits : Limits) (value : ReincarnationValue) : List Write :=
  [.u64 value.fromIncarnation, .u64 value.target, .string value.serialLike limits.maxStringBytes,
    .string value.reason limits.maxStringBytes]

def decodeReincarnationValue (limits : Limits) : Decoder ReincarnationValue := do
  let fromIncarnation ← u64
  let target ← u64
  let serialLike ← string limits.maxStringBytes
  let reason ← string limits.maxStringBytes
  guard (fromIncarnation ≠ 0 ∧ target = fromIncarnation + 1)
  pure ⟨fromIncarnation, target, serialLike, reason⟩

def encodeSourceRecord (value : SourceRecord) (limits : Limits) : List Write :=
  encodeSourceDescriptor value.descriptor limits ++
    [.u64 value.descriptorIncarnation, .u64 value.currentIncarnation, .boolean value.described]

def decodeSourceRecord (limits : Limits) : Decoder SourceRecord := do
  let descriptor ← decodeSourceDescriptor limits
  let descriptorIncarnation ← u64
  let currentIncarnation ← u64
  let described ← boolean
  pure ⟨descriptor, descriptorIncarnation, currentIncarnation, described⟩

def encodeSessionRecord (value : SessionRecord) : List Write :=
  [.i64 value.openedAt, .u64 value.highWater, .boolean value.live, .boolean value.closed,
    .u64 value.accepted, .u64 value.refused, .u64 value.duplicates, .u64 value.missingGenerations]

def decodeSessionRecord : Decoder SessionRecord := do
  let openedAt ← i64
  let highWater ← u64
  let live ← boolean
  let closed ← boolean
  let accepted ← u64
  let refused ← u64
  let duplicates ← u64
  let missingGenerations ← u64
  pure ⟨openedAt, highWater, live, closed, accepted, refused, duplicates, missingGenerations⟩

/-! ### Maps -/

/-- A count and the entries of a map, in key order. -/
def encodeMap {κ ν : Type} [Ord κ] [TransOrd κ] (encodeEntry : κ × ν → List Write)
    (m : OrdMap κ ν) : List Write :=
  .u32 (UInt32.ofNat m.size) :: m.toList.flatMap encodeEntry

/-- Entries are emplaced: the first one of a key stays. -/
def emplaceAll {κ ν : Type} [Ord κ] [TransOrd κ] (m : OrdMap κ ν) (entries : List (κ × ν)) :
    OrdMap κ ν :=
  entries.foldl (fun m entry => m.insertIfNew entry.1 entry.2) m

def decodeMap {κ ν : Type} [Ord κ] [TransOrd κ] (maxCount : UInt32) (decodeEntry : Decoder (κ × ν)) :
    Decoder (OrdMap κ ν) :=
  emplaceAll ∅ <$> decodeVector maxCount decodeEntry

/-- How the outer keys, inner keys and values of a group are written and read.  The
reader of an inner key knows the outer one. -/
structure GroupCodec (κ ι ν : Type) where
  encodePrimary : κ → List Write
  decodePrimary : Decoder κ
  encodeInner : ι → List Write
  decodeInner : κ → Decoder ι
  encodeValue : ν → List Write
  decodeValue : Decoder ν

section Groups

variable {κ ι ν : Type} [Ord κ] [TransOrd κ] [Ord ι] [TransOrd ι] (codec : GroupCodec κ ι ν)

def encodeInnerEntry (entry : ι × Folded ν) : List Write :=
  codec.encodeInner entry.1 ++ encodeFolded codec.encodeValue entry.2

def encodePrimaryEntry (entry : κ × OrdMap ι (Folded ν)) : List Write :=
  codec.encodePrimary entry.1 ++ encodeMap (encodeInnerEntry codec) entry.2

def encodeGroup (groups : Groups κ ι ν) : List Write := encodeMap (encodePrimaryEntry codec) groups

def decodeInnerEntry (maxHistory : UInt32) (key : κ) : Decoder (ι × Folded ν) := do
  let inner ← codec.decodeInner key
  let folded ← decodeFolded maxHistory codec.decodeValue
  pure (inner, folded)

def decodePrimaryEntry (maxOwners maxHistory : UInt32) : Decoder (κ × List (ι × Folded ν)) := do
  let key ← codec.decodePrimary
  let owners ← decodeVector maxOwners (decodeInnerEntry codec maxHistory key)
  pure (key, owners)

/-- The owners of one outer key are added to those already read for it. -/
def emplaceGroup (groups : Groups κ ι ν) (entry : κ × List (ι × Folded ν)) : Groups κ ι ν :=
  groups.insert entry.1 (emplaceAll (groups.getD entry.1 ∅) entry.2)

def decodeGroup (maxPrimary maxOwners maxHistory : UInt32) : Decoder (Groups κ ι ν) :=
  List.foldl emplaceGroup ∅ <$> decodeVector maxPrimary (decodePrimaryEntry codec maxOwners maxHistory)

end Groups

/-- The codec of a group keyed by owners. -/
def ownerCodec {κ ν : Type} (encodePrimary : κ → List Write) (decodePrimary : Decoder κ)
    (encodeValue : ν → List Write) (decodeValue : Decoder ν) :
    GroupCodec κ SourceIncarnationKey ν :=
  ⟨encodePrimary, decodePrimary, encodeOwner, fun _ => decodeOwner, encodeValue, decodeValue⟩

def encodeId {tag : IdTag} (id : StrongId tag) : List Write := [.id128 id.value]

def objectRegistrationCodec (limits : Limits) :
    GroupCodec ObjectId SourceIncarnationKey ObjectRegistrationValue :=
  ownerCodec encodeId strongId (encodeObjectDescriptor · limits) (decodeObjectDescriptor limits)

def endpointRegistrationCodec (limits : Limits) :
    GroupCodec EndpointId SourceIncarnationKey EndpointRegistrationValue :=
  ownerCodec encodeId strongId (encodeEndpointDescriptor · limits) (decodeEndpointDescriptor limits)

def subjectCodec : GroupCodec ObjectSideRef SourceIncarnationKey SubjectValue :=
  ownerCodec encodeObjectSideRef decodeObjectSideRef encodeSubjectValue decodeSubjectValue

/-- The port of a slot key is not written: it is the outer key. -/
def portCodec : GroupCodec PortRef PortSlotKey PortValue where
  encodePrimary := encodePortRef
  decodePrimary := decodePortRef
  encodeInner := fun key => encodeOwner key.owner ++ [.u32 key.slot]
  decodeInner := fun port => do
    let owner ← decodeOwner
    let slot ← u32
    pure ⟨owner, port, slot⟩
  encodeValue := encodePortValue
  decodeValue := decodePortValue

def lifecycleCodec (limits : Limits) : GroupCodec ObjectId SourceIncarnationKey LifecycleValue :=
  ownerCodec encodeId strongId (encodeLifecycleValue limits) (decodeLifecycleValue limits)

def reincarnationCodec (limits : Limits) :
    GroupCodec ObjectId SourceIncarnationKey ReincarnationValue :=
  ownerCodec encodeId strongId (encodeReincarnationValue limits) (decodeReincarnationValue limits)

def objectCapabilityCodec (limits : Limits) :
    GroupCodec ObjectId SourceIncarnationKey ObjectCapabilityValue :=
  ownerCodec encodeId strongId (encodeCapability · limits) (decodeCapability limits)

def portCapabilityCodec (limits : Limits) :
    GroupCodec PortRef SourceIncarnationKey PortCapabilityValue :=
  ownerCodec encodePortRef decodePortRef encodePortCapability (decodePortCapability limits)

/-! ### The state -/

def encodeSourceEntry (limits : Limits) (entry : SourceId × SourceRecord) : List Write :=
  encodeId entry.1 ++ encodeSourceRecord entry.2 limits

def decodeSourceEntry (limits : Limits) : Decoder (SourceId × SourceRecord) := do
  let id ← strongId
  let record ← decodeSourceRecord limits
  pure (id, record)

def encodeSessionEntry (entry : SourceIncarnationKey × SessionRecord) : List Write :=
  encodeOwner entry.1 ++ encodeSessionRecord entry.2

def decodeSessionEntry : Decoder (SourceIncarnationKey × SessionRecord) := do
  let owner ← decodeOwner
  let record ← decodeSessionRecord
  pure (owner, record)

def encodeState (state : RegistryState) (limits : Limits) : List Write :=
  [.u32 kStoreFormatVersion, .id128 state.id.value, .i64 state.openedAt] ++
    encodeMap (encodeSourceEntry limits) state.sources ++
    encodeMap encodeSessionEntry state.sessions ++
    encodeGroup (objectRegistrationCodec limits) state.objectRegistrations ++
    encodeGroup (endpointRegistrationCodec limits) state.endpointRegistrations ++
    encodeGroup subjectCodec state.subjectRecords ++
    encodeGroup portCodec state.portRecords ++
    encodeGroup (lifecycleCodec limits) state.lifecycleRecords ++
    encodeGroup (reincarnationCodec limits) state.reincarnationRecords ++
    encodeGroup (objectCapabilityCodec limits) state.objectCapabilityRecords ++
    encodeGroup (portCapabilityCodec limits) state.portCapabilityRecords

/-- The products are taken in 32 bits. -/
def decodeState (limits : Limits) : Decoder RegistryState := do
  let format ← u32
  guard (format = kStoreFormatVersion)
  let id ← strongId
  let openedAt ← i64
  let sources ← decodeMap limits.maxSources (decodeSourceEntry limits)
  let sessions ← decodeMap (limits.maxSources * 64) decodeSessionEntry
  let objectRegistrations ← decodeGroup (objectRegistrationCodec limits) limits.maxObjects
    limits.maxSources limits.maxHistoryPerKey
  let endpointRegistrations ← decodeGroup (endpointRegistrationCodec limits) limits.maxEndpoints
    limits.maxSources limits.maxHistoryPerKey
  let subjectRecords ← decodeGroup subjectCodec (limits.maxObjects * limits.maxSidesPerObject)
    limits.maxSources limits.maxHistoryPerKey
  let portRecords ← decodeGroup portCodec (limits.maxEndpoints * limits.maxPortsPerEndpoint)
    (limits.maxSources * limits.maxPortSimultaneousAttachments) limits.maxHistoryPerKey
  let lifecycleRecords ← decodeGroup (lifecycleCodec limits) limits.maxObjects limits.maxSources
    limits.maxHistoryPerKey
  let reincarnationRecords ← decodeGroup (reincarnationCodec limits) limits.maxObjects
    limits.maxSources limits.maxHistoryPerKey
  let objectCapabilityRecords ← decodeGroup (objectCapabilityCodec limits) limits.maxObjects
    limits.maxSources limits.maxHistoryPerKey
  let portCapabilityRecords ← decodeGroup (portCapabilityCodec limits)
    (limits.maxEndpoints * limits.maxPortsPerEndpoint) limits.maxSources limits.maxHistoryPerKey
  pure ⟨id, openedAt, sources, sessions, objectRegistrations, endpointRegistrations, subjectRecords,
    portRecords, lifecycleRecords, reincarnationRecords, objectCapabilityRecords,
    portCapabilityRecords⟩

/-! ### The provenance image -/

def imageAttestation (value : Attestation) : List Write :=
  encodeOwner value.owner ++
    [.u64 value.generation, .id128 value.evidence.value, .i64 value.observedAt,
      .u8 value.provenance.raw, .u8 value.authority.authorityClass.raw, .u32 value.authority.rank]

/-- An image of a group: its winning records, without rings, receive times or flags. -/
def imageGroup {κ ι ν : Type} [Ord κ] [TransOrd κ] [Ord ι] [TransOrd ι]
    (encodePrimary : κ → List Write) (encodeInner : ι → List Write) (encodeValue : ν → List Write)
    (groups : Groups κ ι ν) : List Write :=
  encodeMap (fun entry => encodePrimary entry.1 ++
    encodeMap (fun folded => imageAttestation folded.2.metadata ++ encodeInner folded.1 ++
      encodeValue folded.2.value) entry.2) groups

def encodeProvenanceImage (state : RegistryState) (limits : Limits) : List Write :=
  let noInner : SourceIncarnationKey → List Write := fun _ => []
  [.u32 kStoreFormatVersion] ++
    imageGroup encodeId noInner (encodeObjectDescriptor · limits) state.objectRegistrations ++
    imageGroup encodeId noInner (encodeEndpointDescriptor · limits) state.endpointRegistrations ++
    imageGroup encodeObjectSideRef noInner encodeSubjectValue state.subjectRecords ++
    imageGroup encodePortRef (fun key => encodeOwner key.owner ++ [.u32 key.slot]) encodePortValue
      state.portRecords ++
    imageGroup encodeId noInner (encodeLifecycleValue limits) state.lifecycleRecords ++
    imageGroup encodeId noInner (encodeReincarnationValue limits) state.reincarnationRecords ++
    imageGroup encodeId noInner (encodeCapability · limits) state.objectCapabilityRecords ++
    imageGroup encodePortRef noInner encodePortCapability state.portCapabilityRecords

end CableRegistry
