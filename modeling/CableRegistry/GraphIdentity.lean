import CableRegistry.Consistency
import CableRegistry.Rearrangements

/-!
# What the two digests stand for

The graph digest is taken over the canonical bytes without the registry identity, the provenance
digest over an image of the winning records.  Hashing apart, does the digest identify what it was
taken of?

* The fields of the image can be told apart, so an image that the encoder wrote gives back, for every
  outer key, what its records say (`sameImage_of_wire`).  An inner key is not written, and neither are
  the receive time, the lifetime flag and the object incarnation of an attestation; in a reachable
  state the owner of a winner is the owner of its key and its incarnation is the one in its value
  (`Grounded.attributed`), so that the winners agree but for receive time and flag.
* An encoder that fails leaves no bytes, and all graphs and all images that it fails on have the same
  digest.  The graph digest is encoded under the default limits, whatever the registry's own limits
  are, so two labels of 257 and of 258 bytes are enough (`long_labels_are_one_graph`).

`graph_identity` is the whole: a reachable graph is the only one with its bytes exactly if it fits.
-/

open Std

namespace CableRegistry

/-! ### Values of the image -/

variable {f : Folded ClaimValue} {limits limits' : Limits} {es es' : List Evidence}
  {s s' : RegistryState}

theorem delimited_id {tag : IdTag} :
    Delimited (2 ^ 32) fun v : StrongId tag => wire (encodeId v) := by
  refine (tells_fields fun _ _ => rfl).delimited ?_
  rintro ⟨id⟩ ⟨id'⟩ h
  simp_all [encodeId, Write.content]

theorem delimited_subjectValue : Delimited (2 ^ 32) fun v => wire (encodeSubjectValue v) := by
  refine (tells_fields fun _ _ => rfl).delimited ?_
  rintro ⟨incarnation, attached, ⟨⟨endpoint⟩, index⟩, slot, viaMove, ⟨⟨origin⟩, originIndex⟩⟩
    ⟨incarnation', attached', ⟨⟨endpoint'⟩, index'⟩, slot', viaMove', ⟨⟨origin'⟩, originIndex'⟩⟩ h
  simp_all [encodeSubjectValue, encodePortRef, Write.content]

theorem delimited_portValue : Delimited (2 ^ 32) fun v => wire (encodePortValue v) := by
  refine (tells_fields fun _ _ => rfl).delimited ?_
  rintro ⟨incarnation, empty, ⟨⟨object⟩, side⟩⟩ ⟨incarnation', empty', ⟨⟨object'⟩, side'⟩⟩ h
  simp_all [encodePortValue, encodeObjectSideRef, Write.content]

theorem delimited_lifecycleValue :
    Delimited (2 ^ 32) fun v => wire (encodeLifecycleValue limits v) := by
  refine (tells_fields fun _ _ => rfl).delimited ?_
  rintro ⟨incarnation, ⟨action⟩, reason⟩ ⟨incarnation', ⟨action'⟩, reason'⟩ h
  simp_all [encodeLifecycleValue, Write.content]

theorem delimited_reincarnationValue :
    Delimited (2 ^ 32) fun v => wire (encodeReincarnationValue limits v) := by
  refine (tells_fields fun _ _ => rfl).delimited ?_
  rintro ⟨fromIncarnation, target, serial, reason⟩ ⟨fromIncarnation', target', serial', reason'⟩ h
  simp_all [encodeReincarnationValue, Write.content]

theorem delimited_endpointDescriptor :
    Delimited (2 ^ 32) fun v => wire (encodeEndpointDescriptor v limits) := by
  refine (tells_append (tells_fields fun _ _ => rfl)
    (delimited_portCapability.tells EndpointDescriptor.defaultPortCapability)).delimited ?_
  rintro ⟨⟨id⟩, ⟨kind⟩, name, location, portCount, capability⟩
    ⟨⟨id'⟩, ⟨kind'⟩, name', location', portCount', capability'⟩ h
  simp_all [Write.content]

theorem delimited_objectDescriptor :
    Delimited (2 ^ 32) fun v => wire (encodeObjectDescriptor v limits) := by
  -- the sides of a descriptor are a list as any other, in the middle of the record
  have htells := tells_append (tells_append
    (@tells_fields ObjectDescriptor (fun v => [.id128 v.id.value, .u8 v.kind.raw,
      .string v.physicalLabel limits.maxStringBytes, .string v.serialLike limits.maxStringBytes,
      .string v.administrativeLocation limits.maxStringBytes]) fun _ _ => rfl)
    (delimited_sides.tells ObjectDescriptor.sides))
    ((@delimited_capability limits).tells ObjectDescriptor.capability)
  refine Tells.delimited htells ?_
  rintro ⟨⟨id⟩, ⟨kind⟩, label, serial, location, sides, capability⟩
    ⟨⟨id'⟩, ⟨kind'⟩, label', serial', location', sides', capability'⟩ h
  simp_all [Write.content]

/-! ### Groups of the image -/

/-- What the image keeps of an attestation: the fields of a claim. -/
def Attestation.claim (m : Attestation) : SnapshotClaim :=
  ⟨m.owner.source, m.owner.incarnation, m.generation, m.evidence, m.observedAt, m.provenance,
    m.authority⟩

theorem imageAttestation_eq (m : Attestation) : imageAttestation m = encodeClaim m.claim := rfl

def encodeImageRecord {ι' ν : Type} (encodeInner : ι' → List Write) (encodeValue : ν → List Write)
    (record : SnapshotClaim × ι' × ν) : List Write :=
  encodeClaim record.1 ++ encodeInner record.2.1 ++ encodeValue record.2.2

def encodeImageEntry {κ ι' ν : Type} (encodePrimary : κ → List Write) (encodeInner : ι' → List Write)
    (encodeValue : ν → List Write) (entry : κ × List (SnapshotClaim × ι' × ν)) : List Write :=
  encodePrimary entry.1 ++ encodeList (encodeImageRecord encodeInner encodeValue) entry.2

theorem delimited_image {κ ι' ν : Type} {encodePrimary : κ → List Write} {encodeInner : ι' → List Write}
    {encodeValue : ν → List Write} (hne : ∀ k, encodePrimary k ≠ [])
    (hprimary : Delimited (2 ^ 32) fun k => wire (encodePrimary k))
    (hinner : Delimited (2 ^ 32) fun i => wire (encodeInner i))
    (hvalue : Delimited (2 ^ 32) fun v => wire (encodeValue v)) :
    Delimited (2 ^ 32) fun l =>
      wire (encodeList (encodeImageEntry encodePrimary encodeInner encodeValue) l) := by
  have hrecord : Delimited (2 ^ 32) fun r => wire (encodeImageRecord encodeInner encodeValue r) := by
    have htells := tells_append (tells_append
      (delimited_claim.tells fun r : SnapshotClaim × ι' × ν => r.1) (hinner.tells fun r => r.2.1))
      (hvalue.tells fun r => r.2.2)
    refine Tells.delimited htells ?_
    rintro ⟨claim, i, v⟩ ⟨claim', i', v'⟩ h
    simp_all
  have hrecords := delimited_list (fun _ => List.cons_ne_nil _ _) hrecord
  have htells := tells_append
    (hprimary.tells fun e : κ × List (SnapshotClaim × ι' × ν) => e.1) (hrecords.tells fun e => e.2)
  exact delimited_list (fun e h => hne e.1 (List.append_eq_nil_iff.mp h).1)
    (Tells.delimited htells fun _ _ h => h)

section Groups

variable {κ ι ι' ν : Type} [Ord κ] [TransOrd κ] [Ord ι] [TransOrd ι]

/-- What the image says of a group.  Of an inner key it keeps what `inner` gives. -/
def imageRecords (inner : ι → ι') (groups : Groups κ ι ν) :
    List (κ × List (SnapshotClaim × ι' × ν)) :=
  groups.toList.map fun entry =>
    (entry.1, entry.2.toList.map fun folded => (folded.2.metadata.claim, inner folded.1, folded.2.value))

theorem wire_encodeMap {α β : Type} [Ord α] [TransOrd α] {γ : Type} {enc : α × β → List Write}
    {enc' : γ → List Write} {f : α × β → γ} (h : ∀ e, wire (enc e) = wire (enc' (f e)))
    (m : OrdMap α β) : wire (encodeMap enc m) = wire (encodeList enc' (m.toList.map f)) := by
  simp only [encodeMap, encodeList, wire_cons, wire_flatMap, List.flatMap_map, List.length_map,
    ExtTreeMap.length_toList, h]

/-- **The bytes of a group's image are those of its records.** -/
theorem wire_imageGroup {encodePrimary : κ → List Write} {encodeInner : ι → List Write}
    {encodeInner' : ι' → List Write} {encodeValue encodeValue' : ν → List Write} {inner : ι → ι'}
    (hinner : ∀ i, encodeInner i = encodeInner' (inner i))
    (hvalue : ∀ v, wire (encodeValue v) = wire (encodeValue' v)) (groups : Groups κ ι ν) :
    wire (imageGroup encodePrimary encodeInner encodeValue groups) =
      wire (encodeList (encodeImageEntry encodePrimary encodeInner' encodeValue')
        (imageRecords inner groups)) := by
  refine wire_encodeMap (fun entry => ?_) groups
  rw [encodeImageEntry, wire_append, wire_append]
  congr 1
  refine wire_encodeMap (fun folded => ?_) entry.2
  simp only [encodeImageRecord, wire_append, imageAttestation_eq, hinner, hvalue]

variable [LawfulEqOrd κ] [LawfulEqOrd ι]

theorem find₂_eq_some_iff {groups : OrdMap κ (OrdMap ι ν)} {k : κ} {i : ι} {r : ν} :
    OrdMap.find₂ groups k i = some r ↔ ∃ g, (k, g) ∈ groups.toList ∧ (i, r) ∈ g.toList := by
  simp only [OrdMap.mem_toList, OrdMap.find₂, Option.bind_eq_some_iff]

/-- **Groups with one image find the same claim and the same value under every key**, as far as an
inner key can be told from its outer key, the claim and what the image keeps of it. -/
theorem find₂_of_imageRecords {inner : ι → ι'} {name : κ → SnapshotClaim → ι' → ι}
    {groups groups' : Groups κ ι ν}
    (hname : ∀ k i r, OrdMap.find₂ groups k i = some r → i = name k r.metadata.claim (inner i))
    (hname' : ∀ k i r, OrdMap.find₂ groups' k i = some r → i = name k r.metadata.claim (inner i))
    (h : imageRecords inner groups = imageRecords inner groups') {k : κ} {i : ι} {r : Folded ν}
    (hr : OrdMap.find₂ groups k i = some r) : ∃ r', OrdMap.find₂ groups' k i = some r' ∧
      r'.metadata.claim = r.metadata.claim ∧ r'.value = r.value := by
  obtain ⟨g, hg, hi⟩ := find₂_eq_some_iff.mp hr
  have hmem := List.mem_map_of_mem (f := fun entry : κ × OrdMap ι (Folded ν) => (entry.1,
    entry.2.toList.map fun folded => (folded.2.metadata.claim, inner folded.1, folded.2.value))) hg
  rw [show groups.toList.map _ = imageRecords inner groups from rfl, h] at hmem
  obtain ⟨⟨k', g'⟩, hg', heq⟩ := List.mem_map.mp hmem
  obtain ⟨hk, hlist⟩ := Prod.mk.inj heq
  dsimp only at hk hlist
  subst hk
  have hmem' := List.mem_map_of_mem (f := fun folded : ι × Folded ν =>
    (folded.2.metadata.claim, inner folded.1, folded.2.value)) hi
  rw [← hlist] at hmem'
  obtain ⟨⟨i', r'⟩, hi', heq'⟩ := List.mem_map.mp hmem'
  simp only [Prod.mk.injEq] at heq'
  obtain ⟨hclaim, hinner, hvalue⟩ := heq'
  have hr' := find₂_eq_some_iff.mpr ⟨g', hg', hi'⟩
  have hi'' : i' = i := by
    rw [hname' _ _ _ hr', hclaim, hinner, ← hname _ _ _ hr]
  subst hi''
  exact ⟨r', hr', hclaim, hvalue⟩

end Groups

/-! ### The image of a state -/

/-- Of the key of an owner the image keeps nothing: the claim names the owner. -/
def noInner (_ : SourceIncarnationKey) : Unit := ()

/-- Of the key of a slot the image keeps the owner and the slot. -/
def slotInner (key : PortSlotKey) : SourceIncarnationKey × AttachmentSlot := (key.owner, key.slot)

def encodeNothing (_ : Unit) : List Write := []

def encodeSlotInner (key : SourceIncarnationKey × AttachmentSlot) : List Write :=
  encodeOwner key.1 ++ [.u32 key.2]

theorem delimited_slotInner : Delimited (2 ^ 32) fun v => wire (encodeSlotInner v) := by
  refine (tells_fields fun _ _ => rfl).delimited ?_
  rintro ⟨⟨⟨source⟩, incarnation⟩, slot⟩ ⟨⟨⟨source'⟩, incarnation'⟩, slot'⟩ h
  simp_all [encodeSlotInner, encodeOwner, Write.content]

/-- The images of the two states say the same. -/
structure SameImage (s s' : RegistryState) : Prop where
  objectRegistrations :
    imageRecords noInner s.objectRegistrations = imageRecords noInner s'.objectRegistrations
  endpointRegistrations :
    imageRecords noInner s.endpointRegistrations = imageRecords noInner s'.endpointRegistrations
  subjectRecords : imageRecords noInner s.subjectRecords = imageRecords noInner s'.subjectRecords
  portRecords : imageRecords slotInner s.portRecords = imageRecords slotInner s'.portRecords
  lifecycleRecords : imageRecords noInner s.lifecycleRecords = imageRecords noInner s'.lifecycleRecords
  reincarnationRecords :
    imageRecords noInner s.reincarnationRecords = imageRecords noInner s'.reincarnationRecords
  objectCapabilityRecords :
    imageRecords noInner s.objectCapabilityRecords = imageRecords noInner s'.objectCapabilityRecords
  portCapabilityRecords :
    imageRecords noInner s.portCapabilityRecords = imageRecords noInner s'.portCapabilityRecords

/-- The bytes of a group whose inner keys are owners. -/
def ownerImage {κ ν : Type} [Ord κ] [TransOrd κ] (encodePrimary : κ → List Write)
    (encodeValue : ν → List Write) (groups : Groups κ SourceIncarnationKey ν) : List UInt8 :=
  wire (encodeList (encodeImageEntry encodePrimary encodeNothing encodeValue)
    (imageRecords noInner groups))

theorem wire_ownerGroup {κ ν : Type} [Ord κ] [TransOrd κ] {encodePrimary : κ → List Write}
    {encodeValue encodeValue' : ν → List Write} (h : ∀ v, wire (encodeValue v) = wire (encodeValue' v))
    (groups : Groups κ SourceIncarnationKey ν) :
    wire (imageGroup encodePrimary (fun _ => []) encodeValue groups) =
      ownerImage encodePrimary encodeValue' groups := by
  have hnone : ∀ i : SourceIncarnationKey, ([] : List Write) = encodeNothing (noInner i) := fun _ => rfl
  exact wire_imageGroup hnone h groups

/-- The limits bound what is written; they do not change how it is written. -/
theorem wire_encodeProvenanceImage (s : RegistryState) (limits : Limits) :
    wire (encodeProvenanceImage s limits) = (Write.u32 kStoreFormatVersion).toBytes ++
      (ownerImage encodeId (encodeObjectDescriptor · {}) s.objectRegistrations ++
      (ownerImage encodeId (encodeEndpointDescriptor · {}) s.endpointRegistrations ++
      (ownerImage encodeObjectSideRef encodeSubjectValue s.subjectRecords ++
      (wire (encodeList (encodeImageEntry encodePortRef encodeSlotInner encodePortValue)
        (imageRecords slotInner s.portRecords)) ++
      (ownerImage encodeId (encodeLifecycleValue {}) s.lifecycleRecords ++
      (ownerImage encodeId (encodeReincarnationValue {}) s.reincarnationRecords ++
      (ownerImage encodeId (encodeCapability · {}) s.objectCapabilityRecords ++
      (ownerImage encodePortRef encodePortCapability s.portCapabilityRecords ++ [])))))))) := by
  have hobject : ∀ v, wire (encodeObjectDescriptor v limits) = wire (encodeObjectDescriptor v {}) := by
    intro v
    simp only [encodeObjectDescriptor, encodeCapability, wire_append, wire_cons, Write.toBytes]
  have hendpoint : ∀ v, wire (encodeEndpointDescriptor v limits) = wire (encodeEndpointDescriptor v {}) :=
    fun _ => rfl
  have hlifecycle : ∀ v, wire (encodeLifecycleValue limits v) = wire (encodeLifecycleValue {} v) :=
    fun _ => rfl
  have hreincarnation : ∀ v,
      wire (encodeReincarnationValue limits v) = wire (encodeReincarnationValue {} v) := fun _ => rfl
  have hcapability : ∀ v, wire (encodeCapability v limits) = wire (encodeCapability v {}) := fun _ => rfl
  have hslot : ∀ key : PortSlotKey,
      encodeOwner key.owner ++ [.u32 key.slot] = encodeSlotInner (slotInner key) := fun _ => rfl
  simp only [encodeProvenanceImage, wire_append, wire_cons, wire_nil, List.append_nil,
    List.append_assoc]
  rw [wire_ownerGroup hobject, wire_ownerGroup hendpoint, wire_ownerGroup fun _ => rfl,
    wire_imageGroup hslot fun _ => rfl, wire_ownerGroup hlifecycle, wire_ownerGroup hreincarnation,
    wire_ownerGroup hcapability, wire_ownerGroup fun _ => rfl]

theorem ownerImage_inj {κ ν : Type} [Ord κ] [TransOrd κ] {encodePrimary : κ → List Write}
    {encodeValue : ν → List Write} (hne : ∀ k, encodePrimary k ≠ [])
    (hprimary : Delimited (2 ^ 32) fun k => wire (encodePrimary k))
    (hvalue : Delimited (2 ^ 32) fun v => wire (encodeValue v))
    {groups groups' : Groups κ SourceIncarnationKey ν} {rest rest' : List UInt8}
    (hlen : (ownerImage encodePrimary encodeValue groups).length < 2 ^ 32)
    (hlen' : (ownerImage encodePrimary encodeValue groups').length < 2 ^ 32)
    (h : ownerImage encodePrimary encodeValue groups ++ rest =
      ownerImage encodePrimary encodeValue groups' ++ rest') :
    imageRecords noInner groups = imageRecords noInner groups' ∧ rest = rest' := by
  have hinner : Delimited (2 ^ 32) fun i => wire (encodeNothing i) := fun _ _ _ _ _ _ h => ⟨rfl, h⟩
  exact delimited_image hne hprimary hinner hvalue _ _ _ _ hlen hlen' h

/-- **Images that are written as the same bytes say the same.** -/
theorem sameImage_of_wire (hlen : (wire (encodeProvenanceImage s limits)).length < 2 ^ 32)
    (hlen' : (wire (encodeProvenanceImage s' limits')).length < 2 ^ 32)
    (h : wire (encodeProvenanceImage s limits) = wire (encodeProvenanceImage s' limits')) :
    SameImage s s' := by
  rw [wire_encodeProvenanceImage] at h hlen hlen'
  rw [wire_encodeProvenanceImage] at h
  simp only [List.length_append] at hlen hlen'
  obtain ⟨-, h⟩ := eq_of_append_of_length (by simp [Write.toBytes]) h
  have hid {tag : IdTag} (k : StrongId tag) : encodeId k ≠ [] := List.cons_ne_nil _ _
  have hside (k : ObjectSideRef) : encodeObjectSideRef k ≠ [] := List.cons_ne_nil _ _
  have hport (k : PortRef) : encodePortRef k ≠ [] := List.cons_ne_nil _ _
  obtain ⟨hobjects, h⟩ :=
    ownerImage_inj hid delimited_id delimited_objectDescriptor (by omega) (by omega) h
  obtain ⟨hendpoints, h⟩ :=
    ownerImage_inj hid delimited_id delimited_endpointDescriptor (by omega) (by omega) h
  obtain ⟨hsubjects, h⟩ :=
    ownerImage_inj hside delimited_objectSideRef delimited_subjectValue (by omega) (by omega) h
  obtain ⟨hports, h⟩ := delimited_image hport delimited_portRef delimited_slotInner delimited_portValue
    _ _ _ _ (by dsimp only; omega) (by dsimp only; omega) h
  obtain ⟨hlifecycles, h⟩ :=
    ownerImage_inj hid delimited_id delimited_lifecycleValue (by omega) (by omega) h
  obtain ⟨hreincarnations, h⟩ :=
    ownerImage_inj hid delimited_id delimited_reincarnationValue (by omega) (by omega) h
  obtain ⟨hcapabilities, h⟩ :=
    ownerImage_inj hid delimited_id delimited_capability (by omega) (by omega) h
  obtain ⟨hportCapabilities, -⟩ :=
    ownerImage_inj hport delimited_portRef delimited_portCapability (by omega) (by omega) h
  exact ⟨hobjects, hendpoints, hsubjects, hports, hlifecycles, hreincarnations, hcapabilities,
    hportCapabilities⟩

/-! ### Winning records -/

/-- **A winner belongs to the owner of its key, and its incarnation is the one in its value.** -/
theorem Grounded.attributed (h : Grounded limits es s) {k : ClaimKey} (hf : s.lookup k = some f) :
    f.metadata.owner = k.owner ∧ f.metadata.objectIncarnation = f.value.objectIncarnation := by
  have hw : s.winner k = some (f.metadata.blur coreBlur, f.value) := by
    rw [RegistryState.winner, hf]
    rfl
  obtain ⟨e, -, u, hu, hkey, hvalue, authority, t, hm⟩ := h.source k _ _ hw
  have howner : f.metadata.owner = e.key := congrArg Attestation.owner hm
  have hincarnation : f.metadata.objectIncarnation = objectIncarnationOfEvidence e.payload :=
    congrArg Attestation.objectIncarnation hm
  rw [howner, hincarnation, (claimsOf_spec hu).2, hvalue, ← hkey, (claimsOf_spec hu).1]
  exact ⟨rfl, rfl⟩

/-- The winning record of a claim key, without its receive time and its lifetime flag. -/
def RegistryState.winning (s : RegistryState) (k : ClaimKey) : Option (Attestation × ClaimValue) :=
  (s.lookup k).map fun f =>
    ({ f.metadata with receivedAt := 0, assertedInLifetime := false }, f.value)

section Lookup

variable {κ ι ι' ν : Type} [Ord κ] [TransOrd κ] [Ord ι] [TransOrd ι]

/-- What a group finds under a key, as a record of a state. -/
theorem lookup_of_imageRecords [LawfulEqOrd κ] [LawfulEqOrd ι] {inner : ι → ι'}
    {name : κ → SnapshotClaim → ι' → ι} {groups groups' : Groups κ ι ν} {wrap : ν → ClaimValue}
    (hname : ∀ k i r, OrdMap.find₂ groups k i = some r → i = name k r.metadata.claim (inner i))
    (hname' : ∀ k i r, OrdMap.find₂ groups' k i = some r → i = name k r.metadata.claim (inner i))
    (h : imageRecords inner groups = imageRecords inner groups') {k : κ} {i : ι}
    (hf : (OrdMap.find₂ groups k i).map (.mapValue wrap) = some f) :
    ∃ f', (OrdMap.find₂ groups' k i).map (Folded.mapValue wrap) = some f' ∧
      f'.metadata.claim = f.metadata.claim ∧ f'.value = f.value := by
  obtain ⟨r, hr, rfl⟩ := Option.map_eq_some_iff.mp hf
  obtain ⟨r', hr', hclaim, hvalue⟩ := find₂_of_imageRecords hname hname' h hr
  exact ⟨r'.mapValue wrap, by rw [hr', Option.map_some], hclaim, congrArg wrap hvalue⟩

/-- The owner a claim names. -/
def ownerName (_ : κ) (claim : SnapshotClaim) (_ : Unit) : SourceIncarnationKey :=
  ⟨claim.source, claim.incarnation⟩

/-- The same for a map of states whose inner keys are owners: there a claim names its key. -/
theorem lookup_of_ownerRecords [LawfulEqOrd κ] {groups : RegistryState → Groups κ SourceIncarnationKey ν}
    {wrap : ν → ClaimValue} {key : κ → SourceIncarnationKey → ClaimKey}
    (hlookup : ∀ s k i, s.lookup (key k i) = (OrdMap.find₂ (groups s) k i).map (.mapValue wrap))
    (howner : ∀ k i, (key k i).owner = i) (hg : Grounded limits es s) (hg' : Grounded limits' es' s')
    (h : imageRecords noInner (groups s) = imageRecords noInner (groups s')) {k : κ}
    {i : SourceIncarnationKey} (hf : s.lookup (key k i) = some f) :
    ∃ f', s'.lookup (key k i) = some f' ∧ f'.metadata.claim = f.metadata.claim ∧ f'.value = f.value := by
  have hname {limits es s} (hg : Grounded limits es s) (k i r)
      (hr : OrdMap.find₂ (groups s) k i = some r) : i = ownerName k r.metadata.claim (noInner i) := by
    have hf : s.lookup (key k i) = some (r.mapValue wrap) := by
      rw [hlookup, hr, Option.map_some]
    exact ((hg.attributed hf).1.trans (howner k i)).symm
  rw [hlookup] at hf ⊢
  exact lookup_of_imageRecords (hname hg) (hname hg') h hf

end Lookup

/-- The key of a slot, from its port, its owner and the slot. -/
def slotName (port : PortRef) (_ : SnapshotClaim) (i : SourceIncarnationKey × AttachmentSlot) :
    PortSlotKey := ⟨i.1, port, i.2⟩

theorem slot_named (hk : WellKeyed s) :
    ∀ p key r, OrdMap.find₂ s.portRecords p key = some r →
      key = slotName p r.metadata.claim (slotInner key) := by
  intro p key r hr
  have hport := hk.port_eq p key r hr
  subst hport
  rfl

/-- **States whose images say the same find the same claim and value under every key.** -/
theorem SameImage.lookup (h : SameImage s s') (hg : Grounded limits es s)
    (hg' : Grounded limits' es' s') (hk : WellKeyed s) (hk' : WellKeyed s') {k : ClaimKey}
    (hf : s.lookup k = some f) : ∃ f', s'.lookup k = some f' ∧
      f'.metadata.claim = f.metadata.claim ∧ f'.value = f.value := by
  cases k with
  | objectRegistration object owner =>
    exact lookup_of_ownerRecords (fun _ _ _ => rfl) (fun _ _ => rfl) hg hg' h.objectRegistrations hf
  | endpointRegistration endpoint owner =>
    exact lookup_of_ownerRecords (fun _ _ _ => rfl) (fun _ _ => rfl) hg hg' h.endpointRegistrations hf
  | subject side owner =>
    exact lookup_of_ownerRecords (fun _ _ _ => rfl) (fun _ _ => rfl) hg hg' h.subjectRecords hf
  | port key => exact lookup_of_imageRecords (slot_named hk) (slot_named hk') h.portRecords hf
  | lifecycle object owner =>
    exact lookup_of_ownerRecords (fun _ _ _ => rfl) (fun _ _ => rfl) hg hg' h.lifecycleRecords hf
  | reincarnation object owner =>
    exact lookup_of_ownerRecords (fun _ _ _ => rfl) (fun _ _ => rfl) hg hg' h.reincarnationRecords hf
  | objectCapability object owner =>
    exact lookup_of_ownerRecords (fun _ _ _ => rfl) (fun _ _ => rfl) hg hg' h.objectCapabilityRecords hf
  | portCapability port owner =>
    exact lookup_of_ownerRecords (fun _ _ _ => rfl) (fun _ _ => rfl) hg hg' h.portCapabilityRecords hf

theorem attestation_eq_of_claim {m m' : Attestation} (hclaim : m.claim = m'.claim)
    (hincarnation : m.objectIncarnation = m'.objectIncarnation) :
    { m with receivedAt := 0, assertedInLifetime := false } =
      { m' with receivedAt := 0, assertedInLifetime := false } := by
  obtain ⟨⟨source, incarnation⟩, generation, evidence, observed, received, provenance, authority,
    object, asserted⟩ := m
  obtain ⟨⟨source', incarnation'⟩, generation', evidence', observed', received', provenance', authority',
    object', asserted'⟩ := m'
  simp only [Attestation.claim, SnapshotClaim.mk.injEq] at hclaim hincarnation
  obtain ⟨rfl, rfl, rfl, rfl, rfl, rfl, rfl⟩ := hclaim
  subst hincarnation
  rfl

/-- **Grounded states whose images say the same have the same winning records.** -/
theorem SameImage.winning_eq (h : SameImage s s') (hg : Grounded limits es s)
    (hg' : Grounded limits' es' s') (hk : WellKeyed s) (hk' : WellKeyed s') (k : ClaimKey) :
    s.winning k = s'.winning k := by
  have hsymm : SameImage s' s := ⟨h.1.symm, h.2.symm, h.3.symm, h.4.symm, h.5.symm, h.6.symm,
    h.7.symm, h.8.symm⟩
  unfold RegistryState.winning
  cases hf : s.lookup k with
  | none =>
    cases hf' : s'.lookup k with
    | none => rfl
    | some f' =>
      obtain ⟨f, hsome, -⟩ := hsymm.lookup hg' hg hk' hk hf'
      exact absurd (hf.symm.trans hsome) (by simp)
  | some f =>
    obtain ⟨f', hf', hclaim, hvalue⟩ := h.lookup hg hg' hk hk' hf
    have hincarnation : f.metadata.objectIncarnation = f'.metadata.objectIncarnation := by
      rw [(hg.attributed hf).2, (hg'.attributed hf').2, hvalue]
    rw [hf', Option.map_some, Option.map_some, attestation_eq_of_claim hclaim.symm hincarnation, hvalue]

/-! ### The bytes that are hashed -/

/-- The bytes that the graph digest is taken of. -/
def TopologySnapshot.graphBytes (s : TopologySnapshot) : List UInt8 := encodeSnapshotBytes s false {}

/-- The texts of the snapshot are within the default bounds, and its fields without the registry
identity take up no more than the ceiling on one encoded buffer. -/
def TopologySnapshot.GraphFits (s : TopologySnapshot) : Prop :=
  (∀ w ∈ snapshotFields false {} s, w.Fits) ∧
    (wire (snapshotFields false {} s)).length ≤ Encoder.kMaxEncodedBytes

/-- The bytes that the provenance digest is taken of. -/
def Registry.provenanceBytes (r : Registry) : List UInt8 :=
  (Encoder.run (encodeProvenanceImage r.state r.limits)).buffer

/-- The texts of the winning records are within the registry's bounds, and their image takes up no
more than the ceiling on one encoded buffer. -/
def Registry.ImageFits (r : Registry) : Prop :=
  (∀ w ∈ encodeProvenanceImage r.state r.limits, w.Fits) ∧
    (wire (encodeProvenanceImage r.state r.limits)).length ≤ Encoder.kMaxEncodedBytes

/-- The snapshot in canonical order, without the identity of the registry. -/
def TopologySnapshot.graph (s : TopologySnapshot) : TopologySnapshot :=
  { canonicalise s with registry := {} }

open Classical in
theorem graphBytes_eq (s : TopologySnapshot) :
    s.graphBytes = if s.GraphFits then wire (snapshotFields false {} (canonicalise s)) else [] := by
  rw [TopologySnapshot.graphBytes, encodeSnapshotBytes, encodeSnapshot_eq, Encoder.run_eq]
  have hiff := fits_perm (snapshotFields_perm (rearranges_canonicalise s) false {})
  by_cases h : s.GraphFits
  · rw [if_pos h, if_pos (hiff.mp h)]
    rfl
  · rw [if_neg h, if_neg fun hfits => h (hiff.mpr hfits)]
    rfl

open Classical in
theorem provenanceBytes_eq (r : Registry) :
    r.provenanceBytes = if r.ImageFits then wire (encodeProvenanceImage r.state r.limits) else [] := by
  rw [Registry.provenanceBytes, Encoder.run_eq]
  by_cases h : r.ImageFits
  · rw [if_pos h]
    unfold Registry.ImageFits at h
    rw [if_pos h]
  · rw [if_neg h]
    unfold Registry.ImageFits at h
    rw [if_neg h]

/-- **A graph that fits is the only one with its bytes.** -/
theorem graph_eq_of_graphBytes {s s' : TopologySnapshot} (hs : s.GraphFits)
    (h : s.graphBytes = s'.graphBytes) : s.graph = s'.graph := by
  rw [graphBytes_eq, graphBytes_eq, if_pos hs] at h
  have hlt : Encoder.kMaxEncodedBytes < 2 ^ 32 := by decide
  have hperm : ∀ s : TopologySnapshot, s.GraphFits ↔ _ := fun s =>
    fits_perm (snapshotFields_perm (rearranges_canonicalise s) false {})
  by_cases hs' : s'.GraphFits
  · rw [if_pos hs'] at h
    have hlen := ((hperm s).mp hs).2
    have hlen' := ((hperm s').mp hs').2
    obtain ⟨-, hrest⟩ := snapshotFields_injective (by omega) (by omega) h
    rw [TopologySnapshot.graph, TopologySnapshot.graph, ← hrest]
  · rw [if_neg hs'] at h
    exact absurd h (List.ne_nil_of_length_pos (length_wire_pos (List.cons_ne_nil _ _)))

/-- **An image that fits is the only one with its bytes.** -/
theorem sameImage_of_provenanceBytes {r r' : Registry} (hr : r.ImageFits)
    (h : r.provenanceBytes = r'.provenanceBytes) : SameImage r.state r'.state := by
  rw [provenanceBytes_eq, provenanceBytes_eq, if_pos hr] at h
  have hlt : Encoder.kMaxEncodedBytes < 2 ^ 32 := by decide
  by_cases hr' : r'.ImageFits
  · rw [if_pos hr'] at h
    exact sameImage_of_wire (Nat.lt_of_le_of_lt hr.2 hlt) (Nat.lt_of_le_of_lt hr'.2 hlt) h
  · rw [if_neg hr'] at h
    exact absurd h (List.ne_nil_of_length_pos (length_wire_pos (List.cons_ne_nil _ _)))

/-! ### Labels beyond the default bound -/

/-- The options of a registry that admits longer texts than the default limits do. -/
def longTextOptions : RegistryOptions := { limits := { maxStringBytes := 300 } }

/-- A source registers an object with a label of the given length. -/
def longLabelRequests (n : Nat) : List Request :=
  [Registry.sampleOpen 1 1 0, Registry.sampleIngest 1 1 1 (.registerObject
    { descriptor := { id := .fromParts 0 9, physicalLabel := List.replicate n 97, sides := [{}] } })]

/-- The lengths of the labels in a graph. -/
def TopologySnapshot.labelLengths (s : TopologySnapshot) : List Nat :=
  s.graph.objects.map fun o => o.physicalLabel.length

theorem exists_longLabel {n : Nat} (hn : n = 257 ∨ n = 258) : ∃ r es,
    Registry.ReachedBy r longTextOptions (longLabelRequests n) es ∧ r.snapshot.labelLengths = [n] := by
  obtain ⟨r, es, hr, hlabel⟩ := Registry.exists_reached longTextOptions (longLabelRequests n)
    (fun r _ => r.snapshot.labelLengths == [n]) (by rcases hn with rfl | rfl <;> decide +kernel)
  exact ⟨r, es, hr, beq_iff_eq.mp hlabel⟩

theorem not_graphFits_of_label {s : TopologySnapshot} {n : Nat} (hn : 256 < n)
    (h : s.labelLengths = [n]) : ¬ s.GraphFits := by
  intro hfits
  have hfields := ((fits_perm (snapshotFields_perm (rearranges_canonicalise s) false {})).mp hfits).1
  simp only [snapshotFields, List.forall_mem_append] at hfields
  obtain ⟨⟨⟨⟨⟨-, hobjects⟩, -⟩, -⟩, -⟩, -⟩ := hfields
  have hmem : n ∈ s.labelLengths := by simp [h]
  obtain ⟨o, ho, hlength⟩ := List.mem_map.mp hmem
  have hlabel := fits_of_encodeList hobjects o ho (.string o.physicalLabel 256) (by simp [encodeObject])
  have hle : o.physicalLabel.length ≤ 256 := hlabel
  omega

/-- **What the digests identify.**  A reachable graph is the only reachable graph with its bytes, the
registry identity aside, exactly if it fits into the encoder under the default limits.  Where the image of the winning records fits under the registry's own limits, every reachable
state with the same image bytes has the same winning record under every key, but for receive time and
lifetime flag. -/
theorem graph_identity {r : Registry} {options : RegistryOptions} {requests : List Request}
    {es : List Evidence} (h : r.ReachedBy options requests es) :
    ((∀ r' options' requests' es', Registry.ReachedBy r' options' requests' es' →
      r.snapshot.graphBytes = r'.snapshot.graphBytes → r.snapshot.graph = r'.snapshot.graph) ↔
        r.snapshot.GraphFits) ∧
      (r.ImageFits → ∀ r' options' requests' es', Registry.ReachedBy r' options' requests' es' →
        r.provenanceBytes = r'.provenanceBytes → ∀ k, r.state.winning k = r'.state.winning k) := by
  refine ⟨⟨fun hall => ?_, fun hfits r' _ _ _ _ hbytes => graph_eq_of_graphBytes hfits hbytes⟩, ?_⟩
  · by_contra hfits
    -- both graphs with an overlong label have no bytes, and at most one of them is this graph
    obtain ⟨r₁, es₁, hr₁, hlabel₁⟩ := exists_longLabel (.inl rfl)
    obtain ⟨r₂, es₂, hr₂, hlabel₂⟩ := exists_longLabel (.inr rfl)
    have hfits₁ := not_graphFits_of_label (by decide) hlabel₁
    have hfits₂ := not_graphFits_of_label (by decide) hlabel₂
    have heq₁ := hall r₁ _ _ _ hr₁ (by
      rw [graphBytes_eq, graphBytes_eq, if_neg hfits, if_neg hfits₁])
    have heq₂ := hall r₂ _ _ _ hr₂ (by
      rw [graphBytes_eq, graphBytes_eq, if_neg hfits, if_neg hfits₂])
    rw [TopologySnapshot.labelLengths, ← heq₁] at hlabel₁
    rw [TopologySnapshot.labelLengths, ← heq₂, hlabel₁] at hlabel₂
    exact absurd hlabel₂ (by decide)
  · intro hfits r' _ _ _ h' hbytes k
    obtain ⟨hkeyed, -, -, -, id, openedAt, htrace⟩ := h.trace
    obtain ⟨hkeyed', -, -, -, id', openedAt', htrace'⟩ := h'.trace
    exact (sameImage_of_provenanceBytes hfits hbytes).winning_eq htrace.consistent.grounded
      htrace'.consistent.grounded hkeyed hkeyed' k

/-- The run with a label of 257 bytes: its graph does not fit, but the image of its records does. -/
theorem graph_identity_longLabel : ∃ r es,
    Registry.ReachedBy r longTextOptions (longLabelRequests 257) es ∧ r.ImageFits ∧
      ((∀ r' options' requests' es', Registry.ReachedBy r' options' requests' es' →
        r.snapshot.graphBytes = r'.snapshot.graphBytes → r.snapshot.graph = r'.snapshot.graph) ↔
          r.snapshot.GraphFits) ∧
      ∀ r' options' requests' es', Registry.ReachedBy r' options' requests' es' →
        r.provenanceBytes = r'.provenanceBytes → ∀ k, r.state.winning k = r'.state.winning k := by
  obtain ⟨r, es, hr, hfits⟩ := Registry.exists_reached longTextOptions (longLabelRequests 257)
    (fun r _ => (encodeProvenanceImage r.state r.limits).all (fun w => decide w.Fits) &&
      decide ((wire (encodeProvenanceImage r.state r.limits)).length ≤ Encoder.kMaxEncodedBytes))
    (by decide +kernel)
  rw [Bool.and_eq_true, List.all_eq_true, decide_eq_true_eq] at hfits
  have himage : r.ImageFits := ⟨fun w hw => of_decide_eq_true (hfits.1 w hw), hfits.2⟩
  exact ⟨r, es, hr, himage, (graph_identity hr).1, (graph_identity hr).2 himage⟩

/-- **Two graphs with one digest**: an object with a label of 257 bytes, and with one of 258. -/
theorem long_labels_are_one_graph : ∃ r es r' es',
    Registry.ReachedBy r longTextOptions (longLabelRequests 257) es ∧
      Registry.ReachedBy r' longTextOptions (longLabelRequests 258) es' ∧
      r.snapshot.graphBytes = r'.snapshot.graphBytes ∧ r.snapshot.graph ≠ r'.snapshot.graph := by
  obtain ⟨r, es, hr, hlabel⟩ := exists_longLabel (.inl rfl)
  obtain ⟨r', es', hr', hlabel'⟩ := exists_longLabel (.inr rfl)
  refine ⟨r, es, r', es', hr, hr', ?_, ?_⟩
  · rw [graphBytes_eq, graphBytes_eq, if_neg (not_graphFits_of_label (by decide) hlabel),
      if_neg (not_graphFits_of_label (by decide) hlabel')]
  · intro heq
    rw [TopologySnapshot.labelLengths, heq] at hlabel
    exact absurd (hlabel.symm.trans hlabel') (by decide)

end CableRegistry
