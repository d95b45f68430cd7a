import CableRegistry.ImageRoundTrip
import CableRegistry.Validation

/-!
# Reading under other limits

The limits decide what an encoder writes and what a decoder accepts, not how a value
looks when it is written.  So bytes written under one set of limits and read under
another give the value that was written, or are refused: `carriesBack_evidence` for a
record, `carriesBack_state` for a state image.  A record that is read is within the limits that
the decoder looks at (`yields_evidence`); those are not all that the shape check looks at.
-/

open Std

namespace CableRegistry

open Decoder

variable (limits limits' : Limits)

/-- Fields that the encoder wrote are read as `x`, or refused. -/
def CarriesBack {α : Type} (d : Decoder α) (ws : List Write) (x : α) : Prop := ∃ c, Carries d ws x c

theorem CarriesBack.back {α : Type} {d : Decoder α} {ws : List Write} {x : α} (h : CarriesBack d ws x)
    (hws : Encodes ws) : ReadsBack d (wire ws) x := by
  obtain ⟨c, h⟩ := h
  exact ⟨c, h hws⟩

/-! ### Values -/

theorem carriesBack_sourceDescriptor (v : SourceDescriptor) :
    CarriesBack (decodeSourceDescriptor limits') (encodeSourceDescriptor v limits) v := by
  simp only [encodeSourceDescriptor, List.cons_append, List.nil_append]
  exact ⟨_, .strongId <| .textUnder <| .bind (carries_authority _) fun _ => .textUnder <|
    .check fun _ => .pure v⟩

theorem carriesBack_capability (v : NominalCapability) :
    CarriesBack (decodeCapability limits') (encodeCapability v limits) v :=
  ⟨_, .u8 <| .u8 <| .u16 <| .u64 <| .u64 <| .u64 <| .boolean <| .textUnder <| .check fun _ => .pure v⟩

theorem carriesBack_objectDescriptor (v : ObjectDescriptor) :
    CarriesBack (decodeObjectDescriptor limits') (encodeObjectDescriptor v limits) v := by
  obtain ⟨c, hcapability⟩ := carriesBack_capability limits limits' v.capability
  simp only [encodeObjectDescriptor, List.cons_append, List.nil_append]
  rw [← List.cons_append]
  exact ⟨_, .strongId <| .u8 <| .textUnder <| .textUnder <| .textUnder <| .check fun _ =>
    .bind (.vector _ _ (·.count (by simp [encodeSideDescriptor])) fun side _ =>
      carries_sideDescriptor side) fun _ => .check fun _ => .thenPure hcapability rfl⟩

theorem carriesBack_endpointDescriptor (v : EndpointDescriptor) :
    CarriesBack (decodeEndpointDescriptor limits') (encodeEndpointDescriptor v limits) v :=
  ⟨_, .strongId <| .u8 <| .textUnder <| .textUnder <| .u32 <| .check fun _ =>
    .thenPure (carries_portCapability _ limits') rfl⟩

theorem carriesBack_lifecycleValue (v : LifecycleValue) :
    CarriesBack (decodeLifecycleValue limits') (encodeLifecycleValue limits v) v :=
  ⟨_, .u64 <| .u8 <| .textUnder <| .check fun _ => .pure v⟩

theorem carriesBack_reincarnationValue (v : ReincarnationValue) :
    CarriesBack (decodeReincarnationValue limits') (encodeReincarnationValue limits v) v :=
  ⟨_, .u64 <| .u64 <| .textUnder <| .textUnder <| .check fun _ => .pure v⟩

/-! ### Records -/

theorem carriesBack_payload (payload : EvidencePayload) :
    CarriesBack (decodePayload payload.kindOf limits') (encodePayload payload limits) payload := by
  cases payload with
  | registerObject p =>
    obtain ⟨c, h⟩ := carriesBack_objectDescriptor limits limits' p.descriptor
    exact ⟨c, .thenPure h rfl⟩
  | registerEndpoint p =>
    obtain ⟨c, h⟩ := carriesBack_endpointDescriptor limits limits' p.descriptor
    exact ⟨c, .thenPure h rfl⟩
  | attach p => exact ⟨_, carries_payload (.attach p) limits⟩
  | detach p => exact ⟨_, carries_payload (.detach p) limits⟩
  | move p => exact ⟨_, carries_payload (.move p) limits⟩
  | publishObjectCapability p =>
    obtain ⟨c, h⟩ := carriesBack_capability limits limits' p.capability
    exact ⟨_, .strongId <| .thenPure h rfl⟩
  | publishPortCapability p =>
    exact ⟨_, .andThen (carries_portRef _) <| .thenPure (carries_portCapability _ limits') rfl⟩
  | setLifecycle p => exact ⟨_, .strongId <| .u64 <| .u8 <| .textUnder <| .check fun _ => .pure _⟩
  | reincarnateObject p =>
    exact ⟨_, .strongId <| .u64 <| .textUnder <| .textUnder <| .check fun _ => .pure _⟩

/-- **A record written under one set of limits is read back under another, or refused.** -/
theorem carriesBack_evidence (e : Evidence) :
    CarriesBack (decodeEvidence limits') (encodeEvidence e limits) e := by
  obtain ⟨c, hp⟩ := carriesBack_payload limits limits' e.payload
  refine ⟨_, .strongId <| .strongId <| .u64 <| .u64 <| .i64 <| .u8 <| .textUnder <| .u32 <|
    .check fun _ => .check fun _ => .check fun _ => .check fun _ => .u16 (y := e) (c := c) ?_⟩
  rw [EvidenceKind.ofRaw_raw]
  exact .thenPure hp rfl

/-! ### What a decoder looks at -/

/-- The parts of a payload are within the limits that its decoder looks at.  The slots of a position
are not among them. -/
def EvidencePayload.Fits (limits : Limits) : EvidencePayload → Prop
  | .registerObject p =>
    (fits p.descriptor.physicalLabel limits.maxStringBytes ∧
      fits p.descriptor.serialLike limits.maxStringBytes ∧
      fits p.descriptor.administrativeLocation limits.maxStringBytes) ∧
    p.descriptor.sides.length ≤ limits.maxSidesPerObject.toNat ∧
    fits p.descriptor.capability.capabilityCode limits.maxCapabilityCodeBytes
  | .registerEndpoint p =>
    (fits p.descriptor.name limits.maxStringBytes ∧
      fits p.descriptor.administrativeLocation limits.maxStringBytes) ∧
    p.descriptor.portCount ≤ limits.maxPortsPerEndpoint ∧
    p.descriptor.defaultPortCapability.maxSimultaneousAttachments ≤ limits.maxPortSimultaneousAttachments
  | .publishObjectCapability p => fits p.capability.capabilityCode limits.maxCapabilityCodeBytes
  | .publishPortCapability p =>
    p.capability.maxSimultaneousAttachments ≤ limits.maxPortSimultaneousAttachments
  | .setLifecycle p => fits p.reason limits.maxStringBytes
  | .reincarnateObject p =>
    fits p.newSerialLike limits.maxStringBytes ∧ fits p.reason limits.maxStringBytes
  | .attach _ | .detach _ | .move _ => True

theorem yields_string (maxBytes : UInt32) : Yields (string maxBytes) fun v => fits v maxBytes := by
  refine .skip fun length => .checkThen fun hlength => ?_
  intro s v rest hrun
  unfold Reader.take at hrun
  split at hrun
  · obtain ⟨rfl, -⟩ := Prod.mk.inj (Option.some.inj hrun)
    have hle := UInt32.le_iff_toNat_le.mp hlength
    simp only [fits, List.length_take, decide_eq_true_eq]
    omega
  · exact absurd hrun (by simp)

theorem yields_capability : Yields (decodeCapability limits') fun v =>
    fits v.capabilityCode limits'.maxCapabilityCodeBytes :=
  .skip fun _ => .skip fun _ => .skip fun _ => .skip fun _ => .skip fun _ => .skip fun _ =>
    .skip fun _ => (yields_string _).bind fun _ hCode => .checkThen fun _ => .pure hCode

theorem yields_portCapability : Yields (decodePortCapability limits') fun v =>
    v.maxSimultaneousAttachments ≤ limits'.maxPortSimultaneousAttachments :=
  .skip fun _ => .skip fun _ => .skip fun _ => .skip fun _ => .checkThen fun hRange =>
    .checkThen fun _ => .pure hRange.2

theorem yields_vector {α : Type} (maxCount : UInt32) (element : Decoder α) :
    Yields (decodeVector maxCount element) fun l => l.length ≤ maxCount.toNat := by
  refine .skip fun count => .checkThen fun hCount => ?_
  intro s l rest hrun
  rw [Yields.times count.toNat s l rest hrun]
  exact UInt32.le_iff_toNat_le.mp hCount

theorem yields_objectDescriptor :
    Yields (decodeObjectDescriptor limits') fun v => (EvidencePayload.registerObject ⟨v⟩).Fits limits' :=
  .skip fun _ => .skip fun _ => (yields_string _).bind fun _ hLabel =>
    (yields_string _).bind fun _ hSerial => (yields_string _).bind fun _ hLocation =>
    .checkThen fun _ => (yields_vector _ _).bind fun _ hSides => .checkThen fun _ =>
    (yields_capability limits').bind fun _ hCode => .pure ⟨⟨hLabel, hSerial, hLocation⟩, hSides, hCode⟩

theorem yields_endpointDescriptor :
    Yields (decodeEndpointDescriptor limits') fun v =>
      (EvidencePayload.registerEndpoint ⟨v⟩).Fits limits' :=
  .skip fun _ => .skip fun _ => (yields_string _).bind fun _ hName =>
    (yields_string _).bind fun _ hLocation => .skip fun _ => .checkThen fun hPorts =>
    (yields_portCapability limits').bind fun _ hRange =>
    .pure ⟨⟨hName, hLocation⟩, hPorts.2.2.2, hRange⟩

theorem yields_payload (kind : EvidenceKind) :
    Yields (decodePayload kind limits') (EvidencePayload.Fits limits') := by
  cases kind with
  | registerObject => exact (yields_objectDescriptor limits').bind fun _ h => .pure h
  | registerEndpoint => exact (yields_endpointDescriptor limits').bind fun _ h => .pure h
  | attach =>
    exact .skip fun _ => .skip fun _ => .skip fun _ => .skip fun _ => .checkThen fun _ => .pure trivial
  | detach =>
    exact .skip fun _ => .skip fun _ => .skip fun _ => .skip fun _ => .skip fun _ =>
      .checkThen fun _ => .pure trivial
  | move =>
    exact .skip fun _ => .skip fun _ => .skip fun _ => .skip fun _ => .skip fun _ => .skip fun _ =>
      .checkThen fun _ => .pure trivial
  | publishObjectCapability =>
    exact .skip fun _ => (yields_capability limits').bind fun _ hCode => .pure hCode
  | publishPortCapability =>
    exact .skip fun _ => (yields_portCapability limits').bind fun _ hRange => .pure hRange
  | setLifecycle =>
    exact .skip fun _ => .skip fun _ => .skip fun _ => (yields_string _).bind fun _ hReason =>
      .checkThen fun _ => .pure hReason
  | reincarnateObject =>
    exact .skip fun _ => .skip fun _ => (yields_string _).bind fun _ hSerial =>
      (yields_string _).bind fun _ hReason => .checkThen fun _ => .pure ⟨hSerial, hReason⟩

/-- **A record that is read is within the limits it is read under**, so far as the decoder looks at
them. -/
theorem yields_evidence : Yields (decodeEvidence limits') fun e =>
    fits e.header.provenanceDetail limits'.maxStringBytes ∧ e.payload.Fits limits' := by
  refine .skip fun _ => .skip fun _ => .skip fun _ => .skip fun _ => .skip fun _ => .skip fun _ =>
    (yields_string _).bind fun _ hDetail => .skip fun _ => .checkThen fun _ => .checkThen fun _ =>
    .checkThen fun _ => .checkThen fun _ => .skip fun kindRaw => ?_
  cases EvidenceKind.ofRaw kindRaw with
  | none =>
    intro s e rest hrun
    have hnone : (failure : Decoder Evidence) s = none := rfl
    exact absurd (hnone.symm.trans hrun) (by simp)
  | some kind => exact (yields_payload limits' kind).bind fun _ hPayload => .pure ⟨hDetail, hPayload⟩

/-! ### State images -/

theorem carriesBack_sourceEntry (e : SourceId × SourceRecord) :
    CarriesBack (decodeSourceEntry limits') (encodeSourceEntry limits e) e := by
  obtain ⟨c, h⟩ := carriesBack_sourceDescriptor limits limits' e.2.descriptor
  simp only [encodeSourceEntry, encodeSourceRecord, encodeId, List.cons_append, List.nil_append]
  exact ⟨_, .strongId <| .thenPure (x := e.2)
    (.bind h fun _ => .u64 <| .u64 <| .boolean <| .pure e.2) rfl⟩

section Groups

variable {κ ι ν : Type} [Ord κ] [TransOrd κ] [LawfulEqOrd κ] [DecidableEq κ] [Ord ι] [TransOrd ι]
  [LawfulEqOrd ι] [DecidableEq ι]

/-- The codec that writes as one codec and reads as another. -/
def GroupCodec.readAs (codec codec' : GroupCodec κ ι ν) : GroupCodec κ ι ν where
  encodePrimary := codec.encodePrimary
  decodePrimary := codec'.decodePrimary
  encodeInner := codec.encodeInner
  decodeInner := codec'.decodeInner
  encodeValue := codec.encodeValue
  decodeValue := codec'.decodeValue

/-- A group whose keys and values are read back, whatever the bounds of the reader. -/
theorem carries_group_readAs (codec codec' : GroupCodec κ ι ν) {owner : ι → SourceIncarnationKey}
    {good : ν → Prop} (hlaw : (codec.readAs codec').Lawful (fun _ _ => True) owner good)
    (maxPrimary maxOwners maxHistory : UInt32) (groups : Groups κ ι ν) :
    Carries (decodeGroup codec' maxPrimary maxOwners maxHistory) (encodeGroup codec groups) groups
      (CountsWithin maxPrimary maxOwners groups ∧ EntriesReadable owner maxHistory good groups) :=
  carries_group hlaw maxPrimary maxOwners maxHistory groups fun _ _ _ _ => trivial

end Groups

/-- **A state image written under one set of limits is read back under another, or
refused.** -/
theorem carriesBack_state {s : RegistryState} (hports : s.PortsKeyed) :
    CarriesBack (decodeState limits') (encodeState s limits) s := by
  simp only [encodeState, List.append_assoc, List.cons_append, List.nil_append]
  exact ⟨_, .u32 <| .check fun _ => .strongId <| .i64 <|
    .bind (carries_map _ _ (by simp [encodeSourceEntry, encodeId]) fun e _ =>
      (carriesBack_sourceEntry limits limits' e).choose_spec) fun _ =>
    .bind (carries_map _ _ (by simp [encodeSessionEntry, encodeOwner]) fun e _ =>
      carries_sessionEntry e) fun _ =>
    .bind (carries_group_readAs (objectRegistrationCodec limits) (objectRegistrationCodec limits')
      (lawful_ownerCodec carries_encodeId encodeId_ne fun v =>
        (carriesBack_objectDescriptor limits limits' v).choose_spec) _ _ _ _) fun _ =>
    .bind (carries_group_readAs (endpointRegistrationCodec limits) (endpointRegistrationCodec limits')
      (lawful_ownerCodec carries_encodeId encodeId_ne fun v =>
        (carriesBack_endpointDescriptor limits limits' v).choose_spec) _ _ _ _) fun _ =>
    .bind (carries_group lawful_subjectCodec _ _ _ _ fun _ _ _ _ => trivial) fun _ =>
    .bind (carries_group lawful_portCodec _ _ _ _ hports) fun _ =>
    .bind (carries_group_readAs (lifecycleCodec limits) (lifecycleCodec limits')
      (lawful_ownerCodec carries_encodeId encodeId_ne fun v =>
        (carriesBack_lifecycleValue limits limits' v).choose_spec) _ _ _ _) fun _ =>
    .bind (carries_group_readAs (reincarnationCodec limits) (reincarnationCodec limits')
      (lawful_ownerCodec carries_encodeId encodeId_ne fun v =>
        (carriesBack_reincarnationValue limits limits' v).choose_spec) _ _ _ _) fun _ =>
    .bind (carries_group_readAs (objectCapabilityCodec limits) (objectCapabilityCodec limits')
      (lawful_ownerCodec carries_encodeId encodeId_ne fun v =>
        (carriesBack_capability limits limits' v).choose_spec) _ _ _ _) fun _ =>
    .thenPure (carries_group (lawful_portCapabilityCodec limits') _ _ _ _ fun _ _ _ _ => trivial) rfl⟩

end CableRegistry
