import CableRegistry.Serialization

/-!
# What a record must look like

The shape check every record passes before it is looked at any further, and its
relation to the decoder that will read the record back from the log.  The two
are separate lists of checks.  `decodeEvidence_encode_iff` compares them: a
record that passes the shape check and whose encoding succeeds is read back,
except when it declares a port capability whose connector or media class is not
a value of the vocabulary, which the shape check does not look at.
-/

namespace CableRegistry

def kMaxObjectIncarnation : UInt64 := (1 : UInt64) <<< 32

def fits (text : Text) (maxBytes : UInt32) : Bool := text.length ≤ maxBytes.toNat

def validateObjectDescriptor (descriptor : ObjectDescriptor) (limits : Limits) :
    Except String Unit := do
  refuseIf descriptor.id.isNil "object identity is nil"
  refuseIf descriptor.sides.isEmpty "an object must declare at least one side"
  refuseIf (descriptor.sides.length > limits.maxSidesPerObject.toNat)
    "an object declares more sides than the configured limit"
  refuseIf (!fits descriptor.physicalLabel limits.maxStringBytes ||
      !fits descriptor.serialLike limits.maxStringBytes ||
      !fits descriptor.administrativeLocation limits.maxStringBytes)
    "an object descriptor string exceeds the configured limit"
  refuseIf (!fits descriptor.capability.capabilityCode limits.maxCapabilityCodeBytes)
    "the capability code exceeds the configured limit"
  refuseIf (!descriptor.kind.declared) "the object kind is not recognised"
  refuseIf (descriptor.sides.any fun side => !side.connector.declared || !side.media.declared)
    "a side descriptor uses an unrecognised connector or media class"
  refuseIf (!descriptor.capability.media.declared || !descriptor.capability.connector.declared)
    "the capability vocabulary is not recognised"

def validateEndpointDescriptor (descriptor : EndpointDescriptor) (limits : Limits) :
    Except String Unit := do
  refuseIf descriptor.id.isNil "endpoint identity is nil"
  refuseIf (descriptor.portCount == 0 || descriptor.portCount > limits.maxPortsPerEndpoint)
    "the endpoint port count is outside the configured range"
  refuseIf (!fits descriptor.name limits.maxStringBytes ||
      !fits descriptor.administrativeLocation limits.maxStringBytes)
    "an endpoint descriptor string exceeds the configured limit"
  refuseIf (!descriptor.kind.declared) "the endpoint kind is not recognised"
  -- The connector and media class of the default port capability are not looked at.
  refuseIf (descriptor.defaultPortCapability.maxSimultaneousAttachments == 0 ||
      descriptor.defaultPortCapability.maxSimultaneousAttachments
        > limits.maxPortSimultaneousAttachments)
    "the default port capability is outside the configured range"

def validatePayload (payload : EvidencePayload) (limits : Limits) : Except String Unit :=
  match payload with
  | .registerObject p => validateObjectDescriptor p.descriptor limits
  | .registerEndpoint p => validateEndpointDescriptor p.descriptor limits
  | .attach p => do
    refuseIf (p.subject.object.isNil || p.port.endpoint.isNil) "the attachment names a nil identity"
    refuseIf (p.objectIncarnation == 0) "the object incarnation must be at least one"
    refuseIf (p.slot ≥ limits.maxPortSimultaneousAttachments)
      "the attachment slot exceeds the configured limit"
  | .detach p => do
    refuseIf p.subject.object.isNil "the detachment names a nil object"
    refuseIf (p.objectIncarnation == 0) "the object incarnation must be at least one"
    refuseIf (p.hasFromPort && p.fromPort.endpoint.isNil) "the detachment names a nil port"
    refuseIf (p.slot ≥ limits.maxPortSimultaneousAttachments)
      "the detachment slot exceeds the configured limit"
  | .move p => do
    refuseIf (p.subject.object.isNil || p.fromPort.endpoint.isNil || p.toPort.endpoint.isNil)
      "the move names a nil identity"
    refuseIf (p.objectIncarnation == 0) "the object incarnation must be at least one"
    refuseIf (p.fromSlot ≥ limits.maxPortSimultaneousAttachments ||
        p.toSlot ≥ limits.maxPortSimultaneousAttachments)
      "the move slot exceeds the configured limit"
  | .publishObjectCapability p => do
    refuseIf p.object.isNil "the capability publication names a nil object"
    refuseIf (!fits p.capability.capabilityCode limits.maxCapabilityCodeBytes)
      "the capability code exceeds the configured limit"
    refuseIf (!p.capability.media.declared || !p.capability.connector.declared)
      "the capability vocabulary is not recognised"
  | .publishPortCapability p => do
    refuseIf p.port.endpoint.isNil "the capability publication names a nil endpoint"
    refuseIf (p.capability.maxSimultaneousAttachments == 0 ||
        p.capability.maxSimultaneousAttachments > limits.maxPortSimultaneousAttachments)
      "the port capability is outside the configured range"
  | .setLifecycle p => do
    refuseIf p.object.isNil "the lifecycle assertion names a nil object"
    refuseIf (p.objectIncarnation == 0) "the object incarnation must be at least one"
    refuseIf (!p.action.declared) "the lifecycle action is not recognised"
    refuseIf (!fits p.reason limits.maxStringBytes)
      "the lifecycle reason exceeds the configured limit"
  | .reincarnateObject p => do
    refuseIf p.object.isNil "the reincarnation names a nil object"
    -- The sum wraps, so the largest value passes.
    refuseIf (p.fromIncarnation == 0 || p.fromIncarnation + 1 > kMaxObjectIncarnation)
      "the reincarnation source incarnation is outside the supported range"
    refuseIf (!fits p.newSerialLike limits.maxStringBytes || !fits p.reason limits.maxStringBytes)
      "a reincarnation string exceeds the configured limit"

def validateEvidenceShape (evidence : Evidence) (limits : Limits) : Except String Unit := do
  refuseIf evidence.header.id.isNil "evidence identity is nil"
  refuseIf evidence.header.source.isNil "source identity is nil"
  refuseIf (evidence.header.incarnation == 0) "the source incarnation must be at least one"
  refuseIf (evidence.header.generation == 0) "the evidence generation must be at least one"
  refuseIf (evidence.header.schemaVersion != kEvidenceSchemaVersion)
    ("unsupported evidence schema version " ++ toString evidence.header.schemaVersion)
  refuseIf (!fits evidence.header.provenanceDetail limits.maxStringBytes)
    "the provenance detail exceeds the configured limit"
  refuseIf (!evidence.header.provenance.declared) "the provenance class is not recognised"
  validatePayload evidence.payload limits

/-! ### What the shape check establishes -/

variable {e : Evidence}

section Shape

variable {limits : Limits}

theorem header_readable_of_shape (h : validateEvidenceShape e limits = .ok ()) :
    e.header.Readable := by
  simp only [validateEvidenceShape, refuseIf_bind_eq_ok] at h
  obtain ⟨hId, hSource, hIncarnation, hGeneration, hSchema, -, hProvenance, -⟩ := h
  exact ⟨by simpa using hProvenance, hId, hSource, by simpa using hIncarnation,
    by simpa using hGeneration, by simpa using hSchema⟩

theorem payload_of_shape (h : validateEvidenceShape e limits = .ok ()) :
    validatePayload e.payload limits = .ok () := by
  simp only [validateEvidenceShape, refuseIf_bind_eq_ok] at h
  exact h.2.2.2.2.2.2.2

theorem objectDescriptor_readable {d : ObjectDescriptor}
    (h : validateObjectDescriptor d limits = .ok ()) : d.Readable limits := by
  simp only [validateObjectDescriptor, refuseIf_bind_eq_ok, refuseIf_eq_ok] at h
  obtain ⟨hNil, hEmpty, hCount, -, -, hKind, hSides, hCap⟩ := h
  refine ⟨by simpa using hKind, hNil, by simpa using hCount, ?_, ?_, ?_⟩
  · intro side hside
    simpa [ObjectSideDescriptor.declared] using List.any_eq_false.mp hSides side hside
  · rintro he
    simp [he] at hEmpty
  · simpa [NominalCapability.declared] using hCap

/-- A declared count of attachments that passed the check is in range. -/
theorem inRange_of_check {c : PortCapability}
    (h : (c.maxSimultaneousAttachments == 0 ||
      decide (c.maxSimultaneousAttachments > limits.maxPortSimultaneousAttachments)) = false) :
    c.InRange limits := by
  simp only [gt_iff_lt, Bool.or_eq_false_iff, beq_eq_false_iff_ne, ne_eq, decide_eq_false_iff_not,
    UInt32.not_lt] at h
  exact h

theorem endpointDescriptor_readable_iff {d : EndpointDescriptor}
    (h : validateEndpointDescriptor d limits = .ok ()) :
    d.Readable limits ↔ d.defaultPortCapability.declared := by
  simp only [validateEndpointDescriptor, refuseIf_bind_eq_ok, refuseIf_eq_ok] at h
  obtain ⟨hNil, hCount, -, hKind, hRange⟩ := h
  refine ⟨fun hr => hr.declared, fun hd => ⟨by simpa using hKind, hNil, ?_, inRange_of_check hRange, hd⟩⟩
  simpa using hCount

/-- The payload declares a port capability with an unnamed connector or media class. -/
def EvidencePayload.undeclaredPortVocabulary : EvidencePayload → Bool
  | .registerEndpoint p => !p.descriptor.defaultPortCapability.declared
  | .publishPortCapability p => !p.capability.declared
  | _ => false

/-- **The shape check against the decoder's.**  They agree but for the vocabulary of
a port capability. -/
theorem payload_readable_iff {payload : EvidencePayload}
    (h : validatePayload payload limits = .ok ()) :
    payload.Readable limits ↔ payload.undeclaredPortVocabulary = false := by
  cases payload with
  | registerObject p => exact ⟨fun _ => rfl, fun _ => objectDescriptor_readable h⟩
  | registerEndpoint p =>
    simp only [EvidencePayload.Readable, EvidencePayload.undeclaredPortVocabulary,
      endpointDescriptor_readable_iff h, Bool.not_eq_false']
  | publishPortCapability p =>
    simp only [validatePayload, refuseIf_bind_eq_ok, refuseIf_eq_ok] at h
    simp only [EvidencePayload.Readable, EvidencePayload.undeclaredPortVocabulary,
      inRange_of_check h.2, true_and, Bool.not_eq_false']
  | publishObjectCapability p =>
    simp only [validatePayload, refuseIf_bind_eq_ok, refuseIf_eq_ok] at h
    simpa [EvidencePayload.Readable, EvidencePayload.undeclaredPortVocabulary,
      NominalCapability.declared] using h.2.2
  | _ =>
    simp only [validatePayload, refuseIf_bind_eq_ok, refuseIf_eq_ok] at h
    simp_all [EvidencePayload.Readable, EvidencePayload.undeclaredPortVocabulary]

/-- The decoder's reading of the encoding of a record that passed the shape check. -/
theorem carries_evidence_of_shape (h : validateEvidenceShape e limits = .ok ()) :
    Carries (decodeEvidence limits) (encodeEvidence e limits) e
      (e.payload.undeclaredPortVocabulary = false) := by
  refine (carries_evidence e limits).congr ?_
  rw [← payload_readable_iff (payload_of_shape h)]
  exact ⟨fun hr => hr.payload, fun hp => ⟨header_readable_of_shape h, hp⟩⟩

end Shape

/-- **What is made durable is read back, unless it declares a port capability outside
the vocabulary.** -/
theorem decodeEvidence_encode_iff (limits : Limits) (e : Evidence)
    (hs : validateEvidenceShape e limits = .ok ())
    (he : (Encoder.run (encodeEvidence e limits)).ok = true) :
    decodeEvidence limits (Encoder.run (encodeEvidence e limits)).take = some (e, []) ↔
      e.payload.undeclaredPortVocabulary = false := by
  have hr := carries_evidence_of_shape hs (Encoder.encodes he) []
  rw [List.append_nil] at hr
  rw [Encoder.take_run _ he]
  constructor
  · intro hd
    by_contra hn
    rw [hr.2 hn] at hd
    exact absurd hd (by simp)
  · exact hr.1

/-- The publication of a capability for port 0 of endpoint 1, at generation 1 of
incarnation 1 of source 1. -/
def capabilityPublication (capability : PortCapability) : Evidence where
  header :=
    { id := .fromParts 0 1, source := .fromParts 0 1, incarnation := 1, generation := 1 }
  payload := .publishPortCapability { port := ⟨.fromParts 0 1, 0⟩, capability := capability }

theorem decodeEvidence_encode_declared :
    validateEvidenceShape (capabilityPublication {}) {} = .ok () ∧
    decodeEvidence {} (Encoder.run (encodeEvidence (capabilityPublication {}) {})).take
      = some (capabilityPublication {}, []) :=
  ⟨by decide, (decodeEvidence_encode_iff {} _ (by decide) (by decide)).mpr rfl⟩

/-- A connector class one past the last enumerator passes the shape check and is
encoded, and the decoder refuses what was encoded. -/
theorem decodeEvidence_encode_undeclared :
    ({} : Limits).Valid ∧
    validateEvidenceShape (capabilityPublication { acceptedConnector := ⟨19⟩ }) {} = .ok () ∧
    (Encoder.run (encodeEvidence (capabilityPublication { acceptedConnector := ⟨19⟩ }) {})).ok
      = true ∧
    decodeEvidence {}
      (Encoder.run (encodeEvidence (capabilityPublication { acceptedConnector := ⟨19⟩ }) {})).take
      = none := by
  refine ⟨by decide, by decide, by decide, by decide⟩

end CableRegistry
