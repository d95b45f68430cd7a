import CableRegistry.Inspection

/-!
# Answers that travel

What a client makes of the bytes of an answer.  Views, histories, results and statistics that are
within the bounds of their decoders come back as they were sent (`answers_survive`).  An inspection
does not: its decoder reads the kinds and dispositions, checks them and drops them, so that it comes
back only when they are the defaults (`inspection_survives_iff`).
-/

namespace CableRegistry

open Decoder

variable {limits : Limits}

theorem asString_textOf (s : String) : asString (textOf s) = s := by
  have hbytes : (⟨(textOf s).toArray⟩ : ByteArray) = s.toUTF8 := by simp [textOf]
  have hvalid : s.toUTF8.IsValidUTF8 := s.isValidUTF8
  rw [asString, hbytes, String.fromUTF8?, dif_pos hvalid]
  rfl

theorem Carries.detail {β : Type} {s : String} {ws : List Write} {f : String → Decoder β} {y : β}
    {c : Prop} (hf : Carries (f s) ws y c) :
    Carries (detail limits >>= f) (.string (textOf s) limits.maxStringBytes :: ws) y c := by
  refine fieldThen (fun hfits => ?_) hf
  have hread := (reads_string_same (textOf s) limits.maxStringBytes hfits).map (f := asString)
  rwa [asString_textOf] at hread

/-! ### Claims, notes and edges -/

theorem carries_claimProvenance {v : ClaimProvenance} (h : v.Readable) :
    Carries decodeClaimProvenance (encodeClaimProvenance v) v True := by
  simp only [encodeClaimProvenance, List.cons_append, List.nil_append]
  exact .strongId <| .u64 <| .u64 <| .strongId <| .i64 <| .i64 <| .u8 <|
    .andThen ((carries_authority _).of_ok h.1) <| .u64 <| .boolean <| .pass h.2 <| .pure v

theorem carries_claimProvenances {maxCount : UInt32} {l : List ClaimProvenance}
    (h : Within maxCount ClaimProvenance.Readable l) :
    Carries (decodeClaimProvenances maxCount) (encodeList encodeClaimProvenance l) l True :=
  carries_list h fun _ hx => carries_claimProvenance hx

theorem carries_conflictNote {v : ConflictNote} (h : v.Readable limits) :
    Carries (decodeConflictNote limits) (encodeConflictNote limits v) v True := by
  obtain ⟨hraw, hle⟩ := v.reason.ofRaw_raw
  simp only [encodeConflictNote, List.append_assoc, List.cons_append, List.nil_append]
  exact .u8 <| .andThen (carries_objectSideRef _) <| .andThen (carries_portRef _) <| .detail <|
    .pass hle <| .thenPure (carries_claimProvenances h) (by rw [hraw])

theorem carries_conflictNotes {l : List ConflictNote} (h : NotesReadable limits l) :
    Carries (decodeConflictNotes limits) (encodeList (encodeConflictNote limits) l) l True :=
  carries_list h fun _ hx => carries_conflictNote hx

theorem carries_attachmentEdge {v : AttachmentEdge} (h : v.Readable limits) :
    Carries (decodeAttachmentEdge limits) (encodeAttachmentEdge v) v True := by
  obtain ⟨hraw, hle⟩ := v.validation.ofRaw_raw
  simp only [encodeAttachmentEdge, List.append_assoc, List.cons_append, List.nil_append]
  exact .andThen (carries_objectSideRef _) <| .andThen (carries_portRef _) <| .u32 <|
    .andThen ((carries_authority _).of_ok h.authority) <| .u8 <| .boolean <| .boolean <| .boolean <|
    .u64 <| .pass hle <| .andThen (carries_claimProvenances h.claims) <|
    .andThen (carries_claimProvenances h.overridden) <| .u32 <| .pureEq (by rw [hraw])

theorem carries_attachmentEdges {l : List AttachmentEdge} (h : EdgesReadable limits l) :
    Carries (decodeAttachmentEdges limits) (encodeList encodeAttachmentEdge l) l True :=
  carries_list h fun _ hx => carries_attachmentEdge hx

/-! ### Views -/

theorem carries_portView {v : PortView} (h : v.Readable limits) :
    Carries (decodePortView limits) (encodePortView limits v) v True := by
  obtain ⟨hstate, hstateLe⟩ := v.state.ofRaw_raw
  obtain ⟨hvalidation, hvalidationLe⟩ := v.validation.ofRaw_raw
  simp only [encodePortView, List.append_assoc, List.cons_append, List.nil_append]
  exact .andThen (carries_portRef _) <| .u8 <| .u8 <|
    .andThen ((carries_portCapability _ limits).of_ok ⟨h.inRange, h.declared⟩) <|
    .pass ⟨hstateLe, hvalidationLe⟩ <| .andThen (carries_attachmentEdges h.edges) <|
    .andThen (carries_conflictNotes h.conflicts) <|
    .andThen (carries_claimProvenances h.emptinessClaims) <| .u32 <|
    .pureEq (by rw [hstate, hvalidation])

theorem carries_lifecycleEvent {v : LifecycleEvent} (h : v.Readable) :
    Carries (decodeLifecycleEvent limits) (encodeLifecycleEvent limits v) v True := by
  obtain ⟨hraw, hle⟩ := v.kind.ofRaw_raw
  simp only [encodeLifecycleEvent, List.append_assoc, List.cons_append, List.nil_append]
  exact .u8 <| .i64 <| .i64 <| .strongId <| .u64 <| .u64 <| .strongId <| .u8 <| .u64 <| .u32 <|
    .andThen (carries_portRef _) <| .andThen (carries_portRef _) <| .boolean <| .text <|
    .pass ⟨hle, h⟩ <| .pureEq (by rw [hraw])

theorem carries_lifecycleEvents {l : List LifecycleEvent} (h : EventsReadable limits l) :
    Carries (decodeLifecycleEvents limits) (encodeList (encodeLifecycleEvent limits) l) l True :=
  carries_list h fun _ hx => carries_lifecycleEvent hx

theorem carries_objectSideView {v : ObjectSideView} (h : v.Readable limits) :
    Carries (decodeObjectSideView limits) (encodeObjectSideView limits v) v True := by
  obtain ⟨hstate, hstateLe⟩ := v.state.ofRaw_raw
  obtain ⟨hvalidation, hvalidationLe⟩ := v.validation.ofRaw_raw
  simp only [encodeObjectSideView, List.append_assoc, List.cons_append, List.nil_append]
  exact .u32 <| .andThen ((carries_sideDescriptor _).of_ok h.descriptor) <| .u8 <| .u8 <|
    .pass ⟨hstateLe, hvalidationLe⟩ <| .andThen (carries_attachmentEdges h.edges) <|
    .thenPure (carries_conflictNotes h.conflicts) (by rw [hstate, hvalidation])

theorem carries_objectView {v : ObjectView} (h : v.Readable limits) :
    Carries (decodeObjectView limits) (encodeObjectView limits v) v True := by
  obtain ⟨hlifecycle, hlifecycleLe⟩ := v.lifecycle.ofRaw_raw
  obtain ⟨hvalidation, hvalidationLe⟩ := v.validation.ofRaw_raw
  simp only [encodeObjectView, List.append_assoc, List.cons_append, List.nil_append]
  exact .strongId <| .u8 <| .text <| .text <| .text <| .u64 <| .u8 <| .pass ⟨h.kind, hlifecycleLe⟩ <|
    .andThen ((carries_capability _ limits).of_ok h.capability) <|
    .andThen (carries_list h.sides fun _ hx => carries_objectSideView hx) <|
    .andThen (carries_lifecycleEvents h.history) <| .u32 <|
    .andThen (carries_conflictNotes h.conflicts) <| .u8 <| .pass hvalidationLe <|
    .pureEq (by rw [hlifecycle, hvalidation])

theorem carries_objectHistory {v : ObjectHistory} (h : v.Readable limits) :
    Carries (decodeObjectHistory limits) (encodeObjectHistory limits v) v True := by
  simp only [encodeObjectHistory, List.cons_append, List.nil_append]
  exact .strongId <| .andThen (carries_lifecycleEvents h) <| .u32 <| .pure v

theorem carries_endpointView {v : EndpointView} (h : v.Readable limits) :
    Carries (decodeEndpointView limits) (encodeEndpointView limits v) v True := by
  simp only [encodeEndpointView, List.cons_append, List.nil_append]
  exact .strongId <| .u8 <| .text <| .text <| .u32 <| .pass ⟨h.kind, h.portCount⟩ <|
    .andThen ((carries_portCapability _ limits).of_ok ⟨h.inRange, h.declared⟩) <|
    .thenPure (carries_list h.ports fun _ hx => carries_portView hx) rfl

/-! ### Results and statistics -/

theorem carries_ingestResult (v : IngestResult) :
    Carries (decodeIngestResult limits) (encodeIngestResult limits v) v True := by
  obtain ⟨hraw, hle⟩ := v.disposition.ofRaw_raw
  refine .u8 <| .strongId <| .u16 <| .u64 <| .i64 <| .detail <| .pass hle ?_
  rw [evidenceKind, EvidenceKind.ofRaw_raw, pure_bind]
  exact .pureEq (by rw [hraw])

theorem RecoveryIssue.ofRaw_raw (v : RecoveryIssue) : ofRaw v.raw = v ∧ v.raw ≤ ioFailure.raw := by
  cases v <;> decide

theorem carries_recoveryReport (v : RecoveryReport) :
    Carries (decodeRecoveryReport limits) (encodeRecoveryReport limits v) v.received True := by
  obtain ⟨hraw, hle⟩ := v.issue.ofRaw_raw
  exact .boolean <| .boolean <| .boolean <| .boolean <| .u32 <| .u64 <| .u64 <| .u64 <| .u64 <| .u8 <|
    .u64 <| .detail <| .pass hle <| .pureEq (by rw [hraw]; rfl)

theorem carries_registryStats (v : RegistryStats) :
    Carries (decodeRegistryStats limits) (encodeRegistryStats limits v) v.received True :=
  .strongId <| .i64 <| .u64 <| .u64 <| .u64 <| .u64 <| .u64 <| .u64 <| .u64 <| .u64 <| .u64 <| .u64 <|
    .u64 <| .u64 <| .u64 <| .u64 <| .u64 <| .u64 <| .u64 <| .u64 <| .u64 <|
    .thenPure (carries_recoveryReport v.recovery) rfl

/-! ### Answers come back -/

/-- What the encoder leaves of the fields, if it succeeds, is decoded to the value, to the last
byte. -/
def Survives {α : Type} (d : Decoder α) (ws : List Write) (v : α) : Prop :=
  (Encoder.run ws).ok = true → whole d (Encoder.run ws).take = some v

theorem Carries.survives {α : Type} {d : Decoder α} {ws : List Write} {v : α}
    (h : Carries d ws v True) : Survives d ws v := by
  intro hok
  rw [Encoder.take_run _ hok]
  exact (whole_eq_some_iff (h (Encoder.encodes hok))).mpr trivial

/-- The counts of a report are numbers of 64 bits. -/
structure RecoveryReport.Counts64 (v : RecoveryReport) : Prop where
  recordsLoaded : v.recordsLoaded < 2 ^ 64
  recordsRejected : v.recordsRejected < 2 ^ 64
  bytesLoaded : v.bytesLoaded < 2 ^ 64
  bytesDiscarded : v.bytesDiscarded < 2 ^ 64
  issueOffset : v.issueOffset < 2 ^ 64

theorem RecoveryReport.Counts64.received {v : RecoveryReport} (h : v.Counts64) : v.received = v := by
  have hcount : ∀ {n : Nat}, n < 2 ^ 64 → (UInt64.ofNat n).toNat = n := by
    intro n hn
    rw [UInt64.toNat_ofNat', Nat.mod_eq_of_lt hn]
  simp only [RecoveryReport.received, hcount h.recordsLoaded, hcount h.recordsRejected,
    hcount h.bytesLoaded, hcount h.bytesDiscarded, hcount h.issueOffset]

/-- **Answers survive the wire.**  An answer within the bounds of its decoder, whose encoding
succeeds, is decoded to itself, to the last byte. -/
theorem answers_survive (limits : Limits) :
    (∀ v : PortView, v.Readable limits →
      Survives (decodePortView limits) (encodePortView limits v) v) ∧
    (∀ v : ObjectView, v.Readable limits →
      Survives (decodeObjectView limits) (encodeObjectView limits v) v) ∧
    (∀ v : EndpointView, v.Readable limits →
      Survives (decodeEndpointView limits) (encodeEndpointView limits v) v) ∧
    (∀ v : ObjectHistory, v.Readable limits →
      Survives (decodeObjectHistory limits) (encodeObjectHistory limits v) v) ∧
    (∀ l : List IngestResult, l.length ≤ limits.maxEvidenceBatch.toNat →
      Survives (decodeIngestResults limits) (encodeIngestResults limits l) l) ∧
    ∀ v : RegistryStats, v.recovery.Counts64 →
      Survives (decodeRegistryStats limits) (encodeRegistryStats limits v) v := by
  refine ⟨fun v h => (carries_portView h).survives, fun v h => (carries_objectView h).survives,
    fun v h => (carries_endpointView h).survives, fun v h => (carries_objectHistory h).survives, ?_, ?_⟩
  · intro l hl
    exact (carries_list (p := fun _ => True) ⟨hl, fun _ _ => trivial⟩ fun v _ =>
      carries_ingestResult v).survives
  · intro v hv
    have hstats := @carries_registryStats limits v
    rw [RegistryStats.received, hv.received] at hstats
    exact hstats.survives

/-- A port with an attachment that one source claims and a note about it. -/
def sampleWirePort : PortView where
  port := ⟨.fromParts 0 7, 0⟩
  state := .conflicting
  edges := [{ subject := ⟨.fromParts 0 9, 0⟩, claims := [{ source := .fromParts 0 1 }] }]
  conflicts := [{ reason := .emptyAndOccupied, detail := "empty and occupied" }]

def sampleWireEvent : LifecycleEvent := { kind := .attached, detail := [97] }

theorem readable_sampleWirePort : sampleWirePort.Readable {} where
  inRange := ⟨by decide, by decide⟩
  declared := by decide
  edges := by
    refine ⟨by decide, ?_⟩
    simp only [sampleWirePort, List.forall_mem_singleton]
    refine ⟨by decide, ⟨by decide, ?_⟩, by decide, by simp⟩
    simp only [List.forall_mem_singleton]
    exact ⟨by decide, by decide⟩
  conflicts := by
    refine ⟨by decide, ?_⟩
    simp only [sampleWirePort, List.forall_mem_singleton]
    exact ⟨by decide, by simp⟩
  emptinessClaims := ⟨by decide, by simp [sampleWirePort]⟩

/-- One answer of each kind, under the default limits. -/
theorem answers_survive_sample :
    whole (decodePortView {}) (Encoder.run (encodePortView {} sampleWirePort)).take =
      some sampleWirePort ∧
    whole (decodeObjectView {}) (Encoder.run (encodeObjectView {} { history := [sampleWireEvent] })).take =
      some { history := [sampleWireEvent] } ∧
    whole (decodeEndpointView {}) (Encoder.run (encodeEndpointView {} { ports := [sampleWirePort] })).take =
      some { ports := [sampleWirePort] } ∧
    whole (decodeObjectHistory {}) (Encoder.run (encodeObjectHistory {} { droppedEvents := 3 })).take =
      some { droppedEvents := 3 } ∧
    whole (decodeIngestResults {}) (Encoder.run (encodeIngestResults {} [{ kind := .attach }])).take =
      some [{ kind := .attach }] ∧
    whole (decodeRegistryStats {}) (Encoder.run (encodeRegistryStats {} { objects := 5 })).take =
      some { objects := 5 } := by
  obtain ⟨hport, hobject, hendpoint, hhistory, hresults, hstats⟩ := answers_survive {}
  refine ⟨hport _ readable_sampleWirePort ?_,
    hobject _ ⟨by decide, by decide, ⟨by decide, by simp⟩, ⟨by decide, ?_⟩, ⟨by decide, by simp⟩⟩ ?_,
    hendpoint _ ⟨by decide, by decide, ⟨by decide, by decide⟩, by decide, by decide, ?_⟩ ?_,
    hhistory _ ⟨by decide, by simp⟩ ?_, hresults _ (by decide) ?_,
    hstats _ ⟨by decide, by decide, by decide, by decide, by decide⟩ ?_⟩
  case refine_2 => simp [LifecycleEvent.Readable, sampleWireEvent]; decide
  case refine_4 => simpa using readable_sampleWirePort
  all_goals exact (Encoder.run_ok_iff _).mpr ⟨by decide +kernel, by decide +kernel⟩

/-! ### Inspections -/

theorem kindInRange_raw (kind : EvidenceKind) : kindInRange kind.raw := by
  cases kind <;> decide

theorem carries_fencedObjectView (v : FencedObjectView) :
    Carries (decodeFencedObjectView limits) (encodeFencedObjectView limits v) v True :=
  .strongId <| .u64 <| .u64 <| .text <| .pure v

theorem carries_pendingReference (v : PendingReferenceView) :
    Carries (decodePendingReference limits) (encodePendingReference limits v) v.received True :=
  .strongId <| .u16 <| .strongId <| .u64 <| .u64 <| .detail <| .pass (kindInRange_raw v.kind) <|
    .pure v.received

theorem carries_refusal (v : RefusalView) :
    Carries (decodeRefusal limits) (encodeRefusal limits v) v.received True :=
  .strongId <| .u16 <| .strongId <| .u64 <| .u64 <| .u8 <| .detail <|
    .pass ⟨kindInRange_raw v.kind, v.disposition.ofRaw_raw.2⟩ <| .pure v.received

/-- A list whose elements are received in another form. -/
theorem carries_received {α : Type} {element : Decoder α} {enc : α → List Write} {f : α → α}
    {maxCount : UInt32} {l : List α} (hl : l.length ≤ maxCount.toNat)
    (h : ∀ x, Carries element (enc x) (f x) True) :
    Carries (decodeVector maxCount element) (encodeList enc l) (l.map f) True :=
  (Carries.vector_map maxCount l (fun _ => Nat.lt_of_le_of_lt hl maxCount.toNat_lt) fun x _ =>
    h x).of_ok ⟨hl, fun _ _ => trivial⟩

/-- An inspection within the bounds is read, but for kinds and dispositions. -/
theorem carries_inspectionView {v : InspectionView} (h : v.Readable limits) :
    Carries (decodeInspectionView limits) (encodeInspectionView limits v) v.received True := by
  simp only [encodeInspectionView, List.append_assoc]
  exact .andThen (carries_list ⟨h.fencedSessions, fun _ _ => trivial⟩ fun x _ =>
      carries_fencedSession x) <|
    .andThen (carries_list ⟨h.fencedObjects, fun _ _ => trivial⟩ fun x _ =>
      carries_fencedObjectView x) <|
    .andThen (carries_list h.unvalidatedPorts fun _ hx => carries_portView hx) <|
    .andThen (carries_received h.pendingReferences carries_pendingReference) <|
    .andThen (carries_received h.refusals carries_refusal) <|
    .thenPure (carries_summary v.summary) rfl

theorem map_eq_self_iff {α : Type} {f : α → α} {l : List α} : l.map f = l ↔ ∀ x ∈ l, f x = x := by
  have h := List.map_inj_left (l := l) (f := f) (g := id)
  rwa [List.map_id] at h

theorem InspectionView.received_eq_iff {v : InspectionView} :
    v.received = v ↔ (∀ pending ∈ v.pendingReferences, pending.kind = .registerObject) ∧
      ∀ refusal ∈ v.refusals, refusal.kind = .registerObject ∧ refusal.disposition = .refusedInvalid := by
  have hpending : ∀ x : PendingReferenceView, x.received = x ↔ x.kind = .registerObject := by
    intro x
    rw [PendingReferenceView.received, PendingReferenceView.mk.injEq]
    simp [eq_comm]
  have hrefusal : ∀ x : RefusalView,
      x.received = x ↔ x.kind = .registerObject ∧ x.disposition = .refusedInvalid := by
    intro x
    rw [RefusalView.received, RefusalView.mk.injEq]
    simp [eq_comm]
  rw [InspectionView.received, InspectionView.mk.injEq]
  simp [map_eq_self_iff, hpending, hrefusal]

/-- **When an inspection survives the wire.**  An inspection within the bounds of the decoder, whose
encoding succeeds, is decoded to itself exactly when every pending reference and every refusal has
the kind of a registration of an object, and every refusal the disposition of an invalid record. -/
theorem inspection_survives_iff (limits : Limits) (v : InspectionView) (hv : v.Readable limits)
    (hok : (Encoder.run (encodeInspectionView limits v)).ok = true) :
    whole (decodeInspectionView limits) (Encoder.run (encodeInspectionView limits v)).take = some v ↔
      (∀ pending ∈ v.pendingReferences, pending.kind = .registerObject) ∧
      ∀ refusal ∈ v.refusals,
        refusal.kind = .registerObject ∧ refusal.disposition = .refusedInvalid := by
  rw [(carries_inspectionView hv).survives hok, Option.some.injEq, InspectionView.received_eq_iff]

/-- An inspection that shows one refusal. -/
def sampleRefusal (kind : EvidenceKind) (disposition : IngestDisposition) : InspectionView where
  refusals := [{ kind := kind, disposition := disposition, detail := "refused" }]

theorem readable_sampleRefusal (kind : EvidenceKind) (disposition : IngestDisposition) :
    (sampleRefusal kind disposition).Readable {} where
  fencedSessions := Nat.zero_le _
  fencedObjects := Nat.zero_le _
  unvalidatedPorts := ⟨Nat.zero_le _, by simp [sampleRefusal]⟩
  pendingReferences := Nat.zero_le _
  refusals := show 1 ≤ _ by decide

theorem inspection_survives_iff_sample :
    whole (decodeInspectionView {})
      (Encoder.run (encodeInspectionView {} (sampleRefusal .registerObject .refusedInvalid))).take =
      some (sampleRefusal .registerObject .refusedInvalid) := by
  refine (inspection_survives_iff {} _ (readable_sampleRefusal _ _)
    ((Encoder.run_ok_iff _).mpr ⟨by decide +kernel, by decide +kernel⟩)).mpr ⟨?_, ?_⟩ <;> decide

/-- **A refusal arrives with another kind and disposition.**  A refused attachment of a source that
is not known is received as a refused registration of an object that is invalid. -/
theorem refusal_disguised :
    (sampleRefusal .attach .refusedUnknownSource).Readable {} ∧
      (Encoder.run (encodeInspectionView {} (sampleRefusal .attach .refusedUnknownSource))).ok = true ∧
      whole (decodeInspectionView {})
        (Encoder.run (encodeInspectionView {} (sampleRefusal .attach .refusedUnknownSource))).take =
        some (sampleRefusal .registerObject .refusedInvalid) ∧
      sampleRefusal .registerObject .refusedInvalid ≠ sampleRefusal .attach .refusedUnknownSource := by
  have hok : (Encoder.run (encodeInspectionView {} (sampleRefusal .attach .refusedUnknownSource))).ok =
      true := (Encoder.run_ok_iff _).mpr ⟨by decide +kernel, by decide +kernel⟩
  exact ⟨readable_sampleRefusal _ _, hok, (carries_inspectionView (readable_sampleRefusal _ _)).survives hok,
    by decide⟩

end CableRegistry
