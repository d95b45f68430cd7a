import CableRegistry.OtherLimits

/-!
# One encoding for each record

The decoder of evidence reads hostile bytes.  It does not only refuse what it cannot read: whatever
it accepts is the encoding of the record it returns, byte for byte, so there is no second
representation of a record (`evidence_canonical`).  A boolean is a zero or a one, a length is the
length of what follows, a count is the number of elements that follow, and nothing is skipped.

The rules for this direction are those of `Retraces`; each decoder has its lemma `retraces_…`.
-/

namespace CableRegistry

open Decoder

/-! ### Fields -/

theorem retraces_u8 : Retraces u8 fun v => (Write.u8 v).toBytes :=
  (retraces_le 1).map (yields_le 1) fun n _ => by simp [Write.toBytes, leBytes]

theorem retraces_u16 : Retraces u16 fun v => (Write.u16 v).toBytes :=
  (retraces_le 2).map (yields_le 2) fun n h => by
    rw [Write.toBytes, UInt16.toNat_ofNat', Nat.mod_eq_of_lt (show n < 2 ^ 16 from h)]

theorem retraces_u32 : Retraces u32 fun v => (Write.u32 v).toBytes :=
  (retraces_le 4).map (yields_le 4) fun n h => by
    rw [Write.toBytes, UInt32.toNat_ofNat', Nat.mod_eq_of_lt (show n < 2 ^ 32 from h)]

theorem retraces_u64 : Retraces u64 fun v => (Write.u64 v).toBytes :=
  (retraces_le 8).map (yields_le 8) fun n h => by
    rw [Write.toBytes, UInt64.toNat_ofNat', Nat.mod_eq_of_lt (show n < 2 ^ 64 from h)]

theorem yields_true {α : Type} (d : Decoder α) : Yields d fun _ => True := fun _ _ _ _ => trivial

theorem retraces_i64 : Retraces i64 fun v => (Write.i64 v).toBytes :=
  retraces_u64.map (yields_true _) fun _ _ => rfl

theorem retraces_boolean : Retraces boolean fun v => (Write.boolean v).toBytes := by
  refine .bind retraces_u8 fun raw => .checkThen fun hle => .pure ?_
  have hcases : raw = 0 ∨ raw = 1 := by
    have hle' : raw.toNat ≤ 1 := UInt8.le_iff_toNat_le.mp hle
    rcases Nat.le_one_iff_eq_zero_or_eq_one.mp hle' with h | h
    · exact .inl (UInt8.toNat_inj.mp h)
    · exact .inr (UInt8.toNat_inj.mp h)
  rcases hcases with rfl | rfl <;> rfl

theorem retraces_id128 : Retraces id128 fun v => (Write.id128 v).toBytes :=
  .bind retraces_u64 fun _ => .bind retraces_u64 fun _ => .pure (by simp [Write.toBytes])

theorem retraces_strongId {tag : IdTag} :
    Retraces (strongId : Decoder (StrongId tag)) fun v => (Write.id128 v.value).toBytes :=
  retraces_id128.map (yields_true _) fun _ _ => rfl

/-- A length is the length of what follows it. -/
theorem retraces_string (maxBytes maxBytes' : UInt32) :
    Retraces (string maxBytes) fun v => (Write.string v maxBytes').toBytes := by
  refine .bind retraces_u32 fun length => .checkThen fun _ => ?_
  intro s v rest hrun
  have hlen : v.length = length.toNat := Yields.take _ s v rest hrun
  have hs : s = v ++ rest := Retraces.take _ s v rest hrun
  rw [hs, List.nil_append]
  simp only [Write.toBytes, hlen, List.append_assoc]

/-- A count is the number of the elements that follow it. -/
theorem retraces_vector {α : Type} {element : Decoder α} {enc : α → List Write} (maxCount : UInt32)
    (h : Retraces element fun x => wire (enc x)) :
    Retraces (decodeVector maxCount element) fun l =>
      (Write.u32 (UInt32.ofNat l.length)).toBytes ++ wire (l.flatMap enc) := by
  refine .bind retraces_u32 fun count => .checkThen fun _ => ?_
  intro s l rest hrun
  have hlen : l.length = count.toNat := Yields.times count.toNat s l rest hrun
  have hs : s = l.flatMap (fun x => wire (enc x)) ++ rest := h.times count.toNat s l rest hrun
  dsimp only
  rw [hs, List.nil_append, wire_flatMap, hlen, UInt32.ofNat_toNat, List.append_assoc]

/-! ### Values -/

theorem retraces_sideDescriptor :
    Retraces decodeSideDescriptor fun v => wire (encodeSideDescriptor v) :=
  .bind retraces_u8 fun _ => .bind retraces_u8 fun _ => .bind retraces_u16 fun _ =>
    .checkThen fun _ => .pure (by simp [encodeSideDescriptor, wire_cons])

theorem retraces_objectSideRef : Retraces decodeObjectSideRef fun v => wire (encodeObjectSideRef v) :=
  .bind retraces_strongId fun _ => .bind retraces_u32 fun _ =>
    .pure (by simp [encodeObjectSideRef, wire_cons])

theorem retraces_portRef : Retraces decodePortRef fun v => wire (encodePortRef v) :=
  .bind retraces_strongId fun _ => .bind retraces_u32 fun _ => .pure (by simp [encodePortRef, wire_cons])

section Limits

variable (limits : Limits)

theorem retraces_capability :
    Retraces (decodeCapability limits) fun v => wire (encodeCapability v limits) :=
  .bind retraces_u8 fun _ => .bind retraces_u8 fun _ => .bind retraces_u16 fun _ =>
    .bind retraces_u64 fun _ => .bind retraces_u64 fun _ => .bind retraces_u64 fun _ =>
    .bind retraces_boolean fun _ =>
    .bind (retraces_string _ limits.maxCapabilityCodeBytes) fun _ => .checkThen fun _ =>
    .pure (by simp [encodeCapability, wire_cons])

theorem retraces_portCapability :
    Retraces (decodePortCapability limits) fun v => wire (encodePortCapability v) :=
  .bind retraces_u32 fun _ => .bind retraces_u8 fun _ => .bind retraces_u8 fun _ =>
    .bind retraces_u16 fun _ => .checkThen fun _ => .checkThen fun _ =>
    .pure (by simp [encodePortCapability, wire_cons])

theorem retraces_objectDescriptor :
    Retraces (decodeObjectDescriptor limits) fun v => wire (encodeObjectDescriptor v limits) :=
  .bind retraces_strongId fun _ => .bind retraces_u8 fun _ =>
    .bind (retraces_string _ limits.maxStringBytes) fun _ =>
    .bind (retraces_string _ limits.maxStringBytes) fun _ =>
    .bind (retraces_string _ limits.maxStringBytes) fun _ => .checkThen fun _ =>
    .bind (retraces_vector _ retraces_sideDescriptor) fun _ => .checkThen fun _ =>
    .bind (retraces_capability limits) fun _ =>
    .pure (by simp [encodeObjectDescriptor, wire_cons, wire_append])

theorem retraces_endpointDescriptor :
    Retraces (decodeEndpointDescriptor limits) fun v => wire (encodeEndpointDescriptor v limits) :=
  .bind retraces_strongId fun _ => .bind retraces_u8 fun _ =>
    .bind (retraces_string _ limits.maxStringBytes) fun _ =>
    .bind (retraces_string _ limits.maxStringBytes) fun _ => .bind retraces_u32 fun _ =>
    .checkThen fun _ => .bind (retraces_portCapability limits) fun _ =>
    .pure (by simp [encodeEndpointDescriptor, wire_cons])

/-! ### Records -/

theorem retraces_payload (kind : EvidenceKind) :
    Retraces (decodePayload kind limits) fun payload => wire (encodePayload payload limits) := by
  cases kind with
  | registerObject =>
    exact .bind (retraces_objectDescriptor limits) fun _ => .pure (by simp [encodePayload])
  | registerEndpoint =>
    exact .bind (retraces_endpointDescriptor limits) fun _ => .pure (by simp [encodePayload])
  | attach =>
    exact .bind retraces_objectSideRef fun _ => .bind retraces_portRef fun _ =>
      .bind retraces_u64 fun _ => .bind retraces_u32 fun _ => .checkThen fun _ =>
      .pure (by simp [encodePayload, wire_cons, wire_append])
  | detach =>
    exact .bind retraces_objectSideRef fun _ => .bind retraces_u64 fun _ =>
      .bind retraces_boolean fun _ => .bind retraces_portRef fun _ => .bind retraces_u32 fun _ =>
      .checkThen fun _ => .pure (by simp [encodePayload, wire_cons, wire_append])
  | move =>
    exact .bind retraces_objectSideRef fun _ => .bind retraces_u64 fun _ =>
      .bind retraces_portRef fun _ => .bind retraces_portRef fun _ => .bind retraces_u32 fun _ =>
      .bind retraces_u32 fun _ => .checkThen fun _ =>
      .pure (by simp [encodePayload, wire_cons, wire_append])
  | publishObjectCapability =>
    exact .bind retraces_strongId fun _ => .bind (retraces_capability limits) fun _ =>
      .pure (by simp [encodePayload, wire_cons])
  | publishPortCapability =>
    exact .bind retraces_portRef fun _ => .bind (retraces_portCapability limits) fun _ =>
      .pure (by simp [encodePayload, wire_append])
  | setLifecycle =>
    exact .bind retraces_strongId fun _ => .bind retraces_u64 fun _ => .bind retraces_u8 fun _ =>
      .bind (retraces_string _ limits.maxStringBytes) fun _ => .checkThen fun _ =>
      .pure (by simp [encodePayload, wire_cons])
  | reincarnateObject =>
    exact .bind retraces_strongId fun _ => .bind retraces_u64 fun _ =>
      .bind (retraces_string _ limits.maxStringBytes) fun _ =>
      .bind (retraces_string _ limits.maxStringBytes) fun _ => .checkThen fun _ =>
      .pure (by simp [encodePayload, wire_cons])

theorem yields_kindOf (kind : EvidenceKind) :
    Yields (decodePayload kind limits) fun payload => payload.kindOf = kind := by
  cases kind with
  | registerObject => exact .skip fun _ => .pure rfl
  | registerEndpoint => exact .skip fun _ => .pure rfl
  | attach =>
    exact .skip fun _ => .skip fun _ => .skip fun _ => .skip fun _ => .checkThen fun _ => .pure rfl
  | detach =>
    exact .skip fun _ => .skip fun _ => .skip fun _ => .skip fun _ => .skip fun _ =>
      .checkThen fun _ => .pure rfl
  | move =>
    exact .skip fun _ => .skip fun _ => .skip fun _ => .skip fun _ => .skip fun _ => .skip fun _ =>
      .checkThen fun _ => .pure rfl
  | publishObjectCapability => exact .skip fun _ => .skip fun _ => .pure rfl
  | publishPortCapability => exact .skip fun _ => .skip fun _ => .pure rfl
  | setLifecycle =>
    exact .skip fun _ => .skip fun _ => .skip fun _ => .skip fun _ => .checkThen fun _ => .pure rfl
  | reincarnateObject =>
    exact .skip fun _ => .skip fun _ => .skip fun _ => .skip fun _ => .checkThen fun _ => .pure rfl

theorem raw_of_ofRaw {raw : UInt16} {kind : EvidenceKind} (h : EvidenceKind.ofRaw raw = some kind) :
    kind.raw = raw := by
  unfold EvidenceKind.ofRaw at h
  split at h <;> first | (obtain rfl := Option.some.inj h; rfl) | exact absurd h (by simp)

/-- **What the decoder of evidence consumed is the encoding of what it returns.** -/
theorem retraces_evidence :
    Retraces (decodeEvidence limits) fun e => wire (encodeEvidence e limits) := by
  refine .bind retraces_strongId fun _ => .bind retraces_strongId fun _ =>
    .bind retraces_u64 fun _ => .bind retraces_u64 fun _ => .bind retraces_i64 fun _ =>
    .bind retraces_u8 fun _ => .bind (retraces_string _ limits.maxStringBytes) fun _ =>
    .bind retraces_u32 fun _ => .checkThen fun _ => .checkThen fun _ => .checkThen fun _ =>
    .checkThen fun _ => .bind retraces_u16 fun raw => ?_
  cases hkind : EvidenceKind.ofRaw raw with
  | none =>
    intro s e rest hrun
    have hnone : (failure : Decoder Evidence) s = none := rfl
    exact absurd (hnone.symm.trans hrun) (by simp)
  | some kind =>
    refine .bindWith (retraces_payload limits kind) (yields_kindOf limits kind)
      fun payload hpayload => .pure ?_
    simp only [encodeEvidence, Evidence.kindOf, hpayload, raw_of_ofRaw hkind, wire_append, wire_cons,
      wire_nil, List.append_assoc, List.nil_append]

end Limits

/-- The texts of a record that is read are within the bounds they are written under. -/
theorem fits_of_payloadFits {limits : Limits} {payload : EvidencePayload} (h : payload.Fits limits) :
    ∀ w ∈ encodePayload payload limits, w.Fits := by
  cases payload with
  | registerObject p =>
    simp only [EvidencePayload.Fits, fits, decide_eq_true_eq] at h
    obtain ⟨⟨hLabel, hSerial, hLocation⟩, -, hCode⟩ := h
    simp only [encodePayload, encodeObjectDescriptor, List.forall_mem_append]
    refine ⟨⟨?_, ?_⟩, ?_⟩
    · simp [Write.Fits, hLabel, hSerial, hLocation]
    · intro w hw
      obtain ⟨side, -, hw⟩ := List.mem_flatMap.mp hw
      simp only [encodeSideDescriptor, List.mem_cons, List.not_mem_nil, or_false] at hw
      rcases hw with rfl | rfl | rfl <;> trivial
    · simp [encodeCapability, Write.Fits, hCode]
  | registerEndpoint p =>
    simp only [EvidencePayload.Fits, fits, decide_eq_true_eq] at h
    simp [encodePayload, encodeEndpointDescriptor, encodePortCapability, Write.Fits, h.1.1, h.1.2]
  | attach p => simp [encodePayload, encodeObjectSideRef, encodePortRef, Write.Fits]
  | detach p => simp [encodePayload, encodeObjectSideRef, encodePortRef, Write.Fits]
  | move p => simp [encodePayload, encodeObjectSideRef, encodePortRef, Write.Fits]
  | publishObjectCapability p =>
    simp only [EvidencePayload.Fits, fits, decide_eq_true_eq] at h
    simp [encodePayload, encodeCapability, Write.Fits, h]
  | publishPortCapability p => simp [encodePayload, encodePortRef, encodePortCapability, Write.Fits]
  | setLifecycle p =>
    simp only [EvidencePayload.Fits, fits, decide_eq_true_eq] at h
    simp [encodePayload, Write.Fits, h]
  | reincarnateObject p =>
    simp only [EvidencePayload.Fits, fits, decide_eq_true_eq] at h
    simp [encodePayload, Write.Fits, h.1, h.2]

/-- An accepted buffer is the encoding of its record, and the decoder reads it from any buffer that
starts with it. -/
theorem reads_of_whole {limits : Limits} {b : List UInt8} {e : Evidence}
    (h : whole (decodeEvidence limits) b = some e) :
    b = wire (encodeEvidence e limits) ∧ (∀ w ∈ encodeEvidence e limits, w.Fits) ∧
      ∀ rest, decodeEvidence limits (b ++ rest) = some (e, rest) := by
  have hrun : decodeEvidence limits b = some (e, []) := by
    unfold whole at h
    split at h
    · rename_i x hx
      rw [hx, Option.some.inj h]
    · exact absurd h (by simp)
  have hb := (retraces_evidence limits).eq_of_run hrun
  obtain ⟨hDetail, hPayload⟩ := yields_evidence limits b e [] hrun
  have hfits : ∀ w ∈ encodeEvidence e limits, w.Fits := by
    simp only [fits, decide_eq_true_eq] at hDetail
    intro w hw
    rcases List.mem_append.mp hw with hw | hw
    · simp only [List.mem_cons, List.not_mem_nil, or_false] at hw
      rcases hw with rfl | rfl | rfl | rfl | rfl | rfl | rfl | rfl | rfl
      case inr.inr.inr.inr.inr.inr.inl => exact hDetail
      all_goals trivial
    · exact fits_of_payloadFits hPayload w hw
  exact ⟨hb, hfits, fun rest => Stable.run_append b e [] rest hrun⟩

/-- **The wire format of evidence is canonical.**  Under any limits, a buffer within the encoder's
ceiling that is accepted is exactly what the encoder makes of the accepted record; and no strict
prefix and no proper extension of an accepted buffer is accepted. -/
theorem evidence_canonical (limits : Limits) {b : List UInt8} {e : Evidence}
    (h : whole (decodeEvidence limits) b = some e) :
    (b.length ≤ Encoder.kMaxEncodedBytes →
      (Encoder.run (encodeEvidence e limits)).ok = true ∧
        (Encoder.run (encodeEvidence e limits)).take = b) ∧
    (∀ b' rest, b = b' ++ rest → rest ≠ [] → whole (decodeEvidence limits) b' = none) ∧
    ∀ rest, rest ≠ [] → whole (decodeEvidence limits) (b ++ rest) = none := by
  obtain ⟨hb, hfits, hrun⟩ := reads_of_whole h
  have hextended : ∀ {b : List UInt8} {e : Evidence} {rest : List UInt8},
      decodeEvidence limits (b ++ rest) = some (e, rest) → rest ≠ [] →
        whole (decodeEvidence limits) (b ++ rest) = none := by
    intro b e rest hread hne
    unfold whole
    rw [hread]
    cases rest with
    | nil => exact absurd rfl hne
    | cons _ _ => rfl
  refine ⟨fun hlen => ?_, fun b' rest hsplit hne => ?_, fun rest hne => hextended (hrun rest) hne⟩
  · have hok : (Encoder.run (encodeEvidence e limits)).ok = true :=
      (Encoder.run_ok_iff _).mpr ⟨hfits, hb ▸ hlen⟩
    exact ⟨hok, (Encoder.take_run _ hok).trans hb.symm⟩
  · cases hb' : whole (decodeEvidence limits) b' with
    | none => rfl
    | some e' =>
      -- The shorter buffer would be read from the longer one, with something left.
      have hnone := hextended ((reads_of_whole hb').2.2 rest) hne
      rw [← hsplit, h] at hnone
      exact absurd hnone (by simp)

/-- An object is taken out of service. -/
def sampleWireRecord : Evidence where
  header := { id := .fromParts 0 1, source := .fromParts 0 2, incarnation := 1, generation := 1 }
  payload := .setLifecycle
    { object := .fromParts 0 9, objectIncarnation := 1, action := .quarantined, reason := [100, 117] }

theorem evidence_canonical_sample :
    ∃ b e, whole (decodeEvidence {}) b = some e ∧ b.length ≤ Encoder.kMaxEncodedBytes ∧
      (Encoder.run (encodeEvidence e {})).take = b := by
  have h : whole (decodeEvidence {}) (Encoder.run (encodeEvidence sampleWireRecord {})).take =
      some sampleWireRecord := by decide +kernel
  have hlen : (Encoder.run (encodeEvidence sampleWireRecord {})).take.length ≤
      Encoder.kMaxEncodedBytes := by decide +kernel
  exact ⟨_, _, h, hlen, ((evidence_canonical {} h).1 hlen).2⟩

end CableRegistry
