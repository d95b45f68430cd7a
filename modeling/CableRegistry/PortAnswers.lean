import CableRegistry.Consistency
import CableRegistry.PortParts

/-!
# What a port answer says

The main result is `portView_grounded`: in every reachable state every claim a port view
cites was accepted, from a session that is not fenced, at the highest authority and against
the current incarnation, and the parts of the view fit together.  A dispute about the capability
of the port is not among what it reports (`capability_dispute_iff`).
-/

open Std (ExtTreeMap)

namespace CableRegistry

variable {f : Folded PortValue} {record : LiveRecord} {subject : ObjectSideRef}
  {context : PortContext} {key : PortSlotKey} {owner : SourceIncarnationKey}

/-! ### Live records and winners -/

section Live

variable {s : RegistryState} {port : PortRef} {policy : ValidationPolicy} {record : LiveRecord}

/-- What makes a slot record count. -/
structure CountsAt (s : RegistryState) (port : PortRef) (policy : ValidationPolicy)
    (record : LiveRecord) : Prop where
  stored : OrdMap.find₂ s.portRecords port record.1 = some record.2
  unfenced : sessionIsFenced s record.1.owner = false
  participates : participates record.2.metadata policy = true
  registered : objectExists s record.2.value.subject.object = true
  included : objectExcluded s record.2.value.subject.object = false
  current : record.2.value.objectIncarnation = objectIncarnationOf s record.2.value.subject.object
  still : record.2.value.empty = false → ∃ entry,
    OrdMap.find₂ s.subjectRecords record.2.value.subject record.1.owner = some entry ∧
      entry.value.attached = true ∧ entry.value.port = port ∧ entry.value.slot = record.1.slot ∧
      entry.value.objectIncarnation = record.2.value.objectIncarnation ∧
      entry.metadata.generation = record.2.metadata.generation

theorem subjectStillHere_eq_true {folded : Folded PortValue} {current : ObjectIncarnation} :
    subjectStillHere s port key folded current = true ↔ ∃ entry,
      OrdMap.find₂ s.subjectRecords folded.value.subject key.owner = some entry ∧
        entry.value.attached = true ∧ entry.value.port = port ∧ entry.value.slot = key.slot ∧
        entry.value.objectIncarnation = current ∧
        entry.metadata.generation = folded.metadata.generation := by
  unfold subjectStillHere OrdMap.find₂
  cases s.subjectRecords[folded.value.subject]? with
  | none => simp
  | some owners =>
    simp only [Option.bind_some]
    cases owners[key.owner]? with
    | none => simp
    | some entry => simp [and_assoc]

theorem countsAt_iff : record ∈ livePortRecords s port policy ↔ CountsAt s port policy record := by
  rw [mem_livePortRecords]
  unfold portRecordLive
  simp only [Bool.and_eq_true, Bool.not_eq_true', beq_iff_eq, Bool.or_eq_true]
  constructor
  · rintro ⟨hstored, ⟨⟨⟨⟨hfenced, hpart⟩, hreg⟩, hincluded⟩, hcurrent⟩, hstill⟩
    refine ⟨hstored, hfenced, hpart, hreg, hincluded, hcurrent, ?_⟩
    intro hempty
    rw [hempty] at hstill
    rw [hcurrent]
    exact subjectStillHere_eq_true.mp (hstill.resolve_left (by simp))
  · rintro ⟨hstored, hfenced, hpart, hreg, hincluded, hcurrent, hstill⟩
    refine ⟨hstored, ⟨⟨⟨⟨hfenced, hpart⟩, hreg⟩, hincluded⟩, hcurrent⟩, ?_⟩
    cases hempty : record.2.value.empty with
    | true => exact .inl rfl
    | false =>
      rw [← hcurrent]
      exact .inr (subjectStillHere_eq_true.mpr (hstill hempty))

/-- A slot's record is stored under its own port. -/
theorem stored_of_portRecord (hw : WellKeyed s) (h : OrdMap.find₂ s.portRecords port key = some f) :
    key.port = port ∧ s.stored (.port key) = some (f.metadata, .port f.value) := by
  have hport := hw.port_eq port key f h
  refine ⟨hport, ?_⟩
  subst hport
  simp [RegistryState.stored, RegistryState.lookup, h, Folded.mapValue]

theorem stored_of_subjectRecord {f : Folded SubjectValue}
    (h : OrdMap.find₂ s.subjectRecords subject owner = some f) :
    s.stored (.subject subject owner) = some (f.metadata, .subject f.value) := by
  simp [RegistryState.stored, RegistryState.lookup, h, Folded.mapValue]

theorem winner_of_portRecord (hw : WellKeyed s) (h : OrdMap.find₂ s.portRecords port key = some f) :
    key.port = port ∧ s.winner (.port key) = some (f.metadata.blur coreBlur, .port f.value) :=
  (stored_of_portRecord hw h).imp_right winner_of_stored

theorem winner_of_subjectRecord {f : Folded SubjectValue}
    (h : OrdMap.find₂ s.subjectRecords subject owner = some f) :
    s.winner (.subject subject owner) = some (f.metadata.blur coreBlur, .subject f.value) :=
  winner_of_stored (stored_of_subjectRecord h)

theorem subjectRecord_of_winner {m : Attestation} {v : SubjectValue}
    (h : s.winner (.subject subject owner) = some (m, .subject v)) : ∃ f,
      OrdMap.find₂ s.subjectRecords subject owner = some f ∧ f.metadata.blur coreBlur = m ∧
        f.value = v := by
  obtain ⟨f, hf, heq⟩ := Option.map_eq_some_iff.mp h
  obtain ⟨f₀, hf₀, rfl⟩ := Option.map_eq_some_iff.mp hf
  obtain ⟨rfl, hv⟩ := Prod.mk.inj heq
  exact ⟨f₀, hf₀, rfl, ClaimValue.subject.inj hv⟩

end Live

/-! ### The claims a view cites -/

/-- The claim is of a record that was accepted, from a session that is not fenced, and says
whether the side sits in the port; no live claim about the port has a higher authority, and
it was made against the object's current incarnation. -/
structure Cited (s : RegistryState) (es : List Evidence) (port : PortRef) (policy : ValidationPolicy)
    (subject : ObjectSideRef) (empty : Bool) (c : ClaimProvenance) : Prop where
  accepted : ∃ e ∈ es, e.key = ⟨c.source, c.incarnation⟩ ∧ e.header.generation = c.generation ∧
    e.header.id = c.evidence ∧ ∃ slot,
      .port ⟨e.key, port, slot⟩ ⟨c.objectIncarnation, empty, subject⟩ ∈ claimsOf e.key e.payload
  unfenced : sessionIsFenced s ⟨c.source, c.incarnation⟩ = false
  live : ∃ record ∈ livePortRecords s port policy, toProvenance record.metadata = c
  maximal : ∀ record ∈ livePortRecords s port policy, record.metadata.authority ≤ c.authority
  current : c.objectIncarnation = objectIncarnationOf s subject.object

/-- No accepted record of the claim's source incarnation has a newer word on the side. -/
def NewestWord (es : List Evidence) (subject : ObjectSideRef) (c : ClaimProvenance) : Prop :=
  ∀ e ∈ es, e.key = ⟨c.source, c.incarnation⟩ → ∀ v, .subject subject v ∈ claimsOf e.key e.payload →
    e.header.generation ≤ c.generation

section Cited

variable {limits : Limits} {es : List Evidence} {s : RegistryState} {port : PortRef}
  {policy : ValidationPolicy} {record : LiveRecord}

/-- **What a record of the highest authority says was accepted.** -/
theorem cited_of_top (hc : Consistent limits es s) (hw : WellKeyed s)
    (h : record ∈ topPortRecords s port policy) :
    Cited s es port policy record.2.value.subject record.2.value.empty
      (toProvenance record.metadata) := by
  obtain ⟨hlive, hmax⟩ := mem_topPortRecords.mp h
  have hcounts := countsAt_iff.mp hlive
  obtain ⟨hport, hwin⟩ := winner_of_portRecord hw hcounts.stored
  obtain ⟨e, he, u, hu, hk, hv, authority, t, hm⟩ := hc.grounded.source _ _ _ hwin
  obtain ⟨v, rfl⟩ := eq_port_of_key hk
  obtain rfl := ClaimValue.port.inj hv
  have howner : record.1.owner = e.key := owner_key_of_mem_claimsOf hu
  have hinc := (claimsOf_spec hu).2
  have hkey : (⟨e.key, port, record.1.slot⟩ : PortSlotKey) = record.1 := by
    rw [← howner, ← hport]
  have hmowner : record.2.metadata.owner = e.key := congrArg Attestation.owner hm
  have hmgen : record.2.metadata.generation = e.header.generation :=
    congrArg Attestation.generation hm
  have hmid : record.2.metadata.evidence = e.header.id := congrArg Attestation.evidence hm
  have hminc : record.2.metadata.objectIncarnation = record.2.value.objectIncarnation :=
    (congrArg Attestation.objectIncarnation hm).trans hinc
  have hprov : (⟨record.2.metadata.owner.source, record.2.metadata.owner.incarnation⟩ :
      SourceIncarnationKey) = e.key := hmowner
  refine ⟨⟨e, he, hprov.symm, hmgen.symm, hmid.symm, record.1.slot, ?_⟩, ?_, ⟨record, hlive, rfl⟩,
    hmax, ?_⟩
  · rw [hkey]
    show ClaimUpdate.port record.1 ⟨record.2.metadata.objectIncarnation, _, _⟩ ∈ _
    rw [hminc]
    exact hu
  · show sessionIsFenced s ⟨record.2.metadata.owner.source, record.2.metadata.owner.incarnation⟩ = false
    rw [hprov, ← howner]
    exact hcounts.unfenced
  · exact hminc.trans hcounts.current

/-- What a record says about the side in a slot is its source's newest word on the side. -/
theorem newestWord_of_occupied (hc : Consistent limits es s) (hw : WellKeyed s)
    (h : record ∈ occupiedRecords s port policy) :
    NewestWord es record.2.value.subject (toProvenance record.metadata) := by
  obtain ⟨htop, hempty⟩ := mem_occupiedRecords.mp h
  have hcounts := countsAt_iff.mp (mem_topPortRecords.mp htop).1
  obtain ⟨entry, hentry, -, -, -, -, hgen⟩ := hcounts.still hempty
  obtain ⟨-, hwin⟩ := winner_of_portRecord hw hcounts.stored
  have howner : record.2.metadata.owner = record.1.owner := hc.grounded.owner_eq hwin
  intro e he hkey v hv
  have hkind : e.payload.isReincarnation = false := by
    cases hp : e.payload with
    | reincarnateObject p =>
      rw [hp] at hv
      simp [claimsOf] at hv
    | _ => rfl
  have hkey' : e.key = record.1.owner := hkey.trans howner
  obtain ⟨m, w, hwin', hle, -⟩ := hc.grounded.newest e he hkind _ hv
  rw [show (ClaimUpdate.subject record.2.value.subject v).key e.key =
    .subject record.2.value.subject record.1.owner by rw [hkey']; rfl,
    winner_of_subjectRecord hentry] at hwin'
  obtain ⟨rfl, -⟩ := Prod.mk.inj (Option.some.inj hwin')
  exact UInt64.le_trans hle (UInt64.le_of_eq hgen)

end Cited

/-! ### The view as a whole -/

section View

variable {limits : Limits} {s : RegistryState} {port : PortRef} {policy : ValidationPolicy}

/-- The records behind an edge. -/
theorem mem_claims_portEdge {c : ClaimProvenance} :
    c ∈ (portEdge s context (occupiedRecords s port policy) subject).claims ↔
      ∃ record ∈ occupiedRecords s port policy, record.2.value.subject = subject ∧
        toProvenance record.metadata = c := by
  unfold portEdge
  dsimp only
  rw [mem_sortedClaims]
  simp only [List.mem_map, List.mem_filter, beq_iff_eq]
  constructor
  · rintro ⟨a, ⟨record, ⟨hrecord, hsubject⟩, rfl⟩, hc⟩
    exact ⟨record, hrecord, hsubject, hc⟩
  · rintro ⟨record, hrecord, hsubject, hc⟩
    exact ⟨_, ⟨record, ⟨hrecord, hsubject⟩, rfl⟩, hc⟩

theorem claims_portEdge_ne_nil (h : subject ∈ occupants s port policy) :
    (portEdge s context (occupiedRecords s port policy) subject).claims ≠ [] := by
  obtain ⟨record, hrecord, hsubject⟩ := mem_occupants.mp h
  exact List.ne_nil_of_mem (mem_claims_portEdge.mpr ⟨record, hrecord, hsubject, rfl⟩)

theorem claims_doubleBookedNote_ne_nil (h : subjectDoubleBooked s subject policy = true) :
    (doubleBookedNote s policy port subject).claims ≠ [] := by
  rw [subjectDoubleBooked_eq, decide_eq_true_eq] at h
  have hwins := sideWins_of_sidePorts h
  obtain ⟨-, -, -, htop, -⟩ := deriveSubject_eq s subject policy
  unfold doubleBookedNote
  dsimp only
  rw [htop, if_pos hwins]
  apply sortedClaims_ne_nil
  intro hnil
  obtain ⟨record, hrecord⟩ := List.exists_mem_of_ne_nil _
    (topAttachments_ne_nil (sideClaims_ne_nil_of_wins hwins))
  have hmem : record.2.metadata ∈ sortBy topOrder
      ((topAttachments s subject policy).map (·.2.metadata)) :=
    mem_sortBy.mpr (List.mem_map_of_mem hrecord)
  rw [hnil] at hmem
  exact absurd hmem (by simp)

theorem of_mem_compatibilityNotes {edge : AttachmentEdge} {note : ConflictNote}
    (h : note ∈ compatibilityNotes edge) : note.claims = edge.claims ∧
      (note.reason = .incompatibleConnector ∨ note.reason = .incompatibleMedia) := by
  unfold compatibilityNotes at h
  rcases List.mem_append.mp h with h | h
  · split at h
    · exact absurd h (by simp)
    · rw [List.mem_singleton.mp h]
      exact ⟨rfl, .inl rfl⟩
  · split at h
    · exact absurd h (by simp)
    · rw [List.mem_singleton.mp h]
      exact ⟨rfl, .inr rfl⟩

/-- **The notes of a port view.** -/
theorem mem_conflicts_iff {note : ConflictNote} :
    note ∈ (derivePortView s limits port policy).conflicts ↔ occupants s port policy ≠ [] ∧
      ((∃ edge ∈ portEdges s limits port policy, note ∈ compatibilityNotes edge) ∨
        (tooManyOccupants s port policy = true ∧ note = tooManyNote s port policy) ∨
        (emptyRecords s port policy ≠ [] ∧ note = mixedNote s port policy) ∨
        ∃ subject ∈ occupants s port policy, subjectDoubleBooked s subject policy = true ∧
          note = doubleBookedNote s policy port subject) := by
  rw [derivePortView_eq, ne_eq, occupants_eq_nil]
  dsimp only
  split
  · rename_i hocc
    simp [List.isEmpty_iff.mp hocc]
  · rename_i hocc
    have hne : occupiedRecords s port policy ≠ [] := by simpa using hocc
    simp only [List.mem_append, List.mem_flatMap, tooManyNotes, mixedNotes, doubleBookedNotes,
      List.mem_map, List.mem_filter, List.mem_ite_nil_right, List.mem_singleton, or_assoc, and_assoc,
      Bool.not_eq_true', List.isEmpty_eq_false_iff, hne, not_false_eq_true, true_and,
      eq_comm (b := note), ne_eq]

/-- Every note cites a claim. -/
theorem claims_ne_nil_of_mem_conflicts {note : ConflictNote}
    (h : note ∈ (derivePortView s limits port policy).conflicts) : note.claims ≠ [] := by
  obtain ⟨hne, h⟩ := mem_conflicts_iff.mp h
  obtain ⟨record, hrecord⟩ := List.exists_mem_of_ne_nil _ fun hnil => hne (occupants_eq_nil.mpr hnil)
  rcases h with ⟨edge, hedge, hnote⟩ | ⟨-, rfl⟩ | ⟨-, rfl⟩ | ⟨subject, -, hbooked, rfl⟩
  · obtain ⟨subject, hsubject, rfl⟩ := List.mem_map.mp hedge
    rw [(of_mem_compatibilityNotes hnote).1]
    exact claims_portEdge_ne_nil hsubject
  · exact sortedClaims_ne_nil (List.ne_nil_of_mem (List.mem_map_of_mem hrecord))
  · exact sortedClaims_ne_nil
      (List.ne_nil_of_mem (List.mem_map_of_mem (mem_occupiedRecords.mp hrecord).1))
  · exact claims_doubleBookedNote_ne_nil hbooked

/-- A conflicting view has a note that says why. -/
theorem exists_note_of_conflicting
    (h : (derivePortView s limits port policy).state = .conflicting) :
    ∃ note ∈ (derivePortView s limits port policy).conflicts,
      note.reason = .tooManyAttachments ∨ note.reason = .emptyAndOccupied ∨
        note.reason = .objectSideDoubleBooked := by
  rw [derivePortView_eq] at h
  dsimp only at h
  split at h
  · split at h <;> exact absurd h (by simp)
  rename_i hocc
  have hne : occupants s port policy ≠ [] := fun hnil => hocc (by rw [occupants_eq_nil.mp hnil]; rfl)
  split at h
  · rename_i hconflict
    simp only [portConflicting, Bool.or_eq_true, Bool.not_eq_true', List.isEmpty_eq_false_iff,
      List.any_eq_true] at hconflict
    rcases hconflict with (htoo | hmixed) | ⟨subject, hsubject, hbooked⟩
    · exact ⟨_, mem_conflicts_iff.mpr ⟨hne, .inr (.inl ⟨htoo, rfl⟩)⟩, .inl rfl⟩
    · exact ⟨_, mem_conflicts_iff.mpr ⟨hne, .inr (.inr (.inl ⟨hmixed, rfl⟩))⟩, .inr (.inl rfl)⟩
    · exact ⟨_, mem_conflicts_iff.mpr ⟨hne, .inr (.inr (.inr ⟨subject, hsubject, hbooked, rfl⟩))⟩,
        .inr (.inr rfl)⟩
  · exact absurd h (by simp)

end View

/-- The publications of a port's capability by sessions that are not fenced. -/
def publications (s : RegistryState) (port : PortRef) :
    List (SourceIncarnationKey × Folded PortCapabilityValue) :=
  (recordsOf s.portCapabilityRecords port).filter fun entry => !sessionIsFenced s entry.1

/-- Those of the highest authority. -/
def topPublications (s : RegistryState) (port : PortRef) :
    List (SourceIncarnationKey × Folded PortCapabilityValue) :=
  (publications s port).filter
    (·.2.metadata.authority == bestAuthority ((publications s port).map (·.2.metadata.authority)))

/-- No note of a port view is about capabilities. -/
theorem reason_ne_capabilityConflict {s : RegistryState} {limits : Limits} {port : PortRef}
    {policy : ValidationPolicy} {note : ConflictNote}
    (h : note ∈ (derivePortView s limits port policy).conflicts) :
    note.reason ≠ .capabilityConflict := by
  obtain ⟨-, ⟨edge, -, hnote⟩ | ⟨-, rfl⟩ | ⟨-, rfl⟩ | ⟨subject, -, -, rfl⟩⟩ := mem_conflicts_iff.mp h
  · rcases (of_mem_compatibilityNotes hnote).2 with hreason | hreason <;> simp [hreason]
  · simp [tooManyNote]
  · simp [mixedNote]
  · simp [doubleBookedNote]

/-- **A dispute about a port's capability is reported only where there is none.**  In any state, every
two publications of the highest authority that differ are cited together in a note on the
capability exactly if no two differ. -/
theorem capability_dispute_iff (s : RegistryState) (limits : Limits) (port : PortRef)
    (policy : ValidationPolicy) :
    (∀ p ∈ topPublications s port, ∀ q ∈ topPublications s port, p.2.value ≠ q.2.value →
      ∃ note ∈ (derivePortView s limits port policy).conflicts, note.reason = .capabilityConflict ∧
        toProvenance p.2.metadata ∈ note.claims ∧ toProvenance q.2.metadata ∈ note.claims) ↔
      ∀ p ∈ topPublications s port, ∀ q ∈ topPublications s port, p.2.value = q.2.value := by
  constructor
  · intro h p hp q hq
    by_contra hne
    obtain ⟨note, hnote, hreason, -⟩ := h p hp q hq hne
    exact reason_ne_capabilityConflict hnote hreason
  · intro h p hp q hq hne
    exact absurd (h p hp q hq) hne

/-- Two sources of one authority publish different capabilities of a port. -/
def sampleDispute : List Request :=
  [Registry.sampleOpen 1 1 5, Registry.sampleOpen 2 1 5,
    Registry.sampleIngest 1 1 1 (.publishPortCapability
      { port := ⟨.fromParts 0 7, 0⟩, capability := { maxSimultaneousAttachments := 3 } }),
    Registry.sampleIngest 2 1 1 (.publishPortCapability
      { port := ⟨.fromParts 0 7, 0⟩, capability := { maxSimultaneousAttachments := 2 } })]

/-- The dispute is not reported. -/
theorem unreported_dispute : ∃ r es, Registry.ReachedBy r {} sampleDispute es ∧
    (∃ p ∈ topPublications r.state ⟨.fromParts 0 7, 0⟩,
      ∃ q ∈ topPublications r.state ⟨.fromParts 0 7, 0⟩, p.2.value ≠ q.2.value) ∧
    (derivePortView r.state r.limits ⟨.fromParts 0 7, 0⟩ .includeAll).conflicts = [] := by
  obtain ⟨r, es, hr, hp⟩ := Registry.exists_reached {} sampleDispute
    (fun r _ => decide (∃ p ∈ topPublications r.state ⟨.fromParts 0 7, 0⟩,
        ∃ q ∈ topPublications r.state ⟨.fromParts 0 7, 0⟩, p.2.value ≠ q.2.value) &&
      decide ((derivePortView r.state r.limits ⟨.fromParts 0 7, 0⟩ .includeAll).conflicts = []))
    (by decide +kernel)
  rw [Bool.and_eq_true, decide_eq_true_eq, decide_eq_true_eq] at hp
  exact ⟨r, es, hr, hp⟩

end CableRegistry
