import CableRegistry.PortAnswers
import CableRegistry.Queries

/-!
# What an answer reads

Two states give the same answer when they agree on what the answer reads.  The derivations
skip the records that do not count and meet the others in the order of their keys, so it is
enough that the records that count are the same ones.

* `SameBeyondPositions`: everything but the records of sides and slots is the same.
* `SameTop.settled_eq`: the view of a port is the same, the overridden claims aside, once the
  records of the highest authority and the derivations of the sides in the port are.
-/

open Std (ExtTreeMap)

namespace CableRegistry

/-! ### Records that count -/

theorem keyOrdered_recordsOf {κ ι ν : Type} [Ord κ] [Std.TransOrd κ] [Ord ι] [Std.TransOrd ι]
    [Std.LawfulEqOrd ι] (groups : Groups κ ι ν) (k : κ) : OrdMap.KeyOrdered (recordsOf groups k) := by
  unfold recordsOf
  split
  · exact List.Pairwise.nil
  · exact OrdMap.keyOrdered_toList _

theorem keyOrdered_livePortRecords (s : RegistryState) (port : PortRef) (policy : ValidationPolicy) :
    OrdMap.KeyOrdered (livePortRecords s port policy) := by
  unfold livePortRecords
  split
  · exact List.Pairwise.nil
  · exact (OrdMap.keyOrdered_toList _).filter _

theorem keyOrdered_sideRecords (s : RegistryState) (subject : ObjectSideRef)
    (policy : ValidationPolicy) : OrdMap.KeyOrdered (sideRecords s subject policy) := by
  unfold sideRecords
  split
  · exact (keyOrdered_recordsOf _ _).filter _
  · exact List.Pairwise.nil

theorem keyOrdered_sideClaims (s : RegistryState) (subject : ObjectSideRef)
    (policy : ValidationPolicy) (attached : Bool) :
    OrdMap.KeyOrdered (sideClaims s subject policy attached) :=
  (keyOrdered_sideRecords s subject policy).filter _

/-! ### Everything but positions -/

/-- The two states differ in the records of sides and slots at most. -/
structure SameBeyondPositions (s s' : RegistryState) : Prop where
  sources : s'.sources = s.sources
  objectRegistrations : s'.objectRegistrations = s.objectRegistrations
  endpointRegistrations : s'.endpointRegistrations = s.endpointRegistrations
  lifecycleRecords : s'.lifecycleRecords = s.lifecycleRecords
  reincarnationRecords : s'.reincarnationRecords = s.reincarnationRecords
  objectCapabilityRecords : s'.objectCapabilityRecords = s.objectCapabilityRecords
  portCapabilityRecords : s'.portCapabilityRecords = s.portCapabilityRecords

namespace SameBeyondPositions

variable {s s' : RegistryState}

section

variable (h : SameBeyondPositions s s')

include h

theorem symm : SameBeyondPositions s' s :=
  ⟨h.sources.symm, h.objectRegistrations.symm, h.endpointRegistrations.symm,
    h.lifecycleRecords.symm, h.reincarnationRecords.symm, h.objectCapabilityRecords.symm,
    h.portCapabilityRecords.symm⟩

theorem sessionIsFenced_eq (key : SourceIncarnationKey) :
    sessionIsFenced s' key = sessionIsFenced s key :=
  sessionIsFenced_congr h.sources key

theorem objectIncarnationOf_eq (object : ObjectId) :
    objectIncarnationOf s' object = objectIncarnationOf s object := by
  unfold objectIncarnationOf
  rw [h.reincarnationRecords]
  simp only [h.sessionIsFenced_eq]

theorem objectExists_eq (object : ObjectId) :
    objectExists s' object = objectExists s object := by
  unfold objectExists
  rw [h.objectRegistrations]

theorem portExists_eq (port : PortRef) :
    portExists s' port = portExists s port := by
  unfold portExists endpointPortCount
  rw [h.endpointRegistrations]

theorem endpointExists_eq (endpoint : EndpointId) :
    endpointExists s' endpoint = endpointExists s endpoint := by
  unfold endpointExists
  rw [h.endpointRegistrations]

theorem lifecycleActionOf_eq (object : ObjectId) :
    lifecycleActionOf s' object = lifecycleActionOf s object := by
  have hcandidates : lifecycleCandidates s' object = lifecycleCandidates s object := by
    unfold lifecycleCandidates
    simp only [h.objectIncarnationOf_eq, h.lifecycleRecords, h.reincarnationRecords,
      h.sessionIsFenced_eq]
  unfold lifecycleActionOf
  rw [hcandidates]

theorem objectExcluded_eq (object : ObjectId) :
    objectExcluded s' object = objectExcluded s object := by
  unfold objectExcluded
  rw [h.lifecycleActionOf_eq]

theorem portCapabilityOf_eq (port : PortRef) :
    portCapabilityOf s' port = portCapabilityOf s port := by
  unfold portCapabilityOf winningEndpoint
  simp only [h.portCapabilityRecords, h.endpointRegistrations, h.sessionIsFenced_eq]

theorem sideDescriptorOf_eq (object : ObjectId) (side : SideIndex) :
    sideDescriptorOf s' object side = sideDescriptorOf s object side := by
  unfold sideDescriptorOf winningRegistration
  rw [h.objectRegistrations]

end

end SameBeyondPositions

/-- An attach, a detach or a move. -/
def EvidencePayload.isPosition : EvidencePayload → Bool
  | .attach _ | .detach _ | .move _ => true
  | _ => false

variable {record : LiveRecord} {subject : ObjectSideRef} {owner : SourceIncarnationKey}

theorem position_of_mem {payload : EvidencePayload} (h : payload.isPosition = true)
    {u : ClaimUpdate} (hu : u ∈ claimsOf owner payload) :
    (∃ subject v, u = .subject subject v) ∨ ∃ key v, u = .port key v := by
  have hclaims : ∃ claim : PositionClaim, claimsOf owner payload = claim.claims := by
    cases payload with
    | attach p => exact ⟨_, rfl⟩
    | detach p => exact ⟨_, rfl⟩
    | move p => exact ⟨_, rfl⟩
    | _ => exact absurd h (by simp [EvidencePayload.isPosition])
  obtain ⟨claim, hclaim⟩ := hclaims
  rw [hclaim] at hu
  unfold PositionClaim.claims at hu
  rcases List.mem_cons.mp hu with rfl | hu
  · exact .inl ⟨_, _, rfl⟩
  · obtain ⟨update, -, rfl⟩ := List.mem_map.mp hu
    exact .inr ⟨_, _, rfl⟩

section Accepted

variable {limits : Limits} {historyPerKey : UInt32} {s s' : RegistryState} {e : Evidence}
  {m : Attestation}

section

variable (h : Accepts limits historyPerKey s e m s')

include h

/-- A key the record makes no claim about. -/
theorem Accepts.lookup_of_not_claimed {k : ClaimKey}
    (hk : ∀ u ∈ claimsOf e.key e.payload, u.key e.key ≠ k) : s'.lookup k = s.lookup k := by
  rw [h.lookup, Registry.lookup_accept, h.owner]
  cases hf : (claimsOf e.key e.payload).find? (·.key e.key = k) with
  | none => rfl
  | some u =>
    have hkey : u.key e.key = k := by simpa using List.find?_some hf
    exact absurd hkey (hk u (List.mem_of_find?_eq_some hf))

theorem Accepts.wellKeyed (hw : WellKeyed s) :
    WellKeyed s' := by
  obtain ⟨session, rfl⟩ := h.state
  exact (hw.applyChange _ _).withSessions _

/-- **A position leaves everything but positions**, and the positions of other owners. -/
theorem Accepts.sameBeyondPositions (hw : WellKeyed s) (hkind : e.payload.isPosition = true) :
    SameBeyondPositions s s' := by
  have hw' := h.wellKeyed hw
  have hlook : ∀ k, (∀ subject owner, k ≠ .subject subject owner) → (∀ key, k ≠ .port key) →
      s'.lookup k = s.lookup k := by
    intro k hsubject hport
    refine h.lookup_of_not_claimed fun u hu hk => ?_
    rcases position_of_mem hkind hu with ⟨subject, v, rfl⟩ | ⟨key, v, rfl⟩
    · exact hsubject subject e.key hk.symm
    · exact hport key hk.symm
  refine ⟨h.sources, ?_, ?_, ?_, ?_, ?_, ?_⟩
  · exact hw'.objectRegistrations.ext hw.objectRegistrations fun k i =>
      eq_of_lookup (fun _ _ he => ClaimValue.objectRegistration.inj he)
        (hlook (.objectRegistration k i) (by simp) (by simp))
  · exact hw'.endpointRegistrations.ext hw.endpointRegistrations fun k i =>
      eq_of_lookup (fun _ _ he => ClaimValue.endpointRegistration.inj he)
        (hlook (.endpointRegistration k i) (by simp) (by simp))
  · exact hw'.lifecycleRecords.ext hw.lifecycleRecords fun k i =>
      eq_of_lookup (fun _ _ he => ClaimValue.lifecycle.inj he)
        (hlook (.lifecycle k i) (by simp) (by simp))
  · exact hw'.reincarnationRecords.ext hw.reincarnationRecords fun k i =>
      eq_of_lookup (fun _ _ he => ClaimValue.reincarnation.inj he)
        (hlook (.reincarnation k i) (by simp) (by simp))
  · exact hw'.objectCapabilityRecords.ext hw.objectCapabilityRecords fun k i =>
      eq_of_lookup (fun _ _ he => ClaimValue.objectCapability.inj he)
        (hlook (.objectCapability k i) (by simp) (by simp))
  · exact hw'.portCapabilityRecords.ext hw.portCapabilityRecords fun k i =>
      eq_of_lookup (fun _ _ he => ClaimValue.portCapability.inj he)
        (hlook (.portCapability k i) (by simp) (by simp))

theorem Accepts.find_subject (hne : owner ≠ e.key) :
    OrdMap.find₂ s'.subjectRecords subject owner = OrdMap.find₂ s.subjectRecords subject owner := by
  refine eq_of_lookup (fun _ _ he => ClaimValue.subject.inj he)
    (h.lookup_of_not_claimed (k := .subject subject owner) fun u hu hk => hne ?_)
  rw [← owner_key_of_mem_claimsOf hu, hk]
  rfl

theorem Accepts.find_port (hw : WellKeyed s) (port : PortRef) {key : PortSlotKey}
    (hne : key.owner ≠ e.key) :
    OrdMap.find₂ s'.portRecords port key = OrdMap.find₂ s.portRecords port key := by
  refine (h.wellKeyed hw).find_portRecords hw
    (h.lookup_of_not_claimed fun u hu hk => hne ?_) port
  rw [← owner_key_of_mem_claimsOf hu, hk]
  rfl

end

end Accepted

/-! ### One owner's positions -/

/-- The two states differ in the positions of one owner at most. -/
structure OwnWord (s s' : RegistryState) (owner : SourceIncarnationKey) : Prop where
  beyond : SameBeyondPositions s s'
  subject : ∀ subject other, other ≠ owner →
    OrdMap.find₂ s'.subjectRecords subject other = OrdMap.find₂ s.subjectRecords subject other
  port : ∀ port (key : PortSlotKey), key.owner ≠ owner →
    OrdMap.find₂ s'.portRecords port key = OrdMap.find₂ s.portRecords port key

theorem Accepts.ownWord {limits : Limits} {historyPerKey : UInt32} {s s' : RegistryState} {e : Evidence}
    {m : Attestation} (h : Accepts limits historyPerKey s e m s') (hw : WellKeyed s)
    (hkind : e.payload.isPosition = true) : OwnWord s s' e.key :=
  ⟨h.sameBeyondPositions hw hkind, fun _ _ => h.find_subject, fun port _ => h.find_port hw port⟩

namespace OwnWord

variable {s s' : RegistryState} {owner : SourceIncarnationKey} {policy : ValidationPolicy}

theorem symm (h : OwnWord s s' owner) : OwnWord s' s owner :=
  ⟨h.beyond.symm, fun subject other hne => (h.subject subject other hne).symm,
    fun port key hne => (h.port port key hne).symm⟩

/-- A live slot record stays live as long as its content and its owner's word on the side stay. -/
theorem counts (h : OwnWord s s' owner) {port : PortRef} {record : LiveRecord}
    (hcounts : CountsAt s port policy record) {f : Folded PortValue}
    (hf : OrdMap.find₂ s'.portRecords port record.1 = some f) (hm : f.metadata = record.2.metadata)
    (hv : f.value = record.2.value)
    (hsubject : record.2.value.empty = false →
      OrdMap.find₂ s'.subjectRecords record.2.value.subject record.1.owner =
        OrdMap.find₂ s.subjectRecords record.2.value.subject record.1.owner) :
    CountsAt s' port policy (record.1, f) := by
  refine ⟨hf, ?_, ?_, ?_, ?_, ?_, ?_⟩
  · rw [h.beyond.sessionIsFenced_eq]
    exact hcounts.unfenced
  · rw [hm]
    exact hcounts.participates
  · rw [hv, h.beyond.objectExists_eq]
    exact hcounts.registered
  · rw [hv, h.beyond.objectExcluded_eq]
    exact hcounts.included
  · rw [hv, h.beyond.objectIncarnationOf_eq]
    exact hcounts.current
  · rw [hv, hm]
    intro hempty
    rw [hsubject hempty]
    exact hcounts.still hempty

theorem live_of_other (h : OwnWord s s' owner) {port : PortRef}
    (hlive : record ∈ livePortRecords s port policy) (hne : record.1.owner ≠ owner) :
    record ∈ livePortRecords s' port policy := by
  have hcounts := countsAt_iff.mp hlive
  have hstored := (h.port port record.1 hne).trans hcounts.stored
  exact countsAt_iff.mpr (h.counts hcounts hstored rfl rfl fun _ => h.subject _ _ hne)

/-- A live claim about a side stays live as long as it stays. -/
theorem side (h : OwnWord s s' owner) {subject : ObjectSideRef} {record : SideRecord}
    (hmem : record ∈ sideRecords s subject policy)
    (hsubject : OrdMap.find₂ s'.subjectRecords subject record.1 =
      OrdMap.find₂ s.subjectRecords subject record.1) : record ∈ sideRecords s' subject policy := by
  obtain ⟨hexists, hstored, hfenced, hpart, hcurrent⟩ := mem_sideRecords.mp hmem
  refine mem_sideRecords.mpr ⟨?_, ?_, ?_, hpart, ?_⟩
  · rw [h.beyond.objectExists_eq]
    exact hexists
  · rw [hsubject]
    exact hstored
  · rw [h.beyond.sessionIsFenced_eq]
    exact hfenced
  · rw [h.beyond.objectIncarnationOf_eq]
    exact hcurrent

theorem side_of_other (h : OwnWord s s' owner) {record : SideRecord}
    (hmem : record ∈ sideRecords s subject policy) (hne : record.1 ≠ owner) :
    record ∈ sideRecords s' subject policy :=
  h.side hmem (h.subject subject record.1 hne)

end OwnWord

/-! ### The view of a port -/

/-- The edge without the claims it overrides. -/
def AttachmentEdge.settled (edge : AttachmentEdge) : AttachmentEdge :=
  { edge with overridden := [], overriddenTotal := 0 }

/-- The view without the claims its edges override. -/
def PortView.settled (view : PortView) : PortView :=
  { view with edges := view.edges.map AttachmentEdge.settled }

/-- The two states agree on what the view of a port says, the overridden claims aside. -/
structure SameTop (s s' : RegistryState) (port : PortRef) (policy : ValidationPolicy) : Prop where
  capability : portCapabilityOf s' port = portCapabilityOf s port
  authority : topAuthority s' port policy = topAuthority s port policy
  records : topPortRecords s' port policy = topPortRecords s port policy
  descriptor : ∀ subject ∈ occupants s port policy,
    sideDescriptorOf s' subject.object subject.side = sideDescriptorOf s subject.object subject.side
  wins : ∀ subject ∈ occupants s port policy,
    sideWins s' subject policy true = sideWins s subject policy true
  attachments : ∀ subject ∈ occupants s port policy,
    topAttachments s' subject policy = topAttachments s subject policy

namespace SameTop

variable {s s' : RegistryState} {port : PortRef} {policy : ValidationPolicy}

section

variable (h : SameTop s s' port policy)

include h

theorem occupiedRecords_eq :
    occupiedRecords s' port policy = occupiedRecords s port policy := by
  unfold occupiedRecords
  rw [h.records]

theorem emptyRecords_eq :
    emptyRecords s' port policy = emptyRecords s port policy := by
  unfold emptyRecords
  rw [h.records]

theorem occupants_eq :
    occupants s' port policy = occupants s port policy := by
  unfold occupants
  rw [h.occupiedRecords_eq]

theorem subjectDoubleBooked_eq (hs : subject ∈ occupants s port policy) :
    subjectDoubleBooked s' subject policy = subjectDoubleBooked s subject policy := by
  rw [CableRegistry.subjectDoubleBooked_eq, CableRegistry.subjectDoubleBooked_eq]
  unfold sidePorts
  rw [h.wins subject hs, h.attachments subject hs]

theorem doubleBookedNote_eq {subject : ObjectSideRef} (hs : subject ∈ occupants s port policy) :
    doubleBookedNote s' policy port subject = doubleBookedNote s policy port subject := by
  obtain ⟨-, -, -, htop, -⟩ := deriveSubject_eq s subject policy
  obtain ⟨-, -, -, htop', -⟩ := deriveSubject_eq s' subject policy
  unfold doubleBookedNote
  rw [htop, htop', h.wins subject hs, h.attachments subject hs]

theorem portConflicting_eq :
    portConflicting s' port policy = portConflicting s port policy := by
  have hbooked : (occupants s' port policy).any (subjectDoubleBooked s' · policy) =
      (occupants s port policy).any (subjectDoubleBooked s · policy) := by
    rw [h.occupants_eq, Bool.eq_iff_iff, List.any_eq_true, List.any_eq_true]
    refine exists_congr fun subject => and_congr_right fun hs => ?_
    rw [h.subjectDoubleBooked_eq hs]
  unfold portConflicting tooManyOccupants
  rw [hbooked, h.occupants_eq, h.emptyRecords_eq, h.capability]

theorem settled_portEdges (limits : Limits) :
    (portEdges s' limits port policy).map AttachmentEdge.settled =
      (portEdges s limits port policy).map AttachmentEdge.settled := by
  unfold portEdges
  rw [h.occupants_eq, List.map_map, List.map_map]
  refine List.map_congr_left fun subject hs => ?_
  simp only [Function.comp, AttachmentEdge.settled, portEdge, portContext, h.descriptor subject hs,
    h.capability, h.authority, h.portConflicting_eq, h.occupiedRecords_eq]

theorem compatibilityNotes_portEdges (limits : Limits) :
    (portEdges s' limits port policy).flatMap compatibilityNotes =
      (portEdges s limits port policy).flatMap compatibilityNotes := by
  have hnotes : ∀ edges : List AttachmentEdge, edges.flatMap compatibilityNotes =
      (edges.map AttachmentEdge.settled).flatMap compatibilityNotes := by
    intro edges
    rw [List.flatMap_map]
    rfl
  rw [hnotes, h.settled_portEdges limits, ← hnotes]

theorem doubleBookedNotes_eq :
    doubleBookedNotes s' port policy = doubleBookedNotes s port policy := by
  unfold doubleBookedNotes
  rw [h.occupants_eq, List.filter_congr fun subject hs => h.subjectDoubleBooked_eq hs]
  exact List.map_congr_left fun subject hs => h.doubleBookedNote_eq (List.mem_filter.mp hs).1

/-- **The two views are the same, the overridden claims aside.** -/
theorem settled_eq (limits : Limits) :
    (derivePortView s' limits port policy).settled = (derivePortView s limits port policy).settled := by
  have htooMany : tooManyNotes s' port policy = tooManyNotes s port policy := by
    unfold tooManyNotes tooManyNote tooManyOccupants
    rw [h.occupants_eq, h.capability, h.occupiedRecords_eq]
  have hmixed : mixedNotes s' port policy = mixedNotes s port policy := by
    unfold mixedNotes mixedNote
    rw [h.emptyRecords_eq, h.records]
  rw [derivePortView_eq, derivePortView_eq]
  simp only [PortView.settled, h.capability, h.occupiedRecords_eq, h.emptyRecords_eq,
    h.portConflicting_eq, h.records, h.settled_portEdges limits, htooMany, hmixed,
    h.compatibilityNotes_portEdges limits, h.doubleBookedNotes_eq]

end

/-- States with the same records give the same view. -/
theorem of_positions (hb : SameBeyondPositions s s') (hsubjects : s'.subjectRecords = s.subjectRecords)
    (hports : s'.portRecords = s.portRecords) : SameTop s s' port policy := by
  have hlive : livePortRecords s' port policy = livePortRecords s port policy := by
    unfold livePortRecords portRecordLive subjectStillHere
    simp only [hports, hsubjects, hb.sessionIsFenced_eq, hb.objectIncarnationOf_eq, hb.objectExists_eq,
      hb.objectExcluded_eq]
  have hside : ∀ subject, sideRecords s' subject policy = sideRecords s subject policy := by
    intro subject
    unfold sideRecords subjectRecordLive
    simp only [hsubjects, hb.sessionIsFenced_eq, hb.objectIncarnationOf_eq, hb.objectExists_eq]
  refine ⟨hb.portCapabilityOf_eq port, ?_, ?_, fun subject _ => hb.sideDescriptorOf_eq _ _, ?_, ?_⟩
  · unfold topAuthority
    rw [hlive]
  · unfold topPortRecords topAuthority
    rw [hlive]
  · intro subject _
    unfold sideWins sideAuthority sideClaims
    rw [hside]
  · intro subject _
    unfold topAttachments sideAuthority sideClaims
    rw [hside]

end SameTop

theorem Registry.map_queryPort {r r' : Registry} (hb : SameBeyondPositions r.state r'.state) (port : PortRef)
    (policy : ValidationPolicy) {f : PortView → PortView}
    (h : f (derivePortView r'.state r'.limits port policy) =
      f (derivePortView r.state r.limits port policy)) :
    (r'.queryPort port policy).map f = (r.queryPort port policy).map f := by
  rw [Registry.queryPort_cases, Registry.queryPort_cases, hb.endpointExists_eq, hb.portExists_eq]
  generalize derivePortView r.state r.limits port policy = view at h
  generalize derivePortView r'.state r'.limits port policy = view' at h
  split
  · rfl
  split
  · rfl
  split
  · rfl
  · exact congrArg Except.ok h

end CableRegistry
