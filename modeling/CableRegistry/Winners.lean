import CableRegistry.Consistency

/-!
# What a decision reads

Whether a record is accepted depends on the winners of the claim keys, on the sources and on
whether there is room; it does not depend on the records that lost, on lifetime flags or on what
sessions hold.  `outline` forgets the latter.

So a record that is accepted in a state is accepted in every state with the same winners under
limits that are not smaller (`SameWinners.isAccepted`), and the winners are the same afterwards (`SameWinners.accepts`).
-/

open Std (ExtTreeMap TransOrd LawfulEqOrd)

set_option linter.unusedSectionVars false

namespace CableRegistry

/-! ### Outlines -/

/-- A record without its lifetime flag, and none of those it superseded. -/
def Folded.outline {ν : Type} (f : Folded ν) : Folded ν := ⟨f.metadata.blur coreBlur, f.value, [], 0⟩

section Groups

variable {κ ι ν : Type} [Ord κ] [TransOrd κ] [Ord ι] [TransOrd ι]

def outlineOwners (owners : OrdMap ι (Folded ν)) : OrdMap ι (Folded ν) :=
  ExtTreeMap.map (fun _ f => f.outline) owners

def outlineGroups (groups : Groups κ ι ν) : Groups κ ι ν :=
  ExtTreeMap.map (fun _ owners => outlineOwners owners) groups

@[simp] theorem find_outlineOwners (owners : OrdMap ι (Folded ν)) (i : ι) :
    (outlineOwners owners)[i]? = (owners[i]?).map Folded.outline := by
  simp [outlineOwners]

@[simp] theorem find_outlineGroups (groups : Groups κ ι ν) (k : κ) :
    (outlineGroups groups)[k]? = (groups[k]?).map outlineOwners := by
  simp [outlineGroups]

@[simp] theorem toList_outlineOwners (owners : OrdMap ι (Folded ν)) :
    (outlineOwners owners).toList = owners.toList.map fun entry => (entry.1, entry.2.outline) := by
  simp [outlineOwners, ExtTreeMap.toList_map]

@[simp] theorem size_outlineOwners (owners : OrdMap ι (Folded ν)) :
    (outlineOwners owners).size = owners.size := by
  simp [outlineOwners]

@[simp] theorem size_outlineGroups (groups : Groups κ ι ν) :
    (outlineGroups groups).size = groups.size := by
  simp [outlineGroups]

@[simp] theorem contains_outlineOwners (owners : OrdMap ι (Folded ν)) (i : ι) :
    (outlineOwners owners).contains i = owners.contains i := by
  simp [outlineOwners]

@[simp] theorem contains_outlineGroups (groups : Groups κ ι ν) (k : κ) :
    (outlineGroups groups).contains k = groups.contains k := by
  simp [outlineGroups]

theorem find₂_outlineGroups (groups : Groups κ ι ν) (k : κ) (i : ι) :
    OrdMap.find₂ (outlineGroups groups) k i = (OrdMap.find₂ groups k i).map Folded.outline := by
  simp only [OrdMap.find₂, find_outlineGroups]
  cases groups[k]? <;> simp

theorem grouped_outlineGroups [LawfulEqOrd κ] [LawfulEqOrd ι] {groups : Groups κ ι ν}
    (h : OrdMap.Grouped groups) : OrdMap.Grouped (outlineGroups groups) := by
  intro k owners' hk hempty
  rw [find_outlineGroups] at hk
  obtain ⟨owners, howners, rfl⟩ := Option.map_eq_some_iff.mp hk
  obtain ⟨i, f, hf⟩ := OrdMap.exists_find_of_ne_empty (h k owners howners)
  have hnone : (outlineOwners owners)[i]? = none := by simp [hempty]
  rw [find_outlineOwners, hf] at hnone
  exact absurd hnone (by simp)

end Groups

/-- The winners, the sources and the keys of the sessions. -/
def RegistryState.outline (s : RegistryState) : RegistryState where
  sources := s.sources
  sessions := ExtTreeMap.map (fun _ _ => {}) s.sessions
  objectRegistrations := outlineGroups s.objectRegistrations
  endpointRegistrations := outlineGroups s.endpointRegistrations
  subjectRecords := outlineGroups s.subjectRecords
  portRecords := outlineGroups s.portRecords
  lifecycleRecords := outlineGroups s.lifecycleRecords
  reincarnationRecords := outlineGroups s.reincarnationRecords
  objectCapabilityRecords := outlineGroups s.objectCapabilityRecords
  portCapabilityRecords := outlineGroups s.portCapabilityRecords

theorem lookup_outline (s : RegistryState) (k : ClaimKey) :
    s.outline.lookup k = (s.lookup k).map Folded.outline := by
  cases k <;> simp only [RegistryState.lookup, RegistryState.outline, find₂_outlineGroups,
    Option.map_map] <;> rfl

theorem WellKeyed.outline {s : RegistryState} (h : WellKeyed s) : WellKeyed s.outline := by
  obtain ⟨h₁, h₂, h₃, h₄, h₅, h₆, h₇, h₈, h₉⟩ := h
  refine ⟨grouped_outlineGroups h₁, grouped_outlineGroups h₂, grouped_outlineGroups h₃,
    grouped_outlineGroups h₄, grouped_outlineGroups h₅, grouped_outlineGroups h₆,
    grouped_outlineGroups h₇, grouped_outlineGroups h₈, ?_⟩
  intro p key f hf
  have hf' : OrdMap.find₂ (outlineGroups s.portRecords) p key = some f := hf
  rw [find₂_outlineGroups] at hf'
  obtain ⟨f₀, hf₀, -⟩ := Option.map_eq_some_iff.mp hf'
  exact h₉ p key f₀ hf₀

/-- The two states have the same winner at every key, the same sources and sessions of the same
source incarnations. -/
structure SameWinners (s s' : RegistryState) : Prop where
  winner : ∀ k, s'.winner k = s.winner k
  sources : s'.sources = s.sources
  sessions : ∀ key, s'.sessions.contains key = s.sessions.contains key

section SameWinners

variable {s s' s'' : RegistryState}

theorem SameWinners.trans (h : SameWinners s s') (h' : SameWinners s' s'') : SameWinners s s'' :=
  ⟨fun k => (h'.winner k).trans (h.winner k), h'.sources.trans h.sources,
    fun key => (h'.sessions key).trans (h.sessions key)⟩

theorem SameWinners.symm (h : SameWinners s s') : SameWinners s' s :=
  ⟨fun k => (h.winner k).symm, h.sources.symm, fun key => (h.sessions key).symm⟩

theorem SameWinners.of_core (h : s'.core = s.core) : SameWinners s s' := by
  refine ⟨fun k => by rw [winner_eq_of_core h], ?_, ?_⟩
  · have hsources : s'.core.sources = s.core.sources := by rw [h]
    exact hsources
  · intro key
    rw [← Registry.contains_core_sessions, h, Registry.contains_core_sessions]

/-- **States with the same winners have the same outline.** -/
theorem SameWinners.outline (h : SameWinners s s') (hw : WellKeyed s) (hw' : WellKeyed s') :
    s'.outline = s.outline := by
  have hlookup : ∀ k, s'.outline.lookup k = s.outline.lookup k := by
    intro k
    have hk := h.winner k
    rw [lookup_outline, lookup_outline]
    unfold RegistryState.winner at hk
    cases hf : s.lookup k with
    | none =>
      rw [hf, Option.map_none, Option.map_eq_none_iff] at hk
      rw [hk]
    | some f =>
      rw [hf, Option.map_some] at hk
      obtain ⟨f', hf', heq⟩ := Option.map_eq_some_iff.mp hk
      obtain ⟨hm, hv⟩ := Prod.mk.inj heq
      rw [hf', Option.map_some, Option.map_some, Folded.outline, Folded.outline, hm, hv]
  have hsessions : s'.outline.sessions = s.outline.sessions := by
    apply ExtTreeMap.ext_getElem?
    intro key
    have hkey := h.sessions key
    simp only [ExtTreeMap.contains_eq_isSome_getElem?] at hkey
    simp only [RegistryState.outline, ExtTreeMap.getElem?_map]
    cases h₁ : s.sessions[key]? <;> cases h₂ : s'.sessions[key]? <;> simp_all
  exact hw'.outline.ext hw.outline h.sources hsessions hlookup

end SameWinners

/-! ### Reading an outline -/

section Outline

variable (s : RegistryState)

theorem objectExists_outline (object : ObjectId) :
    objectExists s.outline object = objectExists s object := by
  simp only [objectExists, RegistryState.outline, find_outlineGroups]
  cases s.objectRegistrations[object]? with
  | none => rfl
  | some owners =>
    simp only [Option.map_some, ExtTreeMap.isEmpty_eq_size_beq_zero, size_outlineOwners]

theorem objectIncarnationOf_outline (object : ObjectId) :
    objectIncarnationOf s.outline object = objectIncarnationOf s object := by
  simp only [objectIncarnationOf, RegistryState.outline, find_outlineGroups]
  cases s.reincarnationRecords[object]? with
  | none => rfl
  | some owners =>
    simp only [Option.map_some, toList_outlineOwners, List.foldl_map]
    rfl

theorem lifecycleCandidates_outline (object : ObjectId) :
    lifecycleCandidates s.outline object = lifecycleCandidates (s.blur coreBlur) object := by
  have hl : s.outline.lifecycleRecords = outlineGroups s.lifecycleRecords := rfl
  have hr : s.outline.reincarnationRecords = outlineGroups s.reincarnationRecords := rfl
  have hl' : (s.blur coreBlur).lifecycleRecords = blurGroups coreBlur s.lifecycleRecords := rfl
  have hr' : (s.blur coreBlur).reincarnationRecords =
      blurGroups coreBlur s.reincarnationRecords := rfl
  simp only [lifecycleCandidates, hl, hr, hl', hr', find_outlineGroups, find_blurGroups,
    objectIncarnationOf_outline, objectIncarnationOf_blur]
  congr 1
  · cases s.lifecycleRecords[object]? with
    | none => rfl
    | some owners =>
      simp only [Option.map_some, toList_outlineOwners, toList_blurOwners, List.filter_map,
        List.map_map]
      rfl
  · cases s.reincarnationRecords[object]? with
    | none => rfl
    | some owners =>
      simp only [Option.map_some, toList_outlineOwners, toList_blurOwners, List.filter_map,
        List.map_map]
      rfl

theorem lifecycleActionOf_outline_eq (object : ObjectId) :
    lifecycleActionOf s.outline object = lifecycleActionOf (s.blur coreBlur) object := by
  unfold lifecycleActionOf
  rw [lifecycleCandidates_outline]

theorem lifecycleActionOf_outline (object : ObjectId) :
    (lifecycleActionOf s.outline object).action = (lifecycleActionOf s object).action := by
  rw [lifecycleActionOf_outline_eq, lifecycleActionOf_blur]

theorem lifecycleConflicting_outline (object : ObjectId) :
    (lifecycleActionOf s.outline object).conflicting = (lifecycleActionOf s object).conflicting := by
  rw [lifecycleActionOf_outline_eq, lifecycleActionOf_blur]

theorem holdsLiveLabel_outline (label : Text) (object holder : ObjectId) :
    holdsLiveLabel s.outline label object holder = holdsLiveLabel s label object holder := by
  have hr : s.outline.objectRegistrations = outlineGroups s.objectRegistrations := rfl
  unfold holdsLiveLabel
  rw [lifecycleActionOf_outline, hr, find_outlineGroups]
  cases s.objectRegistrations[holder]? with
  | none => rfl
  | some owners =>
    dsimp only [Option.map_some]
    rw [toList_outlineOwners, List.any_map]
    rfl

theorem portCapacityReached_outline (limits : Limits) (key : PortSlotKey) :
    portCapacityReached limits s.outline key = portCapacityReached limits s key := by
  have hr : s.outline.portRecords = outlineGroups s.portRecords := rfl
  unfold portCapacityReached
  rw [hr, find_outlineGroups]
  cases s.portRecords[key.port]? with
  | none => rfl
  | some slots =>
    dsimp only [Option.map_some]
    rw [size_outlineOwners, contains_outlineOwners]

theorem targetReached_outline (u : ClaimUpdate) : targetReached s.outline u = targetReached s u := by
  cases u <;> simp only [targetReached, objectExists_outline, objectIncarnationOf_outline]

theorem claimOutcome_outline (m : Attestation) (u : ClaimUpdate) :
    claimOutcome s.outline m u = claimOutcome s m u := by
  unfold claimOutcome
  rw [lookup_outline]
  cases s.lookup (u.key m.owner) <;> rfl

theorem resolvedOutcome_outline (m : Attestation) (u : ClaimUpdate) :
    resolvedOutcome s.outline m u = resolvedOutcome s m u := by
  simp only [resolvedOutcome, claimOutcome_outline, targetReached_outline]

end Outline

/-! ### Larger limits -/

variable {u : ClaimUpdate} {payload : EvidencePayload}

/-- No limit that a record is checked against after it was read is smaller. -/
structure Limits.Within (limits limits' : Limits) : Prop where
  objects : limits.maxObjects ≤ limits'.maxObjects
  endpoints : limits.maxEndpoints ≤ limits'.maxEndpoints
  attachments : limits.maxPortSimultaneousAttachments ≤ limits'.maxPortSimultaneousAttachments
  claims : limits.maxClaimRecordsPerPort ≤ limits'.maxClaimRecordsPerPort

section Within

variable {limits limits' : Limits} {s s' : RegistryState}

/-- A slot below a limit is below a larger one. -/
theorem slot_mono {slot bound bound' : UInt32} (h : bound ≤ bound')
    (hslot : decide (slot ≥ bound) = false) : decide (slot ≥ bound') = false := by
  simp only [ge_iff_le, decide_eq_false_iff_not, UInt32.not_le] at hslot ⊢
  exact UInt32.lt_of_lt_of_le hslot h

/-- A count that passed the check of one limit passes that of another it is within. -/
theorem count_within {count bound bound' : UInt32} (h : count ≤ bound')
    (hcount : (count == 0 || decide (count > bound)) = false) :
    (count == 0 || decide (count > bound')) = false := by
  simp only [Bool.or_eq_false_iff, gt_iff_lt, decide_eq_false_iff_not, UInt32.not_lt] at hcount ⊢
  exact ⟨hcount.1, h⟩

/-- A payload of the right shape that is read under other limits has the right shape under them, if
they allow as many slots. -/
theorem validatePayload_within (h : limits.Within limits') (hfits : payload.Fits limits')
    (hok : validatePayload payload limits = .ok ()) :
    validatePayload payload limits' = .ok () := by
  cases payload with
  | registerObject p =>
    obtain ⟨⟨hlabel, hserial, hlocation⟩, hsides, hcode⟩ := hfits
    simp only [validatePayload, validateObjectDescriptor, refuseIf_bind_eq_ok, refuseIf_eq_ok,
      Bool.or_eq_false_iff, Bool.not_eq_false', decide_eq_false_iff_not, gt_iff_lt, Nat.not_lt] at hok ⊢
    obtain ⟨hid, hsome, -, -, -, hrest⟩ := hok
    exact ⟨hid, hsome, hsides, ⟨⟨hlabel, hserial⟩, hlocation⟩, hcode, hrest⟩
  | registerEndpoint p =>
    obtain ⟨⟨hname, hlocation⟩, hports, hattachments⟩ := hfits
    simp only [validatePayload, validateEndpointDescriptor, refuseIf_bind_eq_ok, refuseIf_eq_ok]
      at hok ⊢
    obtain ⟨hid, hports', -, hkind, hattachments'⟩ := hok
    exact ⟨hid, count_within hports hports', by simp [hname, hlocation], hkind,
      count_within hattachments hattachments'⟩
  | attach p =>
    simp only [validatePayload, refuseIf_bind_eq_ok, refuseIf_eq_ok] at hok ⊢
    exact ⟨hok.1, hok.2.1, slot_mono h.attachments hok.2.2⟩
  | detach p =>
    simp only [validatePayload, refuseIf_bind_eq_ok, refuseIf_eq_ok] at hok ⊢
    exact ⟨hok.1, hok.2.1, hok.2.2.1, slot_mono h.attachments hok.2.2.2⟩
  | move p =>
    simp only [validatePayload, refuseIf_bind_eq_ok, refuseIf_eq_ok] at hok ⊢
    obtain ⟨hids, hincarnation, hslots⟩ := hok
    refine ⟨hids, hincarnation, ?_⟩
    rw [Bool.or_eq_false_iff] at hslots ⊢
    exact ⟨slot_mono h.attachments hslots.1, slot_mono h.attachments hslots.2⟩
  | publishObjectCapability p =>
    simp only [validatePayload, refuseIf_bind_eq_ok, refuseIf_eq_ok, Bool.not_eq_false'] at hok ⊢
    exact ⟨hok.1, hfits, hok.2.2⟩
  | publishPortCapability p =>
    simp only [validatePayload, refuseIf_bind_eq_ok, refuseIf_eq_ok] at hok ⊢
    exact ⟨hok.1, count_within hfits hok.2⟩
  | setLifecycle p =>
    simp only [validatePayload, refuseIf_bind_eq_ok, refuseIf_eq_ok, Bool.not_eq_false'] at hok ⊢
    exact ⟨hok.1, hok.2.1, hok.2.2.1, hfits⟩
  | reincarnateObject p =>
    simp only [validatePayload, refuseIf_bind_eq_ok, refuseIf_eq_ok] at hok ⊢
    exact ⟨hok.1, hok.2.1, by simp [hfits.1, hfits.2]⟩

/-- **A record of the right shape that is read under other limits has the right shape under them**, if
they allow as many slots. -/
theorem validateEvidenceShape_within (h : limits.Within limits') {e : Evidence}
    (hdetail : fits e.header.provenanceDetail limits'.maxStringBytes) (hfits : e.payload.Fits limits')
    (hok : validateEvidenceShape e limits = .ok ()) : validateEvidenceShape e limits' = .ok () := by
  simp only [validateEvidenceShape, refuseIf_bind_eq_ok, Bool.not_eq_false'] at hok ⊢
  obtain ⟨hid, hsource, hincarnation, hgeneration, hschema, -, hprovenance, hpayload⟩ := hok
  exact ⟨hid, hsource, hincarnation, hgeneration, hschema, hdetail, hprovenance,
    validatePayload_within h hfits hpayload⟩

theorem hasRoom_outline (u : ClaimUpdate) : HasRoom limits s.outline u ↔ HasRoom limits s u := by
  have ho : s.outline.objectRegistrations = outlineGroups s.objectRegistrations := rfl
  have he : s.outline.endpointRegistrations = outlineGroups s.endpointRegistrations := rfl
  cases u <;> simp only [HasRoom, holdsLiveLabel_outline, portCapacityReached_outline, ho, he,
    contains_outlineGroups, size_outlineGroups]

theorem HasRoom.mono (h : limits.Within limits') (hroom : HasRoom limits s u) :
    HasRoom limits' s u := by
  cases u with
  | objectRegistration object value =>
    exact hroom.imp_right (Or.imp_right fun hlt =>
      Nat.lt_of_lt_of_le hlt (UInt32.le_iff_toNat_le.mp h.objects))
  | endpointRegistration endpoint value =>
    exact Or.imp_right (fun hlt => Nat.lt_of_lt_of_le hlt (UInt32.le_iff_toNat_le.mp h.endpoints)) hroom
  | port key value =>
    unfold HasRoom portCapacityReached at hroom ⊢
    dsimp only at hroom ⊢
    split
    · rfl
    · rename_i slots hslots
      rw [hslots] at hroom
      dsimp only at hroom
      rw [capacity_iff] at hroom ⊢
      exact hroom.imp_right fun hlt =>
        Nat.lt_of_lt_of_le hlt (UInt32.le_iff_toNat_le.mp h.claims)
  | _ => trivial

end Within

/-! ### The same record in two states -/

section Transfer

variable {limits limits' : Limits} {historyPerKey historyPerKey' : UInt32} {s s' s₁ s₁' : RegistryState}
  {index index' : Option LabelIndex} {e : Evidence} {m : Attestation}

section

variable (h : SameWinners s s') (hw : WellKeyed s) (hw' : WellKeyed s')

include h hw hw'

theorem SameWinners.resolvedOutcome (u : ClaimUpdate) :
    resolvedOutcome s' m u = resolvedOutcome s m u := by
  rw [← resolvedOutcome_outline s', h.outline hw hw', resolvedOutcome_outline]

/-- **A record that is accepted in one state is accepted in another with the same winners**, under
limits that are not smaller. -/
theorem SameWinners.isAccepted (hlimits : limits.Within limits') (hi : CoveredBy s index)
    (hi' : CoveredBy s' index')
    (hd : (decideEvidence limits s index m payload).disposition.isAccepted = true) :
    (decideEvidence limits' s' index' m payload).disposition.isAccepted = true := by
  rw [isAccepted_decideEvidence_iff hi] at hd
  rw [isAccepted_decideEvidence_iff hi']
  intro u hu
  have hsame : claimOutcome s' m u = claimOutcome s m u := by
    rw [← claimOutcome_outline s', h.outline hw hw', claimOutcome_outline]
  rw [hsame]
  refine (hd u hu).imp_right fun himp ho => ?_
  rw [← hasRoom_outline, h.outline hw hw', hasRoom_outline]
  exact (himp ho).mono hlimits

/-- **A record that two states with the same winners accept leaves them with the same winners.** -/
theorem SameWinners.accepts (ha : Accepts limits historyPerKey s e m s₁)
    (ha' : Accepts limits' historyPerKey' s' e m s₁') :
    SameWinners s₁ s₁' := by
  refine ⟨fun k => ?_, ?_, fun key => ?_⟩
  · by_cases hk : ∃ u ∈ claimsOf e.key e.payload, u.key e.key = k ∧
      CableRegistry.resolvedOutcome s m u = .insert
    · obtain ⟨u, hu, rfl, ho⟩ := hk
      rw [winner_of_insert ha hu ho, winner_of_insert ha' hu ((h.resolvedOutcome hw hw' u).trans ho)]
    · have hnone : ∀ u ∈ claimsOf e.key e.payload, u.key e.key = k →
          CableRegistry.resolvedOutcome s m u ≠ .insert := fun u hu hkey ho => hk ⟨u, hu, hkey, ho⟩
      rw [winner_of_not_insert ha hnone, winner_of_not_insert ha' fun u hu hkey => by
        rw [h.resolvedOutcome hw hw']
        exact hnone u hu hkey]
      exact h.winner k
  · rw [ha.sources, ha'.sources, h.sources]
  · rw [ha.contains, ha'.contains, h.sessions]

end

end Transfer

end CableRegistry
