import CableRegistry.Ingest

/-!
# A state, one claim key at a time

The eight maps of a state are eight instances of one thing: a claim key finds a
folded record.  `RegistryState.lookup` reads a state at a `ClaimKey`, whichever map
the key belongs to, and `claimsOf` lists the claims a record makes.

Everything evidence does to a state is said here once.  `resolves_decideEvidence`: a
decision resolves each claim of the record by what its key holds
(`resolvedOutcome`), whatever the kind of the record.  `lookup_applyChange_of_mem` and
`lookup_applyChange_of_not_mem`: applying the decision changes the keys of the record's
claims, each by its own outcome, and no other key.
-/

open Std

namespace CableRegistry

/-! ### Keys and values -/

/-- A key of one of the eight maps. -/
inductive ClaimKey where
  | objectRegistration (object : ObjectId) (owner : SourceIncarnationKey)
  | endpointRegistration (endpoint : EndpointId) (owner : SourceIncarnationKey)
  | subject (subject : ObjectSideRef) (owner : SourceIncarnationKey)
  | port (key : PortSlotKey)
  | lifecycle (object : ObjectId) (owner : SourceIncarnationKey)
  | reincarnation (object : ObjectId) (owner : SourceIncarnationKey)
  | objectCapability (object : ObjectId) (owner : SourceIncarnationKey)
  | portCapability (port : PortRef) (owner : SourceIncarnationKey)
  deriving DecidableEq

/-- A value of one of the eight maps. -/
inductive ClaimValue where
  | objectRegistration (value : ObjectRegistrationValue)
  | endpointRegistration (value : EndpointRegistrationValue)
  | subject (value : SubjectValue)
  | port (value : PortValue)
  | lifecycle (value : LifecycleValue)
  | reincarnation (value : ReincarnationValue)
  | objectCapability (value : ObjectCapabilityValue)
  | portCapability (value : PortCapabilityValue)
  deriving DecidableEq

/-- The source incarnation whose claim the key is. -/
def ClaimKey.owner : ClaimKey → SourceIncarnationKey
  | .objectRegistration _ owner | .endpointRegistration _ owner | .subject _ owner
  | .lifecycle _ owner | .reincarnation _ owner | .objectCapability _ owner
  | .portCapability _ owner => owner
  | .port slot => slot.owner

namespace ClaimUpdate

def key (owner : SourceIncarnationKey) : ClaimUpdate → ClaimKey
  | .objectRegistration object _ => .objectRegistration object owner
  | .endpointRegistration endpoint _ => .endpointRegistration endpoint owner
  | .subject side _ => .subject side owner
  | .port slot _ => .port slot
  | .lifecycle object _ => .lifecycle object owner
  | .reincarnation object _ => .reincarnation object owner
  | .objectCapability object _ => .objectCapability object owner
  | .portCapability reference _ => .portCapability reference owner

def value : ClaimUpdate → ClaimValue
  | .objectRegistration _ v => .objectRegistration v
  | .endpointRegistration _ v => .endpointRegistration v
  | .subject _ v => .subject v
  | .port _ v => .port v
  | .lifecycle _ v => .lifecycle v
  | .reincarnation _ v => .reincarnation v
  | .objectCapability _ v => .objectCapability v
  | .portCapability _ v => .portCapability v

/-- The stored value says what the claim says.  A lifecycle claim does not compare its
incarnation, nor a reincarnation its target. -/
def sameContent : ClaimUpdate → ClaimValue → Bool
  | .lifecycle _ v, .lifecycle stored => stored.action == v.action && stored.reason == v.reason
  | .reincarnation _ v, .reincarnation stored =>
    stored.fromIncarnation == v.fromIncarnation && stored.serialLike == v.serialLike &&
      stored.reason == v.reason
  | update, stored => stored == update.value

end ClaimUpdate

/-- The claims a payload of the given owner makes. -/
def claimsOf (owner : SourceIncarnationKey) : EvidencePayload → List ClaimUpdate
  | .registerObject p => [.objectRegistration p.descriptor.id p.descriptor]
  | .registerEndpoint p => [.endpointRegistration p.descriptor.id p.descriptor]
  | .attach p => (attachClaim owner p).claims
  | .detach p => (detachClaim owner p).claims
  | .move p => (moveClaim owner p).claims
  | .publishObjectCapability p => [.objectCapability p.object p.capability]
  | .publishPortCapability p => [.portCapability p.port p.capability]
  | .setLifecycle p => [.lifecycle p.object ⟨p.objectIncarnation, p.action, p.reason⟩]
  | .reincarnateObject p => [.reincarnation p.object (reincarnationValue p)]

variable {u : ClaimUpdate} {payload : EvidencePayload} {claim : PositionClaim}
  {owner : SourceIncarnationKey}

theorem subject_mem_claims {subject : ObjectSideRef} {v : SubjectValue} :
    .subject subject v ∈ claim.claims ↔ subject = claim.subject ∧ v = claim.subjectValue := by
  simp [PositionClaim.claims]

theorem port_mem_claims {key : PortSlotKey} {v : PortValue} :
    .port key v ∈ claim.claims ↔ (key, v) ∈ claim.updates := by
  simp [PositionClaim.claims]

/-- No two claims of a record have the same key. -/
theorem nodup_keys_claimsOf (owner : SourceIncarnationKey) (payload : EvidencePayload) :
    ((claimsOf owner payload).map (·.key owner)).Nodup := by
  cases payload with
  | attach p => simp [claimsOf, attachClaim, PositionClaim.claims, ClaimUpdate.key]
  | detach p =>
    simp only [claimsOf, detachClaim, PositionClaim.claims]
    split <;> simp [ClaimUpdate.key]
  | move p =>
    simp only [claimsOf, moveClaim, PositionClaim.claims]
    split
    · simp [ClaimUpdate.key]
    · rename_i h
      simp only [Bool.and_eq_true, beq_iff_eq, not_and] at h
      simp only [List.map_cons, List.map_nil, ClaimUpdate.key, List.nodup_cons, List.mem_cons,
        ClaimKey.port.injEq, PortSlotKey.mk.injEq, List.not_mem_nil, or_false, reduceCtorEq,
        not_false_eq_true, List.nodup_nil, and_true, true_and, not_and]
      intro hp hs
      exact h hp.symm hs.symm
  | _ => simp [claimsOf]

/-- The object incarnation a value is about, where it is about one. -/
def ClaimValue.objectIncarnation : ClaimValue → ObjectIncarnation
  | .subject value => value.objectIncarnation
  | .port value => value.objectIncarnation
  | .lifecycle value => value.objectIncarnation
  | _ => 0

/-- Every claim is one of the record's own source incarnation, about its object's incarnation. -/
theorem claimsOf_spec (h : u ∈ claimsOf owner payload) :
    (u.key owner).owner = owner ∧
      objectIncarnationOfEvidence payload = u.value.objectIncarnation := by
  cases payload with
  | detach p =>
    simp only [claimsOf, detachClaim, PositionClaim.claims] at h
    split at h <;> simp at h <;> rcases h with rfl | rfl <;> exact ⟨rfl, rfl⟩
  | move p =>
    simp only [claimsOf, moveClaim, PositionClaim.claims] at h
    split at h <;> simp at h
    · rcases h with rfl | rfl <;> exact ⟨rfl, rfl⟩
    · rcases h with rfl | rfl | rfl <;> exact ⟨rfl, rfl⟩
  | attach p =>
    simp [claimsOf, attachClaim, PositionClaim.claims] at h
    rcases h with rfl | rfl <;> exact ⟨rfl, rfl⟩
  | _ =>
    simp only [claimsOf, List.mem_singleton] at h
    subst h
    exact ⟨rfl, rfl⟩

theorem owner_key_of_mem_claimsOf (h : u ∈ claimsOf owner payload) : (u.key owner).owner = owner :=
  (claimsOf_spec h).1

/-! ### Looking up -/

def Folded.mapValue {ν μ : Type} (f : ν → μ) (r : Folded ν) : Folded μ :=
  ⟨r.metadata, f r.value, r.superseded, r.historyDropped⟩

/-- The folded record of a claim key. -/
def RegistryState.lookup (s : RegistryState) : ClaimKey → Option (Folded ClaimValue)
  | .objectRegistration object owner =>
    (OrdMap.find₂ s.objectRegistrations object owner).map (.mapValue .objectRegistration)
  | .endpointRegistration endpoint owner =>
    (OrdMap.find₂ s.endpointRegistrations endpoint owner).map (.mapValue .endpointRegistration)
  | .subject subject owner =>
    (OrdMap.find₂ s.subjectRecords subject owner).map (.mapValue .subject)
  | .port key => (OrdMap.find₂ s.portRecords key.port key).map (.mapValue .port)
  | .lifecycle object owner =>
    (OrdMap.find₂ s.lifecycleRecords object owner).map (.mapValue .lifecycle)
  | .reincarnation object owner =>
    (OrdMap.find₂ s.reincarnationRecords object owner).map (.mapValue .reincarnation)
  | .objectCapability object owner =>
    (OrdMap.find₂ s.objectCapabilityRecords object owner).map (.mapValue .objectCapability)
  | .portCapability port owner =>
    (OrdMap.find₂ s.portCapabilityRecords port owner).map (.mapValue .portCapability)

/-- Writing into a key, with whatever it held. -/
def winSlot {ν : Type} (historyPerKey : UInt32) (metadata : Attestation) (value : ν) :
    Option (Folded ν) → Folded ν
  | none => ⟨metadata, value, [], 0⟩
  | some r => r.win historyPerKey metadata value

section Groups

variable {κ ι ν μ : Type} [Ord κ] [TransOrd κ] [LawfulEqOrd κ] [DecidableEq κ] [Ord ι] [TransOrd ι]
  [LawfulEqOrd ι] [DecidableEq ι] (historyPerKey : UInt32) (metadata : Attestation)

theorem find_fold (slots : OrdMap ι (Folded ν)) (i i' : ι) (value : ν) :
    (fold historyPerKey slots i metadata value)[i']? =
      if i = i' then some (winSlot historyPerKey metadata value slots[i]?) else slots[i']? := by
  unfold fold
  cases slots[i]? <;> simp only [OrdMap.find_insert, winSlot]

theorem find_foldLosing (slots : OrdMap ι (Folded ν)) (i i' : ι) :
    (foldLosing historyPerKey slots i metadata)[i']? =
      if i = i' then (slots[i]?).map (Folded.lose historyPerKey metadata) else slots[i']? := by
  unfold foldLosing
  cases h : slots[i]? with
  | none =>
    by_cases hi : i = i'
    · subst hi; simp [h]
    · simp [hi]
  | some r => simp only [OrdMap.find_insert, Option.map_some]

theorem find₂_foldGroup (groups : Groups κ ι ν) (k k' : κ) (i i' : ι) (value : ν) :
    OrdMap.find₂ (foldGroup historyPerKey groups k i metadata value) k' i' =
      if k = k' ∧ i = i' then
        some (winSlot historyPerKey metadata value (OrdMap.find₂ groups k i))
      else OrdMap.find₂ groups k' i' := by
  have hget : (groups.getD k ∅)[i]? = OrdMap.find₂ groups k i := by
    rw [ExtTreeMap.getD_eq_getD_getElem?]
    cases h : groups[k]? <;> simp [OrdMap.find₂, h]
  have hget' : (groups.getD k ∅)[i']? = OrdMap.find₂ groups k i' := by
    rw [ExtTreeMap.getD_eq_getD_getElem?]
    cases h : groups[k]? <;> simp [OrdMap.find₂, h]
  rw [foldGroup, OrdMap.find₂_insert]
  by_cases hk : k = k'
  · subst hk
    simp only [if_true, true_and, find_fold, hget, hget']
  · simp only [hk, if_false, false_and]

theorem find₂_foldLosingGroup (groups : Groups κ ι ν) (k k' : κ) (i i' : ι) :
    OrdMap.find₂ (foldLosingGroup historyPerKey groups k i metadata) k' i' =
      if k = k' ∧ i = i' then
        (OrdMap.find₂ groups k i).map (Folded.lose historyPerKey metadata)
      else OrdMap.find₂ groups k' i' := by
  unfold foldLosingGroup
  cases h : groups[k]? with
  | none =>
    by_cases hk : k = k' ∧ i = i'
    · obtain ⟨rfl, rfl⟩ := hk
      simp [OrdMap.find₂, h]
    · simp only [hk, if_false]
  | some slots =>
    rw [OrdMap.find₂_insert]
    by_cases hk : k = k'
    · subst hk
      simp only [if_true, true_and, find_foldLosing, OrdMap.find₂, h, Option.bind_some]
    · simp only [hk, if_false, false_and]

end Groups

section Lookup

variable (historyPerKey : UInt32) (metadata : Attestation) (s : RegistryState)

theorem map_winSlot {ν μ : Type} (f : ν → μ) (v : ν) (o : Option (Folded ν)) :
    (winSlot historyPerKey metadata v o).mapValue f =
      winSlot historyPerKey metadata (f v) (o.map (.mapValue f)) := by
  cases o <;> rfl

theorem map_lose {ν μ : Type} (f : ν → μ) (r : Folded ν) :
    (r.lose historyPerKey metadata).mapValue f = (r.mapValue f).lose historyPerKey metadata := by
  simp only [Folded.lose, apply_ite (Folded.mapValue f)]
  rfl

theorem map_map_lose {ν μ : Type} (f : ν → μ) (o : Option (Folded ν)) :
    (o.map (Folded.lose historyPerKey metadata)).map (Folded.mapValue f) =
      (o.map (Folded.mapValue f)).map (Folded.lose historyPerKey metadata) := by
  cases o with
  | none => rfl
  | some r => simp only [Option.map_some, map_lose]

/-- A write changes the key of its claim only. -/
theorem lookup_applyWrite (u : ClaimUpdate) (k : ClaimKey) :
    (applyWrite historyPerKey metadata s u).lookup k =
      if u.key metadata.owner = k then
        some (winSlot historyPerKey metadata u.value (s.lookup (u.key metadata.owner)))
      else s.lookup k := by
  by_cases hk : u.key metadata.owner = k
  · subst hk
    rw [if_pos rfl]
    cases u <;> simp only [applyWrite, RegistryState.lookup, ClaimUpdate.key, ClaimUpdate.value,
      find₂_foldGroup, and_self, if_true, Option.map_some, map_winSlot]
  · rw [if_neg hk]
    cases u <;> cases k <;> first
      | rfl
      | simp only [ClaimUpdate.key, ClaimKey.objectRegistration.injEq,
          ClaimKey.endpointRegistration.injEq, ClaimKey.subject.injEq, ClaimKey.port.injEq,
          ClaimKey.lifecycle.injEq, ClaimKey.reincarnation.injEq, ClaimKey.objectCapability.injEq,
          ClaimKey.portCapability.injEq] at hk
        simp only [applyWrite, RegistryState.lookup, find₂_foldGroup, hk, and_false, if_false]

/-- A ring update changes the key of its claim only, and only its ring. -/
theorem lookup_applyRing (u : ClaimUpdate) (k : ClaimKey) :
    (applyRing historyPerKey metadata s u).lookup k =
      if u.key metadata.owner = k then
        (s.lookup (u.key metadata.owner)).map (Folded.lose historyPerKey metadata)
      else s.lookup k := by
  by_cases hk : u.key metadata.owner = k
  · subst hk
    rw [if_pos rfl]
    cases u <;> simp only [applyRing, RegistryState.lookup, ClaimUpdate.key,
      find₂_foldLosingGroup, and_self, if_true, map_map_lose]
  · rw [if_neg hk]
    cases u <;> cases k <;> first
      | rfl
      | simp only [ClaimUpdate.key, ClaimKey.objectRegistration.injEq,
          ClaimKey.endpointRegistration.injEq, ClaimKey.subject.injEq, ClaimKey.port.injEq,
          ClaimKey.lifecycle.injEq, ClaimKey.reincarnation.injEq, ClaimKey.objectCapability.injEq,
          ClaimKey.portCapability.injEq] at hk
        simp only [applyRing, RegistryState.lookup, find₂_foldLosingGroup, hk, and_false, if_false]

end Lookup

/-! ### Decisions -/

/-- What a record meets in a slot. -/
def slotOutcome {ν : Type} (slot : Option (Folded ν)) (metadata : Attestation) (same : ν → Bool) :
    GenerationOutcome :=
  match slot with
  | none => .insert
  | some r => compareGeneration r.metadata metadata (same r.value)

theorem existingOutcome_eq {κ ι ν : Type} [Ord κ] [TransOrd κ] [Ord ι] [TransOrd ι]
    (groups : Groups κ ι ν) (k : κ) (i : ι) (metadata : Attestation) (same : ν → Bool) :
    existingOutcome groups k i metadata same =
      slotOutcome (OrdMap.find₂ groups k i) metadata same := by
  unfold existingOutcome OrdMap.find₂
  cases groups[k]? <;> rfl

/-- What a claim meets at its key. -/
def claimOutcome (s : RegistryState) (metadata : Attestation) (u : ClaimUpdate) : GenerationOutcome :=
  slotOutcome (s.lookup (u.key metadata.owner)) metadata u.sameContent

/-- The target of a reincarnation is already reached by the object. -/
def targetReached (s : RegistryState) : ClaimUpdate → Bool
  | .reincarnation object value =>
    objectExists s object && value.target ≤ objectIncarnationOf s object
  | _ => false

/-- A reincarnation is the one kind whose fate depends on other keys than its own. -/
def EvidencePayload.isReincarnation : EvidencePayload → Bool
  | .reincarnateObject _ => true
  | _ => false

theorem targetReached_of_mem {s : RegistryState} (hkind : payload.isReincarnation = false)
    (h : u ∈ claimsOf owner payload) : targetReached s u = false := by
  cases payload with
  | reincarnateObject p => simp [EvidencePayload.isReincarnation] at hkind
  | attach p | detach p | move p =>
    simp only [claimsOf, PositionClaim.claims, List.mem_cons, List.mem_map] at h
    rcases h with rfl | ⟨update, -, rfl⟩ <;> rfl
  | _ =>
    simp only [claimsOf, List.mem_singleton] at h
    subst h
    rfl

/-- What becomes of a claim.  A reincarnation to a target that is already reached only
joins the ring, whatever its generation. -/
def resolvedOutcome (s : RegistryState) (metadata : Attestation) (u : ClaimUpdate) :
    GenerationOutcome :=
  if claimOutcome s metadata u = .insert ∧ targetReached s u then .superseded
  else claimOutcome s metadata u

/-- The change that resolves every claim by its own outcome. -/
def stagedBy (metadata : Attestation) (outcome : ClaimUpdate → GenerationOutcome)
    (claims : List ClaimUpdate) : StagedChange where
  metadata := metadata
  writes := claims.filter (outcome · == .insert)
  rings := claims.filter (outcome · == .superseded)
  apply := claims.any fun u => outcome u == .insert || outcome u == .superseded

theorem stagedBy_apply (metadata : Attestation) (outcome : ClaimUpdate → GenerationOutcome)
    (claims : List ClaimUpdate) :
    (stagedBy metadata outcome claims).apply =
      !((stagedBy metadata outcome claims).writes.isEmpty &&
        (stagedBy metadata outcome claims).rings.isEmpty) := by
  induction claims with
  | nil => rfl
  | cons u claims ih =>
    simp only [stagedBy, List.any_cons, List.filter_cons] at ih ⊢
    rw [ih]
    cases outcome u <;> simp

/-- An accepted decision stages every claim by its outcome, none of them a collision;
a refused one stages nothing. -/
structure Decision.Resolves (d : Decision) (metadata : Attestation)
    (outcome : ClaimUpdate → GenerationOutcome) (claims : List ClaimUpdate) : Prop where
  accepted : d.disposition.isAccepted = true →
    (∀ u ∈ claims, outcome u ≠ .collision) ∧ d.change = stagedBy metadata outcome claims
  refused : d.disposition.isAccepted = false → d.change = { metadata := metadata }

section Resolve

variable {limits : Limits} {s : RegistryState} {index : Option LabelIndex} {metadata : Attestation}
  {outcome : ClaimUpdate → GenerationOutcome} {u : ClaimUpdate}

theorem isAccepted_effectiveDisposition (base : IngestDisposition) (a b c : Bool)
    (h : base.isAccepted = true) : (effectiveDisposition base a b c).isAccepted = true := by
  unfold effectiveDisposition
  split
  · exact h
  · cases a <;> cases b <;> cases c <;> first | exact h | rfl

theorem resolves_settled_refused (disposition : IngestDisposition) (detail : String)
    (claims : List ClaimUpdate) (h : disposition.isAccepted = false) :
    (settled index metadata disposition detail).Resolves metadata outcome claims where
  accepted := by intro h'; exact absurd (h.symm.trans h') (by simp)
  refused := fun _ => rfl

theorem resolves_stageWrite (base : IngestDisposition) (a b : Bool) (hb : base.isAccepted = true)
    (h : outcome u = .insert) :
    (stageWrite s index metadata u base a b).Resolves metadata outcome [u] where
  accepted := by simp [stageWrite, stagedBy, h]
  refused := by
    intro h'
    have := isAccepted_effectiveDisposition base (sessionIsFenced s metadata.owner) a b hb
    exact absurd (h'.symm.trans this) (by simp)

theorem resolves_stageRing (detail : String) (h : outcome u = .superseded) :
    (stageRing index metadata u detail).Resolves metadata outcome [u] where
  accepted := by simp [stageRing, stagedBy, h]
  refused := by simp [stageRing, IngestDisposition.isAccepted]

/-- The part the single claims share. -/
theorem resolves_decideSingle (o : GenerationOutcome) (texts : ClaimTexts) (insert : Decision)
    (h : o ≠ .insert → outcome u = o) (hi : o = .insert → insert.Resolves metadata outcome [u]) :
    (decideSingle index metadata o u texts insert).Resolves metadata outcome [u] := by
  cases o with
  | insert => exact hi rfl
  | superseded => exact resolves_stageRing _ (h (by simp))
  | collision => exact resolves_settled_refused _ _ _ rfl
  | duplicate =>
    have ho := h (by simp)
    refine ⟨fun _ => ⟨by simp [ho], ?_⟩, fun _ => rfl⟩
    simp [stagedBy, decideSingle, settled, ho]

theorem isAccepted_referenceBase (known : Bool) : (referenceBase known).isAccepted = true := by
  cases known <;> rfl

/-- A claim about an object or a port that may be unknown. -/
theorem resolves_reference {o : GenerationOutcome} (texts : ClaimTexts) (known a b : Bool)
    (ho : o = outcome u) :
    (decideSingle index metadata o u texts (stageWrite s index metadata u (referenceBase known) a b)).Resolves
      metadata outcome [u] :=
  resolves_decideSingle _ _ _ (fun _ => ho.symm) fun hi =>
    resolves_stageWrite _ _ _ (isAccepted_referenceBase _) (ho ▸ hi)

/-- A claim of a kind other than a reincarnation is resolved by its key alone. -/
theorem resolvedOutcome_of_not_reached (h : targetReached s u = false) :
    resolvedOutcome s metadata u = claimOutcome s metadata u := by
  simp [resolvedOutcome, h]

/-- The outcome the source computes for one map is that of the claim. -/
theorem existingOutcome_eq_claimOutcome {κ ι ν : Type} [Ord κ] [TransOrd κ] [Ord ι] [TransOrd ι]
    {groups : Groups κ ι ν} {k : κ} {i : ι} {same : ν → Bool} {c : ν → ClaimValue}
    (hl : s.lookup (u.key metadata.owner) = (OrdMap.find₂ groups k i).map (Folded.mapValue c))
    (hc : ∀ v, u.sameContent (c v) = same v) :
    existingOutcome groups k i metadata same = claimOutcome s metadata u := by
  rw [existingOutcome_eq, claimOutcome, hl]
  cases OrdMap.find₂ groups k i with
  | none => rfl
  | some r => simp only [slotOutcome, Option.map_some, Folded.mapValue, hc]

theorem beq_of_injective {α β : Type} [DecidableEq α] [DecidableEq β] {f : α → β}
    (hf : Function.Injective f) (a b : α) : (f a == f b) = (a == b) := by
  rw [Bool.eq_iff_iff, beq_iff_eq, beq_iff_eq, hf.eq_iff]

theorem existingOutcome_objectRegistration (object : ObjectId) (v : ObjectRegistrationValue) :
    existingOutcome s.objectRegistrations object metadata.owner metadata (· == v) =
      claimOutcome s metadata (.objectRegistration object v) :=
  existingOutcome_eq_claimOutcome (c := ClaimValue.objectRegistration) rfl
    fun w => beq_of_injective (fun _ _ h => ClaimValue.objectRegistration.inj h) w v

theorem existingOutcome_endpointRegistration (endpoint : EndpointId) (v : EndpointRegistrationValue) :
    existingOutcome s.endpointRegistrations endpoint metadata.owner metadata (· == v) =
      claimOutcome s metadata (.endpointRegistration endpoint v) :=
  existingOutcome_eq_claimOutcome (c := ClaimValue.endpointRegistration) rfl
    fun w => beq_of_injective (fun _ _ h => ClaimValue.endpointRegistration.inj h) w v

theorem existingOutcome_objectCapability (object : ObjectId) (v : ObjectCapabilityValue) :
    existingOutcome s.objectCapabilityRecords object metadata.owner metadata (· == v) =
      claimOutcome s metadata (.objectCapability object v) :=
  existingOutcome_eq_claimOutcome (c := ClaimValue.objectCapability) rfl
    fun w => beq_of_injective (fun _ _ h => ClaimValue.objectCapability.inj h) w v

theorem existingOutcome_portCapability (port : PortRef) (v : PortCapabilityValue) :
    existingOutcome s.portCapabilityRecords port metadata.owner metadata (· == v) =
      claimOutcome s metadata (.portCapability port v) :=
  existingOutcome_eq_claimOutcome (c := ClaimValue.portCapability) rfl
    fun w => beq_of_injective (fun _ _ h => ClaimValue.portCapability.inj h) w v

theorem existingOutcome_lifecycle (object : ObjectId) (v : LifecycleValue) :
    existingOutcome s.lifecycleRecords object metadata.owner metadata
        (fun stored => stored.action == v.action && stored.reason == v.reason) =
      claimOutcome s metadata (.lifecycle object v) :=
  existingOutcome_eq_claimOutcome (c := ClaimValue.lifecycle) rfl fun _ => rfl

theorem existingOutcome_reincarnation (object : ObjectId) (v : ReincarnationValue) :
    existingOutcome s.reincarnationRecords object metadata.owner metadata
        (fun stored => stored.fromIncarnation == v.fromIncarnation &&
          stored.serialLike == v.serialLike && stored.reason == v.reason) =
      claimOutcome s metadata (.reincarnation object v) :=
  existingOutcome_eq_claimOutcome (c := ClaimValue.reincarnation) rfl fun _ => rfl

theorem positionOutcome_eq_claimOutcome (claim : PositionClaim) (h : u ∈ claim.claims) :
    positionOutcome s metadata u = claimOutcome s metadata u := by
  simp only [PositionClaim.claims, List.mem_cons, List.mem_map] at h
  rcases h with rfl | ⟨update, -, rfl⟩
  · simp only [positionOutcome]
    exact existingOutcome_eq_claimOutcome (c := ClaimValue.subject) rfl
      fun v => beq_of_injective (fun _ _ h => ClaimValue.subject.inj h) v claim.subjectValue
  · simp only [positionOutcome]
    exact existingOutcome_eq_claimOutcome (c := ClaimValue.port) rfl
      fun v => beq_of_injective (fun _ _ h => ClaimValue.port.inj h) v update.2

theorem positionOutcome_eq (claim : PositionClaim) (h : u ∈ claim.claims) :
    positionOutcome s metadata u = resolvedOutcome s metadata u := by
  rw [positionOutcome_eq_claimOutcome claim h, resolvedOutcome_of_not_reached]
  simp only [PositionClaim.claims, List.mem_cons, List.mem_map] at h
  rcases h with rfl | ⟨update, -, rfl⟩ <;> rfl

theorem resolves_decidePosition (claim : PositionClaim) :
    (decidePosition limits s index metadata claim).Resolves metadata (resolvedOutcome s metadata)
      claim.claims := by
  have hfilter : ∀ o, claim.claims.filter (positionOutcome s metadata · == o) =
      claim.claims.filter (resolvedOutcome s metadata · == o) := fun o =>
    List.filter_congr fun u hu => by rw [positionOutcome_eq claim hu]
  unfold decidePosition
  split
  · exact resolves_settled_refused _ _ _ rfl
  split
  · exact resolves_settled_refused _ _ _ rfl
  rename_i hcol
  have hnone : ∀ u ∈ claim.claims, resolvedOutcome s metadata u ≠ .collision := by
    intro u hu hc
    apply hcol
    rw [List.any_eq_true]
    exact ⟨u, hu, by rw [positionOutcome_eq claim hu, hc]; rfl⟩
  simp only [hfilter]
  have happly := stagedBy_apply metadata (resolvedOutcome s metadata) claim.claims
  split
  · rename_i hempty
    have hnil : (stagedBy metadata (resolvedOutcome s metadata) claim.claims).apply = false := by
      rw [happly]
      simpa [stagedBy] using hempty
    simp only [Bool.and_eq_true, List.isEmpty_iff] at hempty
    refine ⟨fun _ => ⟨hnone, ?_⟩, fun _ => rfl⟩
    exact StagedChange.ext rfl hempty.1.symm hempty.2.symm hnil.symm
  · rename_i hempty
    have hstaged : ({ metadata := metadata
                      writes := claim.claims.filter (resolvedOutcome s metadata · == .insert)
                      rings := claim.claims.filter (resolvedOutcome s metadata · == .superseded)
                      apply := true } : StagedChange) =
        stagedBy metadata (resolvedOutcome s metadata) claim.claims := by
      refine StagedChange.ext rfl rfl rfl (Eq.symm ?_)
      rw [happly]
      simp only [stagedBy, Bool.eq_false_of_not_eq_true hempty, Bool.not_false]
    split
    · exact ⟨fun _ => ⟨hnone, hstaged⟩, fun h => absurd h (by simp [IngestDisposition.isAccepted])⟩
    · refine ⟨fun _ => ⟨hnone, hstaged⟩, fun h => absurd h ?_⟩
      rw [isAccepted_effectiveDisposition _ _ _ _ (by split <;> rfl)]
      simp

/-- **A decision resolves every claim of the record by what its key holds**, whatever
the kind of the record. -/
theorem resolves_decideEvidence (limits : Limits) (s : RegistryState) (index : Option LabelIndex)
    (metadata : Attestation) (payload : EvidencePayload) :
    (decideEvidence limits s index metadata payload).Resolves metadata (resolvedOutcome s metadata)
      (claimsOf metadata.owner payload) := by
  cases payload with
  | attach p => exact resolves_decidePosition _
  | detach p => exact resolves_decidePosition _
  | move p => exact resolves_decidePosition _
  | registerObject p =>
    have ho := @existingOutcome_objectRegistration s metadata p.descriptor.id p.descriptor
    rw [← resolvedOutcome_of_not_reached rfl] at ho
    refine resolves_decideSingle _ _ _ (fun _ => ho.symm) fun hi => ?_
    rw [ho] at hi
    dsimp only
    split
    · exact resolves_settled_refused _ _ _ rfl
    split
    · exact resolves_settled_refused _ _ _ rfl
    · exact resolves_stageWrite _ _ _ rfl hi
  | registerEndpoint p =>
    have ho := @existingOutcome_endpointRegistration s metadata p.descriptor.id p.descriptor
    rw [← resolvedOutcome_of_not_reached rfl] at ho
    refine resolves_decideSingle _ _ _ (fun _ => ho.symm) fun hi => ?_
    rw [ho] at hi
    split
    · exact resolves_settled_refused _ _ _ rfl
    · exact resolves_stageWrite _ _ _ rfl hi
  | publishObjectCapability p =>
    have ho := @existingOutcome_objectCapability s metadata p.object p.capability
    rw [← resolvedOutcome_of_not_reached rfl] at ho
    exact resolves_reference _ _ _ _ ho
  | publishPortCapability p =>
    have ho := @existingOutcome_portCapability s metadata p.port p.capability
    rw [← resolvedOutcome_of_not_reached rfl] at ho
    exact resolves_reference _ _ _ _ ho
  | setLifecycle p =>
    have ho := @existingOutcome_lifecycle s metadata p.object ⟨p.objectIncarnation, p.action, p.reason⟩
    rw [← resolvedOutcome_of_not_reached rfl] at ho
    exact resolves_reference _ _ _ _ ho
  | reincarnateObject p =>
    have ho := @existingOutcome_reincarnation s metadata p.object (reincarnationValue p)
    refine resolves_decideSingle _ _ _ ?_ fun hi => ?_
    · intro hne
      rw [ho] at hne ⊢
      simp [resolvedOutcome, hne]
    · rw [ho] at hi
      split
      · rename_i hex
        refine resolves_stageWrite _ _ _ rfl ?_
        rw [resolvedOutcome_of_not_reached, hi]
        simpa [targetReached] using fun h => absurd h (by simpa using hex)
      · rename_i hex
        dsimp only
        split
        · rename_i hle
          refine resolves_stageRing _ ?_
          simp [resolvedOutcome, hi, targetReached, hle, Bool.eq_true_of_not_eq_false (by simpa using hex)]
        · rename_i hle
          refine resolves_stageWrite _ _ _ rfl ?_
          rw [resolvedOutcome_of_not_reached, hi]
          simp [targetReached, hle]

end Resolve

/-! ### Applying -/

section Apply

variable (historyPerKey : UInt32) (metadata : Attestation)

/-- What an outcome makes of a key. -/
def settleSlot (value : ClaimValue) :
    GenerationOutcome → Option (Folded ClaimValue) → Option (Folded ClaimValue)
  | .insert, slot => some (winSlot historyPerKey metadata value slot)
  | .superseded, slot => slot.map (Folded.lose historyPerKey metadata)
  | .duplicate, slot | .collision, slot => slot

/-- Updates that each change one key, applied one after the other. -/
theorem lookup_foldl {f : RegistryState → ClaimUpdate → RegistryState}
    {g : ClaimUpdate → Option (Folded ClaimValue) → Option (Folded ClaimValue)}
    (hf : ∀ s u k, (f s u).lookup k =
      if u.key metadata.owner = k then g u (s.lookup (u.key metadata.owner)) else s.lookup k)
    (us : List ClaimUpdate) (hn : (us.map (·.key metadata.owner)).Nodup) (s : RegistryState)
    (k : ClaimKey) :
    (us.foldl f s).lookup k =
      match us.find? (·.key metadata.owner = k) with
      | some u => g u (s.lookup k)
      | none => s.lookup k := by
  induction us generalizing s with
  | nil => rfl
  | cons u us ih =>
    rw [List.map_cons, List.nodup_cons] at hn
    rw [List.foldl_cons, ih hn.2, List.find?_cons]
    by_cases hk : u.key metadata.owner = k
    · subst hk
      have hnone : us.find? (·.key metadata.owner = u.key metadata.owner) = none := by
        rw [List.find?_eq_none]
        intro v hv
        simpa using fun h : v.key metadata.owner = u.key metadata.owner =>
          hn.1 (h ▸ List.mem_map_of_mem hv)
      simp only [hnone, decide_true, hf, if_true]
    · simp only [hk, decide_false, hf, if_false]

theorem find?_key_filter (p : ClaimUpdate → Bool) (us : List ClaimUpdate)
    (hn : (us.map (·.key metadata.owner)).Nodup) (hu : u ∈ us) :
    (us.filter p).find? (·.key metadata.owner = u.key metadata.owner) =
      if p u then some u else none := by
  induction us with
  | nil => simp at hu
  | cons v us ih =>
    rw [List.map_cons, List.nodup_cons] at hn
    rw [List.mem_cons] at hu
    rcases hu with rfl | hu
    · have hnone : (us.filter p).find? (·.key metadata.owner = u.key metadata.owner) = none := by
        rw [List.find?_eq_none]
        intro w hw
        simpa using fun h : w.key metadata.owner = u.key metadata.owner =>
          hn.1 (h ▸ List.mem_map_of_mem (List.mem_filter.mp hw).1)
      by_cases hp : p u = true <;> simp [hp, hnone]
    · have hne : v.key metadata.owner ≠ u.key metadata.owner := fun h =>
        hn.1 (h ▸ List.mem_map_of_mem hu)
      by_cases hp : p v = true <;> simp [hp, hne, ih hn.2 hu]

theorem nodup_keys_filter (p : ClaimUpdate → Bool) {us : List ClaimUpdate}
    (hn : (us.map (·.key metadata.owner)).Nodup) :
    ((us.filter p).map (·.key metadata.owner)).Nodup :=
  hn.sublist ((List.filter_sublist).map _)

/-- A change with nothing to apply. -/
theorem applyChange_of_not_apply (outcome : ClaimUpdate → GenerationOutcome)
    (claims : List ClaimUpdate) (s : RegistryState)
    (h : (stagedBy metadata outcome claims).apply = false) :
    applyChange historyPerKey s (stagedBy metadata outcome claims) = s := by
  rw [stagedBy_apply, Bool.not_eq_false', Bool.and_eq_true, List.isEmpty_iff, List.isEmpty_iff] at h
  simp only [applyChange, h.1, h.2, List.foldl_nil]

variable (outcome : ClaimUpdate → GenerationOutcome) {claims : List ClaimUpdate}
  (hn : (claims.map (·.key metadata.owner)).Nodup) (s : RegistryState)
include hn

/-- **Applying a staged change settles the key of every claim by the claim's outcome.** -/
theorem lookup_applyChange_of_mem (hu : u ∈ claims) :
    (applyChange historyPerKey s (stagedBy metadata outcome claims)).lookup (u.key metadata.owner) =
      settleSlot historyPerKey metadata u.value (outcome u) (s.lookup (u.key metadata.owner)) := by
  simp only [applyChange, stagedBy]
  rw [lookup_foldl metadata (g := fun u o => some (winSlot historyPerKey metadata u.value o))
      (fun s u k => lookup_applyWrite historyPerKey metadata s u k) _
      (nodup_keys_filter metadata _ hn),
    lookup_foldl metadata (g := fun _ o => o.map (Folded.lose historyPerKey metadata))
      (fun s u k => lookup_applyRing historyPerKey metadata s u k) _
      (nodup_keys_filter metadata _ hn),
    find?_key_filter metadata _ claims hn hu, find?_key_filter metadata _ claims hn hu]
  cases outcome u <;> simp [settleSlot]

/-- No other key changes. -/
theorem lookup_applyChange_of_not_mem {k : ClaimKey}
    (hk : ∀ u ∈ claims, u.key metadata.owner ≠ k) :
    (applyChange historyPerKey s (stagedBy metadata outcome claims)).lookup k = s.lookup k := by
  have hnone : ∀ p : ClaimUpdate → Bool,
      (claims.filter p).find? (·.key metadata.owner = k) = none := by
    intro p
    rw [List.find?_eq_none]
    intro u hu
    simpa using hk u (List.mem_filter.mp hu).1
  simp only [applyChange, stagedBy]
  rw [lookup_foldl metadata (g := fun u o => some (winSlot historyPerKey metadata u.value o))
      (fun s u k => lookup_applyWrite historyPerKey metadata s u k) _
      (nodup_keys_filter metadata _ hn),
    lookup_foldl metadata (g := fun _ o => o.map (Folded.lose historyPerKey metadata))
      (fun s u k => lookup_applyRing historyPerKey metadata s u k) _
      (nodup_keys_filter metadata _ hn), hnone, hnone]

end Apply

end CableRegistry
