import CableRegistry.Frames

/-!
# Fenced sessions

Once a source has a session of a higher incarnation, the claims of its earlier ones count for
nothing.  `SameUnfenced` relates two states that agree on everything but the claims of fenced
sessions; every derivation applies the fencing check, so two such states give the same
answers.  Deleting the claims of fenced sessions (`dropFenced`) is such a change.

The main result is `fenced_without_influence`, which also says that a session that is fenced
stays so for the rest of a run.
-/

open Std (ExtTreeMap TransOrd LawfulEqOrd)

namespace CableRegistry

/-! ### Deleting records -/

section Drop

variable {κ ι ν : Type} [Ord κ] [TransOrd κ] [LawfulEqOrd κ] [Ord ι] [TransOrd ι] [LawfulEqOrd ι]

/-- The group without some of its records. -/
def dropRecords (gone : κ → ι → Folded ν → Bool) (groups : Groups κ ι ν) : Groups κ ι ν :=
  ExtTreeMap.filterMap (fun k owners =>
    let rest := ExtTreeMap.filter (fun owner f => !gone k owner f) owners
    if rest.isEmpty then none else some rest) groups

theorem find₂_dropRecords (gone : κ → ι → Folded ν → Bool) (groups : Groups κ ι ν) (k : κ) (i : ι) :
    OrdMap.find₂ (dropRecords gone groups) k i =
      (OrdMap.find₂ groups k i).filter (fun f => !gone k i f) := by
  have hfind : ∀ owners : OrdMap ι (Folded ν),
      (ExtTreeMap.filter (fun owner f => !gone k owner f) owners)[i]? =
        (owners[i]?).filter (fun f => !gone k i f) := by
    intro owners
    rw [ExtTreeMap.getElem?_filter']
  unfold OrdMap.find₂ dropRecords
  rw [ExtTreeMap.getElem?_filterMap']
  cases groups[k]? with
  | none => rfl
  | some owners =>
    dsimp only [Option.bind_some]
    rw [← hfind owners]
    split
    · rename_i hempty
      rw [ExtTreeMap.isEmpty_iff.mp hempty]
      simp
    · rfl

theorem find₂_dropRecords_eq_some {gone : κ → ι → Folded ν → Bool} {groups : Groups κ ι ν} {k : κ}
    {i : ι} {f : Folded ν} :
    OrdMap.find₂ (dropRecords gone groups) k i = some f ↔
      OrdMap.find₂ groups k i = some f ∧ gone k i f = false := by
  rw [find₂_dropRecords, Option.filter_eq_some_iff, Bool.not_eq_true']

/-- The group without the records of some owners. -/
def dropOwners (gone : ι → Bool) (groups : Groups κ ι ν) : Groups κ ι ν :=
  ExtTreeMap.filterMap (fun _ owners =>
    let rest := ExtTreeMap.filter (fun owner _ => !gone owner) owners
    if rest.isEmpty then none else some rest) groups

theorem find₂_dropOwners (gone : ι → Bool) (groups : Groups κ ι ν) (k : κ) (i : ι) :
    OrdMap.find₂ (dropOwners gone groups) k i = if gone i then none else OrdMap.find₂ groups k i := by
  rw [show dropOwners gone groups = dropRecords (fun _ i _ => gone i) groups from rfl,
    find₂_dropRecords]
  cases OrdMap.find₂ groups k i <;> cases gone i <;> rfl

end Drop

/-- The state without the claims of fenced sessions.  Registrations are catalogue facts and
stay. -/
def dropFenced (s : RegistryState) : RegistryState :=
  { s with
    subjectRecords := dropOwners (sessionIsFenced s) s.subjectRecords
    portRecords := dropOwners (fun key => sessionIsFenced s key.owner) s.portRecords
    lifecycleRecords := dropOwners (sessionIsFenced s) s.lifecycleRecords
    reincarnationRecords := dropOwners (sessionIsFenced s) s.reincarnationRecords
    objectCapabilityRecords := dropOwners (sessionIsFenced s) s.objectCapabilityRecords
    portCapabilityRecords := dropOwners (sessionIsFenced s) s.portCapabilityRecords }

/-! ### States that differ in fenced claims -/

/-- The two states agree on everything but the claims of fenced sessions. -/
structure SameUnfenced (s s' : RegistryState) : Prop where
  sources : s'.sources = s.sources
  objectRegistrations : s'.objectRegistrations = s.objectRegistrations
  endpointRegistrations : s'.endpointRegistrations = s.endpointRegistrations
  subject : ∀ subject owner, sessionIsFenced s owner = false →
    OrdMap.find₂ s'.subjectRecords subject owner = OrdMap.find₂ s.subjectRecords subject owner
  port : ∀ port (key : PortSlotKey), sessionIsFenced s key.owner = false →
    OrdMap.find₂ s'.portRecords port key = OrdMap.find₂ s.portRecords port key
  lifecycle : ∀ object owner, sessionIsFenced s owner = false →
    OrdMap.find₂ s'.lifecycleRecords object owner = OrdMap.find₂ s.lifecycleRecords object owner
  reincarnation : ∀ object owner, sessionIsFenced s owner = false →
    OrdMap.find₂ s'.reincarnationRecords object owner =
      OrdMap.find₂ s.reincarnationRecords object owner
  objectCapability : ∀ object owner, sessionIsFenced s owner = false →
    OrdMap.find₂ s'.objectCapabilityRecords object owner =
      OrdMap.find₂ s.objectCapabilityRecords object owner
  portCapability : ∀ port owner, sessionIsFenced s owner = false →
    OrdMap.find₂ s'.portCapabilityRecords port owner = OrdMap.find₂ s.portCapabilityRecords port owner

theorem sameUnfenced_dropFenced (s : RegistryState) : SameUnfenced s (dropFenced s) := by
  refine ⟨rfl, rfl, rfl, ?_, ?_, ?_, ?_, ?_, ?_⟩ <;>
  · intro k i hfenced
    simp only [dropFenced, find₂_dropOwners, hfenced, Bool.false_eq_true, if_false]

/-- The records of a key that belong to sessions that are not fenced. -/
def unfenced {κ ν : Type} [Ord κ] [TransOrd κ] (s : RegistryState)
    (groups : Groups κ SourceIncarnationKey ν) (k : κ) : List (SourceIncarnationKey × Folded ν) :=
  (recordsOf groups k).filter fun entry => !sessionIsFenced s entry.1

variable {s s' : RegistryState} {key : SourceIncarnationKey}

theorem mem_unfenced {κ ν : Type} [Ord κ] [TransOrd κ] {groups : Groups κ SourceIncarnationKey ν}
    {k : κ} {entry : SourceIncarnationKey × Folded ν} :
    entry ∈ unfenced s groups k ↔
      OrdMap.find₂ groups k entry.1 = some entry.2 ∧ sessionIsFenced s entry.1 = false := by
  unfold unfenced
  rw [List.mem_filter, mem_recordsOf, Bool.not_eq_true']

/-- The records that count are the same where the same ones are stored and count. -/
theorem unfenced_congr {κ ν : Type} [Ord κ] [TransOrd κ] {s s' : RegistryState}
    {groups groups' : Groups κ SourceIncarnationKey ν} {k : κ}
    (h : ∀ owner f, OrdMap.find₂ groups' k owner = some f ∧ sessionIsFenced s' owner = false ↔
      OrdMap.find₂ groups k owner = some f ∧ sessionIsFenced s owner = false) :
    unfenced s' groups' k = unfenced s groups k := by
  refine ((keyOrdered_recordsOf _ _).filter _).ext ((keyOrdered_recordsOf _ _).filter _) fun entry => ?_
  exact mem_unfenced.trans ((h entry.1 entry.2).trans mem_unfenced.symm)

theorem unfenced_eq {κ ν : Type} [Ord κ] [TransOrd κ] {s s' : RegistryState}
    (hsources : s'.sources = s.sources) {groups groups' : Groups κ SourceIncarnationKey ν} {k : κ}
    (h : ∀ owner, sessionIsFenced s owner = false →
      OrdMap.find₂ groups' k owner = OrdMap.find₂ groups k owner) :
    unfenced s' groups' k = unfenced s groups k := by
  refine unfenced_congr fun owner f => ?_
  rw [sessionIsFenced_congr hsources]
  refine and_congr_left fun hfenced => ?_
  rw [h owner hfenced]

theorem objectIncarnationOf_unfenced (s : RegistryState) (object : ObjectId) :
    objectIncarnationOf s object =
      (unfenced s s.reincarnationRecords object).foldl (fun current entry =>
        if entry.2.value.target > current then entry.2.value.target else current) 1 := by
  unfold objectIncarnationOf unfenced recordsOf
  cases s.reincarnationRecords[object]? with
  | none => rfl
  | some owners =>
    simp only [List.foldl_filter]
    congr 1
    funext current entry
    cases sessionIsFenced s entry.1 <;> rfl

theorem lifecycleCandidates_unfenced (s : RegistryState) (object : ObjectId) :
    lifecycleCandidates s object =
      ((unfenced s s.lifecycleRecords object).filter fun entry =>
        entry.2.value.objectIncarnation == objectIncarnationOf s object).map
        (fun entry => ⟨entry.2.value.action, false, entry.2.metadata⟩) ++
      ((unfenced s s.reincarnationRecords object).filter fun entry =>
        entry.2.value.target == objectIncarnationOf s object).map
        (fun entry => ⟨.present, true, entry.2.metadata⟩) := by
  unfold lifecycleCandidates unfenced recordsOf
  cases s.lifecycleRecords[object]? <;> cases s.reincarnationRecords[object]? <;>
    simp [List.filter_filter, Bool.and_comm]

/-- The incarnation and the verdict come from the records that count. -/
theorem lifecycleActionOf_congr {object : ObjectId}
    (hl : unfenced s' s'.lifecycleRecords object = unfenced s s.lifecycleRecords object)
    (hr : unfenced s' s'.reincarnationRecords object = unfenced s s.reincarnationRecords object) :
    objectIncarnationOf s' object = objectIncarnationOf s object ∧
      lifecycleActionOf s' object = lifecycleActionOf s object := by
  have hi : objectIncarnationOf s' object = objectIncarnationOf s object := by
    rw [objectIncarnationOf_unfenced, objectIncarnationOf_unfenced, hr]
  refine ⟨hi, ?_⟩
  unfold lifecycleActionOf
  rw [lifecycleCandidates_unfenced, lifecycleCandidates_unfenced, hl, hr, hi]

/-- The capability of a port, from what is published for it and its endpoint's registration. -/
def capabilityFrom (published : Option ((SourceIncarnationKey × Folded PortCapabilityValue) × UInt32))
    (endpoint : Option (Folded EndpointRegistrationValue)) : PortCapability :=
  match published with
  | some (chosen, minimum) =>
    { chosen.2.value with maxSimultaneousAttachments := if minimum == 0 then 1 else minimum }
  | none =>
    match endpoint with
    | some endpoint => endpoint.value.defaultPortCapability
    | none => {}

theorem portCapabilityOf_eq_capabilityFrom (s : RegistryState) (port : PortRef) :
    portCapabilityOf s port =
      capabilityFrom (choosePortCapability (unfenced s s.portCapabilityRecords port))
        (winningEndpoint s port.endpoint) := by
  unfold portCapabilityOf unfenced recordsOf
  cases s.portCapabilityRecords[port]? <;> rfl

/-- The serial number a reincarnation gives. -/
def serialOf (chosen : Option (SourceIncarnationKey × Folded ReincarnationValue)) : Option Text :=
  match chosen with
  | none => none
  | some chosen =>
    if chosen.2.value.serialLike.isEmpty then none else some chosen.2.value.serialLike

theorem replacementSerial_eq_serialOf (s : RegistryState) (object : ObjectId) :
    replacementSerial s object =
      serialOf (chooseRecord ((unfenced s s.reincarnationRecords object).filter fun entry =>
        entry.2.value.target == objectIncarnationOf s object)) := by
  unfold replacementSerial unfenced recordsOf
  cases s.reincarnationRecords[object]? with
  | none => rfl
  | some owners =>
    have hfilter : (owners.toList.filter fun entry => !sessionIsFenced s entry.1 &&
        entry.2.value.target == objectIncarnationOf s object) =
        (owners.toList.filter fun entry => !sessionIsFenced s entry.1).filter fun entry =>
          entry.2.value.target == objectIncarnationOf s object := by
      rw [List.filter_filter]
      exact List.filter_congr fun _ _ => Bool.and_comm _ _
    exact congrArg (fun entries => serialOf (chooseRecord entries)) hfilter

namespace SameUnfenced

variable {s s' : RegistryState}

section

variable (h : SameUnfenced s s')

include h

theorem sessionIsFenced_eq (key : SourceIncarnationKey) :
    sessionIsFenced s' key = sessionIsFenced s key :=
  sessionIsFenced_congr h.sources key

theorem objectExists_eq (object : ObjectId) :
    objectExists s' object = objectExists s object := by
  unfold objectExists
  rw [h.objectRegistrations]

theorem objectIncarnationOf_eq (object : ObjectId) :
    objectIncarnationOf s' object = objectIncarnationOf s object :=
  (lifecycleActionOf_congr (unfenced_eq h.sources (h.lifecycle object))
    (unfenced_eq h.sources (h.reincarnation object))).1

theorem lifecycleActionOf_eq (object : ObjectId) :
    lifecycleActionOf s' object = lifecycleActionOf s object :=
  (lifecycleActionOf_congr (unfenced_eq h.sources (h.lifecycle object))
    (unfenced_eq h.sources (h.reincarnation object))).2

theorem objectExcluded_eq (object : ObjectId) :
    objectExcluded s' object = objectExcluded s object := by
  unfold objectExcluded
  rw [h.lifecycleActionOf_eq]

theorem portCapabilityOf_eq (port : PortRef) :
    portCapabilityOf s' port = portCapabilityOf s port := by
  rw [portCapabilityOf_eq_capabilityFrom, portCapabilityOf_eq_capabilityFrom,
    unfenced_eq h.sources (h.portCapability port)]
  unfold winningEndpoint
  rw [h.endpointRegistrations]

theorem sideDescriptorOf_eq (object : ObjectId) (side : SideIndex) :
    sideDescriptorOf s' object side = sideDescriptorOf s object side := by
  unfold sideDescriptorOf winningRegistration
  rw [h.objectRegistrations]

end

/-! Sides -/

theorem sideRecords_eq (h : SameUnfenced s s') (subject : ObjectSideRef) (policy : ValidationPolicy) :
    sideRecords s' subject policy = sideRecords s subject policy := by
  refine (keyOrdered_sideRecords _ _ _).ext (keyOrdered_sideRecords _ _ _) fun record => ?_
  rw [mem_sideRecords, mem_sideRecords, h.objectExists_eq, h.sessionIsFenced_eq,
    h.objectIncarnationOf_eq]
  refine and_congr_right fun _ => and_congr_left fun hrest => ?_
  have hfenced := hrest.1
  rw [h.subject subject record.1 hfenced]

theorem deriveSubject_eq (h : SameUnfenced s s') (subject : ObjectSideRef) (policy : ValidationPolicy) :
    deriveSubject s' subject policy = deriveSubject s subject policy := by
  rw [deriveSubject_eq_derivationFrom, deriveSubject_eq_derivationFrom, h.sideRecords_eq,
    h.objectIncarnationOf_eq]

theorem deriveSideView_eq (h : SameUnfenced s s') (policy : ValidationPolicy)
    (reference : ObjectSideRef) :
    deriveSideView s' policy reference = deriveSideView s policy reference := by
  unfold deriveSideView sideEdge
  simp only [h.deriveSubject_eq, h.sideDescriptorOf_eq, h.portCapabilityOf_eq]

/-! Ports -/

theorem livePortRecords_eq (h : SameUnfenced s s') (port : PortRef) (policy : ValidationPolicy) :
    livePortRecords s' port policy = livePortRecords s port policy := by
  have himp : ∀ {s s' : RegistryState}, SameUnfenced s s' → ∀ record,
      CountsAt s port policy record → CountsAt s' port policy record := by
    intro s s' h record hcounts
    refine ⟨?_, ?_, hcounts.participates, ?_, ?_, ?_, ?_⟩
    · rw [h.port port record.1 hcounts.unfenced]
      exact hcounts.stored
    · rw [h.sessionIsFenced_eq]
      exact hcounts.unfenced
    · rw [h.objectExists_eq]
      exact hcounts.registered
    · rw [h.objectExcluded_eq]
      exact hcounts.included
    · rw [h.objectIncarnationOf_eq]
      exact hcounts.current
    · intro hempty
      rw [h.subject _ record.1.owner hcounts.unfenced]
      exact hcounts.still hempty
  have hsymm : SameUnfenced s' s := by
    refine ⟨h.sources.symm, h.objectRegistrations.symm, h.endpointRegistrations.symm, ?_, ?_, ?_, ?_,
      ?_, ?_⟩ <;> intro k i hfenced <;> rw [h.sessionIsFenced_eq] at hfenced
    · exact (h.subject k i hfenced).symm
    · exact (h.port k i hfenced).symm
    · exact (h.lifecycle k i hfenced).symm
    · exact (h.reincarnation k i hfenced).symm
    · exact (h.objectCapability k i hfenced).symm
    · exact (h.portCapability k i hfenced).symm
  refine (keyOrdered_livePortRecords _ _ _).ext (keyOrdered_livePortRecords _ _ _) fun record => ?_
  rw [countsAt_iff, countsAt_iff]
  exact ⟨himp hsymm record, himp h record⟩

theorem derivePortView_eq (h : SameUnfenced s s') (limits : Limits) (port : PortRef)
    (policy : ValidationPolicy) :
    derivePortView s' limits port policy = derivePortView s limits port policy := by
  unfold derivePortView portEdge doubleBookedNote subjectDoubleBooked
  simp only [h.portCapabilityOf_eq, h.livePortRecords_eq, h.deriveSubject_eq, h.sideDescriptorOf_eq]

/-! Objects -/

section

variable (h : SameUnfenced s s') (object : ObjectId)

include h object

theorem lifecycleEvent_eq (m : Attestation) (content : EventContent) :
    lifecycleEvent s' object m content = lifecycleEvent s object m content := by
  unfold lifecycleEvent
  rw [h.objectIncarnationOf_eq]

theorem subjectEvents_eq :
    subjectEvents s' object = subjectEvents s object := by
  have hloop : ∀ s₁ : RegistryState, SameUnfenced s s₁ → subjectEvents s₁ object =
      s₁.subjectRecords.toList.flatMap fun entry =>
        if entry.1.object == object then
          ((entry.2.toList.filter fun owner => !sessionIsFenced s₁ owner.1).filter fun owner =>
            owner.2.value.objectIncarnation == objectIncarnationOf s object).flatMap fun owner =>
              subjectRecordEvents s entry.1 owner.2
        else [] := by
    intro s₁ h₁
    have hevents : ∀ subject record, subjectRecordEvents s₁ subject record =
        subjectRecordEvents s subject record := by
      intro subject record
      unfold subjectRecordEvents
      simp only [h₁.lifecycleEvent_eq]
    unfold subjectEvents
    rw [flatMap_filter]
    simp only [List.filter_filter, hevents, h₁.objectIncarnationOf_eq, Bool.and_comm]
  rw [hloop s' h, hloop s ⟨rfl, rfl, rfl, fun _ _ _ => rfl, fun _ _ _ => rfl, fun _ _ _ => rfl,
    fun _ _ _ => rfl, fun _ _ _ => rfl, fun _ _ _ => rfl⟩]
  refine OrdMap.flatMap_toList_congr
    (fun owners : OrdMap SourceIncarnationKey (Folded SubjectValue) =>
      owners.toList.filter fun owner => !sessionIsFenced s' owner.1)
    (fun owners => owners.toList.filter fun owner => !sessionIsFenced s owner.1)
    (fun k l => if k.object == object then (l.filter fun owner =>
      owner.2.value.objectIncarnation == objectIncarnationOf s object).flatMap fun owner =>
        subjectRecordEvents s k owner.2 else []) ?_ ?_
  · intro k
    simp
  · intro k
    have hk := unfenced_eq h.sources (h.subject k)
    unfold unfenced recordsOf at hk
    cases h₁ : s'.subjectRecords[k]? <;> cases h₂ : s.subjectRecords[k]? <;> rw [h₁, h₂] at hk <;>
      exact hk

theorem collectHistory_eq (maxEvents : UInt32) :
    collectHistory s' object maxEvents = collectHistory s object maxEvents := by
  have hregistrations : registrationEvents s' object = registrationEvents s object := by
    unfold registrationEvents
    simp only [h.objectRegistrations, h.lifecycleEvent_eq]
  have hlifecycle : ∀ s : RegistryState, lifecycleEvents s object =
      (unfenced s s.lifecycleRecords object).map fun entry =>
        lifecycleEvent s object entry.2.metadata
          ⟨lifecycleEventKind entry.2.value.action, entry.2.value.reason, 0, {}, {}, false⟩ := by
    intro s
    unfold lifecycleEvents unfenced recordsOf
    cases s.lifecycleRecords[object]? <;> rfl
  have hreincarnations : ∀ s : RegistryState, reincarnationEvents s object =
      (unfenced s s.reincarnationRecords object).map fun entry =>
        lifecycleEvent s object entry.2.metadata
          ⟨.reincarnated, entry.2.value.reason, 0, {}, {}, false⟩ := by
    intro s
    unfold reincarnationEvents unfenced recordsOf
    cases s.reincarnationRecords[object]? <;> rfl
  unfold collectHistory
  simp only [hregistrations, h.subjectEvents_eq, hlifecycle, hreincarnations, h.lifecycleEvent_eq,
    unfenced_eq h.sources (h.lifecycle object), unfenced_eq h.sources (h.reincarnation object)]

theorem replacementSerial_eq :
    replacementSerial s' object = replacementSerial s object := by
  rw [replacementSerial_eq_serialOf, replacementSerial_eq_serialOf,
    unfenced_eq h.sources (h.reincarnation object), h.objectIncarnationOf_eq]

end

theorem deriveObjectView_eq (h : SameUnfenced s s') (limits : Limits) (object : ObjectId)
    (options : QueryOptions) :
    deriveObjectView s' limits object options = deriveObjectView s limits object options := by
  have hpublished : ∀ s : RegistryState, ((recordsOf s.objectCapabilityRecords object).filter
      fun entry => !sessionIsFenced s entry.1) = unfenced s s.objectCapabilityRecords object :=
    fun _ => rfl
  have hwinning : winningRegistration s' object = winningRegistration s object := by
    unfold winningRegistration
    rw [h.objectRegistrations]
  have hside : deriveSideView s' options.validationPolicy = deriveSideView s options.validationPolicy :=
    funext fun reference => h.deriveSideView_eq options.validationPolicy reference
  unfold deriveObjectView deriveLifecycle
  simp only [hwinning, hpublished, unfenced_eq h.sources (h.objectCapability object),
    h.objectRegistrations, h.deriveSubject_eq, h.lifecycleActionOf_eq, h.collectHistory_eq,
    h.replacementSerial_eq, h.objectIncarnationOf_eq, hside]

end SameUnfenced

/-! ### Fenced for good -/

section Later

variable {limits : Limits} {historyPerKey : UInt32} {s s' : RegistryState} {es : List Evidence}

/-- A session that opens fences the earlier ones of its source. -/
theorem sessionIsFenced_openState (s : RegistryState) (d : SourceDescriptor) (i : Incarnation)
    (t : Timestamp) (key : SourceIncarnationKey) :
    sessionIsFenced (Registry.openState s d i t) key =
      (sessionIsFenced s key || key.source == d.id && decide (key.incarnation < i)) := by
  have hmax : ∀ a : Incarnation, decide (max a i > key.incarnation) =
      (decide (a > key.incarnation) || decide (key.incarnation < i)) := by
    intro a
    rw [← Bool.decide_or]
    refine decide_eq_decide.mpr ?_
    show key.incarnation < (if a ≤ i then i else a) ↔ key.incarnation < a ∨ key.incarnation < i
    simp only [UInt64.lt_iff_toNat_lt, UInt64.le_iff_toNat_le]
    split <;> omega
  unfold sessionIsFenced
  rw [Registry.openState_sources, OrdMap.find_insert]
  by_cases hid : d.id = key.source
  · rw [if_pos hid, ← hid, ExtTreeMap.getD_eq_getD_getElem?]
    dsimp only
    rw [Registry.currentIncarnation_registerSource, hmax, beq_self_eq_true, Bool.true_and]
    cases s.sources[d.id]? with
    | none =>
      rw [show decide (((none : Option SourceRecord).getD {}).currentIncarnation > key.incarnation) =
        false from decide_eq_false (UInt64.not_lt.mpr (UInt64.zero_le))]
    | some source => rfl
  · rw [if_neg hid, beq_eq_false_iff_ne.mpr (Ne.symm hid), Bool.false_and, Bool.or_false]

theorem Quiet.fenced (hq : Quiet limits s s') (h : sessionIsFenced s key = true) :
    sessionIsFenced s' key = true := by
  cases hq with
  | opened d i t hadm => rw [sessionIsFenced_openState, h, Bool.true_or]
  | touched key session hkey => exact h
  | restarted s₀ hcore =>
    rw [show sessionIsFenced (clearVolatile s₀) key = sessionIsFenced s₀ key from rfl,
      sessionIsFenced_congr (sources_of_core hcore)]
    exact h

/-- **A session that is fenced stays fenced.** -/
theorem Trace.fenced (ht : Trace limits historyPerKey s es s') (h : sessionIsFenced s key = true) :
    sessionIsFenced s' key = true := by
  induction ht with
  | nil => exact h
  | quiet _ hq ih => exact hq.fenced ih
  | accepts _ ha ih =>
    rw [sessionIsFenced_congr ha.sources]
    exact ih

end Later

/-- **Fenced sessions have no influence.**  In every reachable state, deleting every claim of a
fenced source incarnation about sides, slots, lifecycles, reincarnations and capabilities
changes no answer about a port, an object or a history, and an incarnation that is fenced is
fenced in every later state of the run. -/
theorem fenced_without_influence {r r' : Registry} {options : RegistryOptions}
    {requests rest : List Request} {es : List Evidence} (h : r.ReachedBy options requests es)
    (horderly : Orderly options (requests ++ rest)) (hrun : r.run rest = .ok r') :
    (∀ port policy, { r with state := dropFenced r.state }.queryPort port policy =
      r.queryPort port policy) ∧
    (∀ object queryOptions, { r with state := dropFenced r.state }.queryObject object queryOptions =
      r.queryObject object queryOptions) ∧
    (∀ object maxEvents, { r with state := dropFenced r.state }.queryHistory object maxEvents =
      r.queryHistory object maxEvents) ∧
    ∀ key, sessionIsFenced r.state key = true → sessionIsFenced r'.state key = true := by
  have hsame := sameUnfenced_dropFenced r.state
  refine ⟨?_, ?_, ?_, fun key => (h.later horderly hrun).fenced⟩
  · intro port policy
    rw [Registry.queryPort_cases, Registry.queryPort_cases, hsame.derivePortView_eq]
    rfl
  · intro object queryOptions
    rw [Registry.queryObject_cases, Registry.queryObject_cases, hsame.deriveObjectView_eq,
      hsame.objectExists_eq]
  · intro object maxEvents
    rw [Registry.queryHistory_cases, Registry.queryHistory_cases, hsame.collectHistory_eq,
      hsame.objectExists_eq]

/-- A source places a side and starts again. -/
def sampleRestart : List Request :=
  [Registry.sampleOpen 1 1 5, Registry.sampleIngest 1 1 1 Registry.sampleEndpoint,
    Registry.sampleIngest 1 1 2 (Registry.sampleObject 9),
    Registry.sampleIngest 1 1 3 (Registry.samplePlace 9 0 0 0), Registry.sampleOpen 1 2 5]

theorem fenced_without_influence_sample :
    ∃ (r r' : Registry) (es : List Evidence), r.ReachedBy {} sampleRestart es ∧
      r.run [.closeSession ⟨.fromParts 0 1, 2⟩ .written] = .ok r' ∧
      sessionIsFenced r.state ⟨.fromParts 0 1, 1⟩ = true ∧
      sessionIsFenced r'.state ⟨.fromParts 0 1, 1⟩ = true ∧
      { r with state := dropFenced r.state }.queryPort ⟨.fromParts 0 7, 0⟩ .includeAll =
        r.queryPort ⟨.fromParts 0 7, 0⟩ .includeAll := by
  have hnone : ∀ env, Request.reopen env ∉
      sampleRestart ++ [.closeSession ⟨.fromParts 0 1, 2⟩ .written] := by
    simp [sampleRestart, Registry.sampleOpen, Registry.sampleIngest]
  obtain ⟨r, es, hr, hfenced⟩ := Registry.exists_reached {} sampleRestart
    (fun r _ => sessionIsFenced r.state ⟨.fromParts 0 1, 1⟩) (by decide +kernel)
  have hrun : r.run [.closeSession ⟨.fromParts 0 1, 2⟩ .written] =
      .ok (r.closeSession ⟨.fromParts 0 1, 2⟩ .written).1 := rfl
  obtain ⟨hport, -, -, hlater⟩ :=
    fenced_without_influence hr (Registry.orderly_of_not_mem hnone) hrun
  exact ⟨r, _, es, hr, hrun, hfenced, hlater _ hfenced, hport _ _⟩

/-- **One incarnation of a source is heard.**  In every reachable state, the source of a session
has exactly one session that is not fenced. -/
theorem exists_unique_unfenced {r : Registry} {options : RegistryOptions} {requests : List Request}
    {es : List Evidence} (h : r.ReachedBy options requests es) {other : SourceIncarnationKey}
    (hother : r.state.sessions.contains other = true) :
    ∃! key : SourceIncarnationKey, key.source = other.source ∧
      r.state.sessions.contains key = true ∧ sessionIsFenced r.state key = false := by
  obtain ⟨-, -, -, -, _, _, htrace⟩ := h.trace
  have hsourced := htrace.consistent.sourced
  obtain ⟨source, hsource, -⟩ := hsourced.known _ hother
  refine ⟨⟨other.source, source.currentIncarnation⟩, ⟨rfl, hsourced.current _ _ hsource, ?_⟩, ?_⟩
  · simp [sessionIsFenced, hsource]
  · rintro ⟨_, incarnation⟩ ⟨rfl, hopen, hlive⟩
    obtain ⟨known, hknown, hle⟩ := hsourced.known _ hopen
    rw [sessionIsFenced_eq hknown] at hlive
    obtain rfl := Option.some.inj (hsource.symm.trans hknown)
    exact congrArg _ (UInt64.le_antisymm hle (UInt64.not_lt.mp (of_decide_eq_false hlive)))

theorem exists_unique_unfenced_sample :
    ∃ r es, Registry.ReachedBy r {} sampleRestart es ∧
      ∃! key : SourceIncarnationKey, key.source = .fromParts 0 1 ∧
        r.state.sessions.contains key = true ∧ sessionIsFenced r.state key = false := by
  obtain ⟨r, es, hr, hother⟩ := Registry.exists_reached {} sampleRestart
    (fun r _ => r.state.sessions.contains ⟨.fromParts 0 1, 1⟩) (by decide +kernel)
  exact ⟨r, es, hr, exists_unique_unfenced hr hother⟩

end CableRegistry
