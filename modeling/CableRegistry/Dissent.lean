import CableRegistry.Overriding
import CableRegistry.Refusals
import CableRegistry.SideRule

/-!
# One more voice about a contested side

A port is conflicting when a side in it is claimed at more than one port by the highest
authority that speaks about the side.  The view of the port learns this from the ports the
derivation of the side returns, and that derivation returns none as soon as the highest
authority both attaches and detaches the side.  So a source that *detaches* a contested side
at the authority of the rivals makes the side more contested and the port less so: if nothing
else is wrong with it, the port is reported as attached.

* `dissent_settles`: when this happens.  An attachment never does it.
* `detachment_settles_port`: a run in which it happens.
-/

open Std (ExtTreeMap)

namespace CableRegistry

/-! ### What is heard at a port -/

/-- A live record of the port has this metadata and this value. -/
def Heard (s : RegistryState) (port : PortRef) (policy : ValidationPolicy) (m : Attestation)
    (v : PortValue) : Prop :=
  ∃ record ∈ livePortRecords s port policy, record.2.metadata = m ∧ record.2.value = v

/-- Nothing that is heard at the port has a higher authority. -/
def Foremost (s : RegistryState) (port : PortRef) (policy : ValidationPolicy) (a : Authority) : Prop :=
  ∀ m v, Heard s port policy m v → m.authority ≤ a

variable {m : Attestation} {p : DetachPayload} {record : LiveRecord} {other subject : ObjectSideRef}
  {key : PortSlotKey} {v : PortValue} {s : RegistryState} {owner : SourceIncarnationKey}
  {policy : ValidationPolicy}

section Heard

variable {s s' : RegistryState} {port : PortRef} {policy : ValidationPolicy}

theorem mem_topPortRecords_iff_foremost :
    record ∈ topPortRecords s port policy ↔ record ∈ livePortRecords s port policy ∧
      Foremost s port policy record.2.metadata.authority := by
  rw [mem_topPortRecords]
  refine and_congr_right fun _ => ⟨?_, ?_⟩
  · rintro hmax m v ⟨other, hother, rfl, rfl⟩
    exact hmax other hother
  · intro hmax other hother
    exact hmax _ _ ⟨other, hother, rfl, rfl⟩

theorem mem_occupants_iff_heard :
    subject ∈ occupants s port policy ↔ ∃ m v, Heard s port policy m v ∧
      Foremost s port policy m.authority ∧ v.empty = false ∧ v.subject = subject := by
  rw [mem_occupants]
  constructor
  · rintro ⟨record, hrecord, hsubject⟩
    obtain ⟨htop, hempty⟩ := mem_occupiedRecords.mp hrecord
    obtain ⟨hlive, hmax⟩ := mem_topPortRecords_iff_foremost.mp htop
    exact ⟨_, _, ⟨record, hlive, rfl, rfl⟩, hmax, hempty, hsubject⟩
  · rintro ⟨m, v, ⟨record, hlive, rfl, rfl⟩, hmax, hempty, hsubject⟩
    exact ⟨record, mem_occupiedRecords.mpr
      ⟨mem_topPortRecords_iff_foremost.mpr ⟨hlive, hmax⟩, hempty⟩, hsubject⟩

theorem emptyRecords_ne_nil_iff_heard :
    emptyRecords s port policy ≠ [] ↔ ∃ m v, Heard s port policy m v ∧
      Foremost s port policy m.authority ∧ v.empty = true := by
  constructor
  · intro hne
    obtain ⟨record, hrecord⟩ := List.exists_mem_of_ne_nil _ hne
    obtain ⟨htop, hempty⟩ := mem_emptyRecords.mp hrecord
    obtain ⟨hlive, hmax⟩ := mem_topPortRecords_iff_foremost.mp htop
    exact ⟨_, _, ⟨record, hlive, rfl, rfl⟩, hmax, hempty⟩
  · rintro ⟨m, v, ⟨record, hlive, rfl, rfl⟩, hmax, hempty⟩
    exact List.ne_nil_of_mem (mem_emptyRecords.mpr
      ⟨mem_topPortRecords_iff_foremost.mpr ⟨hlive, hmax⟩, hempty⟩)

theorem exists_foremost (h : Heard s port policy m v) :
    ∃ m' v', Heard s port policy m' v' ∧ Foremost s port policy m'.authority := by
  obtain ⟨record, hlive, -⟩ := h
  obtain ⟨top, htop, -, hmax⟩ := exists_best (List.ne_nil_of_mem hlive)
  refine ⟨_, _, ⟨top, htop, rfl, rfl⟩, ?_⟩
  rintro m v ⟨other, hother, rfl, rfl⟩
  exact hmax other hother

section

variable (h : ∀ m v, Heard s' port policy m v ↔ Heard s port policy m v)

include h

theorem foremost_of_heard (a : Authority) : Foremost s' port policy a ↔ Foremost s port policy a := by
  unfold Foremost
  simp only [h]

/-- Where the same is heard, the same sides sit in the port. -/
theorem occupants_of_heard : occupants s' port policy = occupants s port policy := by
  refine eq_of_pairwise_lt (pairwise_occupants s' port policy) (pairwise_occupants s port policy)
    fun subject => ?_
  rw [mem_occupants_iff_heard, mem_occupants_iff_heard]
  simp only [h, foremost_of_heard h]

theorem emptyRecords_of_heard :
    (emptyRecords s' port policy).isEmpty = (emptyRecords s port policy).isEmpty := by
  rw [Bool.eq_iff_iff, List.isEmpty_iff, List.isEmpty_iff, ← not_iff_not]
  show emptyRecords s' port policy ≠ [] ↔ emptyRecords s port policy ≠ []
  rw [emptyRecords_ne_nil_iff_heard, emptyRecords_ne_nil_iff_heard]
  simp only [h, foremost_of_heard h]

end

end Heard

/-! ### Sides claimed at two ports -/

section Booked

variable {s s' : RegistryState} {subject : ObjectSideRef} {policy : ValidationPolicy}

/-- **A side is double booked when all that binds attaches it, and not all at one port.** -/
theorem subjectDoubleBooked_iff_binding :
    subjectDoubleBooked s subject policy = true ↔
      (∀ record ∈ bindingRecords s subject policy, record.2.value.attached = true) ∧
        ∃ one ∈ bindingRecords s subject policy, ∃ other ∈ bindingRecords s subject policy,
          one.2.value.port ≠ other.2.value.port := by
  rw [subjectDoubleBooked_eq, decide_eq_true_eq]
  constructor
  · intro hlen
    obtain ⟨hsome, hkind⟩ := sideWins_iff_binding.mp (sideWins_of_sidePorts hlen)
    refine ⟨hkind, ?_⟩
    by_contra hnone
    push Not at hnone
    obtain ⟨record, hrecord⟩ := List.exists_mem_of_ne_nil _ hsome
    rw [sidePorts_eq_singleton hsome fun other hother =>
      ⟨hkind other hother, (hnone record hrecord other hother).symm⟩] at hlen
    exact absurd hlen (by simp)
  · rintro ⟨hkind, one, hone, other, hother, hne⟩
    have hwins : sideWins s subject policy true = true :=
      sideWins_iff_binding.mpr ⟨List.ne_nil_of_mem hone, hkind⟩
    have hmem : ∀ record ∈ bindingRecords s subject policy,
        record.2.value.port ∈ sidePorts s subject policy := by
      intro record hrecord
      rw [sidePorts_eq_binding, if_pos hwins, mem_unique, mem_sortBy]
      exact List.mem_map_of_mem hrecord
    by_contra hle
    have hone' := hmem one hone
    obtain ⟨port, hport⟩ := List.length_eq_one_iff.mp
      (Nat.le_antisymm (not_lt.mp hle) (List.length_pos_of_mem hone'))
    rw [hport] at hmem
    exact hne ((List.mem_singleton.mp (hmem one hone)).trans
      (List.mem_singleton.mp (hmem other hother)).symm)

theorem subjectDoubleBooked_of_sideRecords
    (h : sideRecords s' subject policy = sideRecords s subject policy) :
    subjectDoubleBooked s' subject policy = subjectDoubleBooked s subject policy := by
  have hbinding : bindingRecords s' subject policy = bindingRecords s subject policy := by
    unfold bindingRecords
    rw [h]
  rw [Bool.eq_iff_iff, subjectDoubleBooked_iff_binding, subjectDoubleBooked_iff_binding, hbinding]

/-- One more live record, of the authority of those that bind, binds with them. -/
theorem mem_bindingRecords_of_peer {new : SideRecord} {a : Authority}
    (hrecords : ∀ record, record ∈ sideRecords s' subject policy ↔
      record ∈ sideRecords s subject policy ∨ record = new)
    (hpeer : ∀ record ∈ bindingRecords s subject policy, record.2.metadata.authority = a)
    (hnew : new.2.metadata.authority = a) (hsome : bindingRecords s subject policy ≠ [])
    (record : SideRecord) :
    record ∈ bindingRecords s' subject policy ↔
      record ∈ bindingRecords s subject policy ∨ record = new := by
  have hle : ∀ other ∈ sideRecords s subject policy, other.2.metadata.authority ≤ a := by
    obtain ⟨top, htop⟩ := List.exists_mem_of_ne_nil _ hsome
    rw [← hpeer top htop]
    exact (mem_bindingRecords.mp htop).2
  rw [mem_bindingRecords, mem_bindingRecords]
  constructor
  · rintro ⟨hmem, hmax⟩
    rcases (hrecords record).mp hmem with hold | rfl
    · exact .inl ⟨hold, fun other hother => hmax other ((hrecords other).mpr (.inl hother))⟩
    · exact .inr rfl
  · rintro (⟨hold, hmax⟩ | rfl)
    · refine ⟨(hrecords record).mpr (.inl hold), fun other hother => ?_⟩
      rcases (hrecords other).mp hother with hin | rfl
      · exact hmax other hin
      · rw [hnew, hpeer record (mem_bindingRecords.mpr ⟨hold, hmax⟩)]
    · refine ⟨(hrecords record).mpr (.inr rfl), fun other hother => ?_⟩
      rw [hnew]
      rcases (hrecords other).mp hother with hin | rfl
      · exact hle other hin
      · exact le_of_eq hnew

end Booked

/-! ### The new voice -/

/-- The side an attach or a detach is about. -/
def EvidencePayload.contestedSide : EvidencePayload → Option ObjectSideRef
  | .attach p => some p.subject
  | .detach p => some p.subject
  | _ => none

/-- The incarnation an attach or a detach is made against. -/
def EvidencePayload.contestedIncarnation : EvidencePayload → ObjectIncarnation
  | .attach p => p.objectIncarnation
  | .detach p => p.objectIncarnation
  | _ => 0

def EvidencePayload.isAttach : EvidencePayload → Bool
  | .attach _ => true
  | _ => false

/-- A source that has said nothing about a double booked side of the port attaches or detaches
it, with the authority of the rival claims. -/
structure Dissents (s : RegistryState) (port : PortRef) (policy : ValidationPolicy)
    (subject : ObjectSideRef) (e : Evidence) : Prop where
  about : e.payload.contestedSide = some subject
  occupies : subject ∈ occupants s port policy
  booked : subjectDoubleBooked s subject policy = true
  silent : ∀ incarnation,
    OrdMap.find₂ s.subjectRecords subject ⟨e.header.source, incarnation⟩ = none
  peer : ∀ source : SourceRecord, s.sources[e.header.source]? = some source →
    ∀ record ∈ bindingRecords s subject policy,
      record.2.metadata.authority = source.descriptor.authority

section Claims

variable {owner : SourceIncarnationKey} {payload : EvidencePayload} {subject : ObjectSideRef}

section

variable (h : payload.contestedSide = some subject)

include h

theorem isPosition_of_contestedSide :
    payload.isPosition = true := by
  cases payload <;> first | rfl | exact absurd h (by simp [EvidencePayload.contestedSide])

/-- What an attach or a detach claims about the side. -/
theorem exists_subject_claim :
    ∃ v, ClaimUpdate.subject subject v ∈ claimsOf owner payload ∧
      v.objectIncarnation = payload.contestedIncarnation ∧ v.attached = payload.isAttach := by
  cases payload with
  | attach p =>
    obtain rfl := Option.some.inj h
    exact ⟨_, List.mem_cons_self, rfl, rfl⟩
  | detach p =>
    obtain rfl := Option.some.inj h
    exact ⟨_, List.mem_cons_self, rfl, rfl⟩
  | _ => exact absurd h (by simp [EvidencePayload.contestedSide])

theorem subject_claim_eq {v : SubjectValue}
    (hu : ClaimUpdate.subject other v ∈ claimsOf owner payload) :
    other = subject := by
  cases payload with
  | attach p =>
    obtain rfl := Option.some.inj h
    exact (subject_mem_claims.mp hu).1
  | detach p =>
    obtain rfl := Option.some.inj h
    exact (subject_mem_claims.mp hu).1
  | _ => exact absurd h (by simp [EvidencePayload.contestedSide])

/-- What an attach or a detach claims about a slot. -/
theorem port_claim_eq (hu : ClaimUpdate.port key v ∈ claimsOf owner payload) :
    v = ⟨payload.contestedIncarnation, !payload.isAttach, subject⟩ := by
  cases payload with
  | attach p =>
    obtain rfl := Option.some.inj h
    exact (Prod.mk.inj (List.mem_singleton.mp (port_mem_claims.mp hu))).2
  | detach p =>
    obtain rfl := Option.some.inj h
    have hmem := port_mem_claims.mp hu
    unfold detachClaim at hmem
    dsimp only at hmem
    split at hmem
    · exact (Prod.mk.inj (List.mem_singleton.mp hmem)).2
    · exact absurd hmem (by simp)
  | _ => exact absurd h (by simp [EvidencePayload.contestedSide])

end

end Claims

theorem portRecord_of_stored (h : s.stored (.port key) = some (m, .port v)) :
    ∃ f, OrdMap.find₂ s.portRecords key.port key = some f ∧ f.metadata = m ∧ f.value = v := by
  unfold RegistryState.stored RegistryState.lookup at h
  simp only [Option.map_map, Option.map_eq_some_iff, Function.comp_apply, Prod.mk.injEq,
    Folded.mapValue, ClaimValue.port.injEq] at h
  exact h

theorem subjectRecord_of_stored {v : SubjectValue}
    (h : s.stored (.subject subject owner) = some (m, .subject v)) :
    ∃ f, OrdMap.find₂ s.subjectRecords subject owner = some f ∧ f.metadata = m ∧ f.value = v := by
  unfold RegistryState.stored RegistryState.lookup at h
  simp only [Option.map_map, Option.map_eq_some_iff, Function.comp_apply, Prod.mk.injEq,
    Folded.mapValue, ClaimValue.subject.injEq] at h
  exact h

section Step

variable {limits : Limits} {historyPerKey : UInt32} {es : List Evidence} {s s' : RegistryState}
  {e : Evidence} {m : Attestation} {port : PortRef} {policy : ValidationPolicy}
  {subject : ObjectSideRef}

/-- The owner of a live claim about the side is not the new voice. -/
theorem Dissents.ne_of_side (h : Dissents s port policy subject e) {record : SideRecord}
    (hmem : record ∈ sideRecords s subject policy) : record.1 ≠ e.key := by
  intro heq
  obtain ⟨-, hstored, -⟩ := mem_sideRecords.mp hmem
  rw [heq] at hstored
  rw [Evidence.key, h.silent] at hstored
  exact absurd hstored (by simp)

theorem Dissents.ownWord (h : Dissents s port policy subject e)
    (ha : Accepts limits historyPerKey s e m s') (hw : WellKeyed s) : OwnWord s s' e.key :=
  ha.ownWord hw (isPosition_of_contestedSide h.about)

/-- The new voice has no record that puts the side anywhere. -/
theorem Dissents.subject_ne (h : Dissents s port policy subject e) (hc : Consistent limits es s)
    (hw : WellKeyed s) {p : PortRef} {f : Folded PortValue}
    (hf : OrdMap.find₂ s.portRecords p key = some f) (howner : key.owner = e.key)
    (hempty : f.value.empty = false) : f.value.subject ≠ subject := by
  intro heq
  obtain ⟨-, hwinner⟩ := winner_of_portRecord hw hf
  obtain ⟨m', v', hsubject, -⟩ := hc.placed.occupied _ _ _ hwinner hempty
  obtain ⟨g, hg, -⟩ := subjectRecord_of_winner hsubject
  rw [heq, howner, Evidence.key, h.silent] at hg
  exact absurd hg (by simp)

/-- The new record counts about the side. -/
def Joins (s : RegistryState) (subject : ObjectSideRef) (e : Evidence) : Prop :=
  sessionIsFenced s e.key = false ∧
    e.payload.contestedIncarnation = objectIncarnationOf s subject.object

theorem Accepts.participates_eq (ha : Accepts limits historyPerKey s e m s')
    (policy : ValidationPolicy) : participates m policy = true := by
  obtain ⟨source, t, -, -, rfl⟩ := ha.source
  unfold participates attestationOf
  rw [Bool.or_true]

section

variable (h : Dissents s port policy subject e)

include h

/-- The record of the new voice about the side. -/
theorem Dissents.exists_new (ha : Accepts limits historyPerKey s e m s') :
    ∃ f, OrdMap.find₂ s'.subjectRecords subject e.key = some f ∧ f.metadata = m ∧
      f.value.objectIncarnation = e.payload.contestedIncarnation ∧
      f.value.attached = e.payload.isAttach := by
  obtain ⟨v, hv, hinc, hattached⟩ := @exists_subject_claim e.key _ _ h.about
  have hkind : e.payload.isReincarnation = false := by
    have hposition := isPosition_of_contestedSide h.about
    cases hp : e.payload <;> rw [hp] at hposition <;>
      first | rfl | exact absurd hposition (by simp [EvidencePayload.isPosition])
  have hfree : s.stored (.subject subject e.key) = none := by
    unfold RegistryState.stored RegistryState.lookup
    dsimp only
    rw [Evidence.key, h.silent]
    rfl
  have hinsert : resolvedOutcome s m (.subject subject v) = .insert := by
    refine (resolvedOutcome_insert_iff ha hkind hv).mpr fun w hstored => ?_
    rw [show (ClaimUpdate.subject subject v).key e.key = .subject subject e.key from rfl, hfree] at hstored
    exact absurd hstored (by simp)
  obtain ⟨f, hf, hm, hvalue⟩ := subjectRecord_of_stored (stored_of_insert ha hv hinsert)
  exact ⟨f, hf, hm, by rw [hvalue, hinc], by rw [hvalue, hattached]⟩

theorem Dissents.registered :
    objectExists s subject.object = true ∧ objectExcluded s subject.object = false := by
  obtain ⟨record, hrecord, rfl⟩ := mem_occupants.mp h.occupies
  have hcounts := countsAt_iff.mp (mem_topPortRecords.mp (mem_occupiedRecords.mp hrecord).1).1
  exact ⟨hcounts.registered, hcounts.included⟩

/-- **The live claims about the side are those there were, and the new one if it counts.** -/
theorem Dissents.mem_sideRecords_iff (ha : Accepts limits historyPerKey s e m s') (hw : WellKeyed s)
    {f : Folded SubjectValue} (hf : OrdMap.find₂ s'.subjectRecords subject e.key = some f)
    (hm : f.metadata = m) (hinc : f.value.objectIncarnation = e.payload.contestedIncarnation)
    (record : SideRecord) :
    record ∈ sideRecords s' subject policy ↔
      record ∈ sideRecords s subject policy ∨ Joins s subject e ∧ record = (e.key, f) := by
  have hown := h.ownWord ha hw
  constructor
  · intro hmem
    by_cases howner : record.1 = e.key
    · obtain ⟨-, hstored, hfenced, -, hcurrent⟩ := mem_sideRecords.mp hmem
      rw [howner, hf] at hstored
      obtain rfl : record = (e.key, f) := Prod.ext howner (Option.some.inj hstored).symm
      rw [hown.beyond.sessionIsFenced_eq] at hfenced
      rw [hown.beyond.objectIncarnationOf_eq, hinc] at hcurrent
      exact .inr ⟨⟨hfenced, hcurrent⟩, rfl⟩
    · exact .inl (hown.symm.side_of_other hmem howner)
  · rintro (hmem | ⟨⟨hfenced, hcurrent⟩, rfl⟩)
    · exact hown.side_of_other hmem (h.ne_of_side hmem)
    · refine mem_sideRecords.mpr ⟨?_, hf, ?_, ?_, ?_⟩
      · rw [hown.beyond.objectExists_eq]
        exact h.registered.1
      · rw [hown.beyond.sessionIsFenced_eq]
        exact hfenced
      · rw [hm]
        exact ha.participates_eq policy
      · rw [hown.beyond.objectIncarnationOf_eq, hinc]
        exact hcurrent

/-- **The side stays double booked unless it is detached.** -/
theorem Dissents.booked_after (ha : Accepts limits historyPerKey s e m s') (hw : WellKeyed s) :
    subjectDoubleBooked s' subject policy = true ↔
      ¬ Joins s subject e ∨ e.payload.isAttach = true := by
  obtain ⟨f, hf, hm, hinc, hattached⟩ := h.exists_new ha
  have hiff := h.mem_sideRecords_iff ha hw hf hm hinc
  have hbooked := subjectDoubleBooked_iff_binding.mp h.booked
  obtain ⟨hkind, one, hone, other, hother, hne⟩ := hbooked
  by_cases hjoins : Joins s subject e
  · have hrecords : ∀ record, record ∈ sideRecords s' subject policy ↔
        record ∈ sideRecords s subject policy ∨ record = (e.key, f) := by
      intro record
      rw [hiff record]
      simp only [hjoins, true_and]
    obtain ⟨source, t, hsource, -, hmeq⟩ := ha.source
    have hnew : f.metadata.authority = source.descriptor.authority := by
      rw [hm, hmeq]
      rfl
    have hbinding := mem_bindingRecords_of_peer hrecords (h.peer source hsource) hnew
      (List.ne_nil_of_mem hone)
    rw [subjectDoubleBooked_iff_binding]
    constructor
    · rintro ⟨hall, -⟩
      refine .inr ?_
      rw [← hattached]
      exact hall (e.key, f) ((hbinding _).mpr (.inr rfl))
    · intro hor
      have hattach : e.payload.isAttach = true := hor.resolve_left fun hnot => hnot hjoins
      refine ⟨fun record hrecord => ?_, one, (hbinding _).mpr (.inl hone), other,
        (hbinding _).mpr (.inl hother), hne⟩
      rcases (hbinding record).mp hrecord with hold | rfl
      · exact hkind record hold
      · exact hattached.trans hattach
  · have hsame : sideRecords s' subject policy = sideRecords s subject policy := by
      refine (keyOrdered_sideRecords _ _ _).ext (keyOrdered_sideRecords _ _ _) fun record => ?_
      rw [hiff record]
      simp only [hjoins, false_and, or_false]
    rw [subjectDoubleBooked_of_sideRecords hsame, h.booked]
    simp [hjoins]

end

/-- What a live record says is heard after the step if it is still stored. -/
theorem OwnWord.heard {owner : SourceIncarnationKey} (h : OwnWord s s' owner) (hw : WellKeyed s)
    {record : LiveRecord} (hlive : record ∈ livePortRecords s port policy)
    (hport : s'.stored (.port record.1) = s.stored (.port record.1))
    (hsubject : record.2.value.empty = false →
      OrdMap.find₂ s'.subjectRecords record.2.value.subject record.1.owner =
        OrdMap.find₂ s.subjectRecords record.2.value.subject record.1.owner) :
    Heard s' port policy record.2.metadata record.2.value := by
  have hcounts := countsAt_iff.mp hlive
  obtain ⟨hkey, hstored⟩ := stored_of_portRecord hw hcounts.stored
  obtain ⟨f, hf, hm, hv⟩ := portRecord_of_stored (hport.trans hstored)
  rw [hkey] at hf
  exact ⟨_, countsAt_iff.mpr (h.counts hcounts hf hm hv hsubject), hm, hv⟩

section

variable (h : Dissents s port policy subject e) (ha : Accepts limits historyPerKey s e m s')

include h ha

/-- The records about other sides stay. -/
theorem Dissents.find_other (hne : other ≠ subject) (owner : SourceIncarnationKey) :
    OrdMap.find₂ s'.subjectRecords other owner = OrdMap.find₂ s.subjectRecords other owner := by
  refine eq_of_lookup (fun _ _ he => ClaimValue.subject.inj he)
    (ha.lookup_of_not_claimed (k := .subject other owner) fun u hu hk => hne ?_)
  obtain ⟨-, v, rfl⟩ := eq_subject_of_key hk
  exact subject_claim_eq h.about hu

/-- **What is heard at the port after the step** was heard before, or is the new record's claim
about a slot of the port. -/
theorem Dissents.heard_cases (hc : Consistent limits es s) (hw : WellKeyed s) {m₁ : Attestation}
    {v₁ : PortValue} (hheard : Heard s' port policy m₁ v₁) :
    Heard s port policy m₁ v₁ ∨ m₁ = m ∧ Joins s subject e ∧
      v₁ = ⟨e.payload.contestedIncarnation, !e.payload.isAttach, subject⟩ ∧
      ∃ key : PortSlotKey, key.port = port ∧ .port key v₁ ∈ claimsOf e.key e.payload ∧
        resolvedOutcome s m (.port key v₁) = .insert := by
  have hown := h.ownWord ha hw
  have hw' := ha.wellKeyed hw
  obtain ⟨record, hlive, rfl, rfl⟩ := hheard
  by_cases howner : record.1.owner = e.key
  · have hcounts := countsAt_iff.mp hlive
    obtain ⟨hport, hstored⟩ := stored_of_portRecord hw' hcounts.stored
    rcases stored_cases ha (.port record.1) with heq | ⟨u, hu, hk, ho, heq⟩
    · refine .inl (hown.symm.heard hw' hlive heq.symm fun hempty => ?_)
      obtain ⟨f, hf, -, hv⟩ := portRecord_of_stored (heq.symm.trans hstored)
      have hne : record.2.value.subject ≠ subject := by
        rw [← hv] at hempty ⊢
        exact h.subject_ne hc hw hf howner hempty
      exact (h.find_other ha hne _).symm
    · obtain ⟨v, rfl⟩ := eq_port_of_key hk
      rw [heq] at hstored
      obtain ⟨hm, hv⟩ := Prod.mk.inj (Option.some.inj hstored)
      obtain rfl : v = record.2.value := ClaimValue.port.inj hv
      have hvalue := port_claim_eq h.about hu
      refine .inr ⟨hm.symm, ⟨?_, ?_⟩, hvalue, record.1, hport, hu, ho⟩
      · rw [← howner, ← hown.beyond.sessionIsFenced_eq]
        exact hcounts.unfenced
      · have hcurrent := hcounts.current
        rw [hvalue, hown.beyond.objectIncarnationOf_eq] at hcurrent
        exact hcurrent
  · exact .inl ⟨record, hown.symm.live_of_other hlive howner, rfl, rfl⟩

/-- The side stays in the port unless the new record says that a slot of the port is empty. -/
theorem Dissents.occupies_after (hc : Consistent limits es s) (hw : WellKeyed s)
    (hempty : ∀ m₁ v₁, Heard s' port policy m₁ v₁ → v₁.empty = true → Heard s port policy m₁ v₁) :
    subject ∈ occupants s' port policy := by
  have hown := h.ownWord ha hw
  obtain ⟨record, hrecord, hsubject⟩ := mem_occupants.mp h.occupies
  obtain ⟨htop, hoccupied⟩ := mem_occupiedRecords.mp hrecord
  obtain ⟨hlive, hmax⟩ := mem_topPortRecords_iff_foremost.mp htop
  have hne : record.1.owner ≠ e.key := fun howner =>
    h.subject_ne hc hw (countsAt_iff.mp hlive).stored howner hoccupied hsubject
  have hlive' := hown.live_of_other hlive hne
  obtain ⟨m', v', hheard, hmax'⟩ := exists_foremost ⟨record, hlive', rfl, rfl⟩
  have hold : Heard s port policy m' v' → subject ∈ occupants s' port policy := by
    intro hbefore
    refine mem_occupants_iff_heard.mpr ⟨_, _, ⟨record, hlive', rfl, rfl⟩, ?_, hoccupied, hsubject⟩
    intro m₁ v₁ h₁
    exact le_trans (hmax' m₁ v₁ h₁) (hmax m' v' hbefore)
  rcases h.heard_cases ha hc hw hheard with hbefore | ⟨-, -, hv, -⟩
  · exact hold hbefore
  · cases hv' : v'.empty with
    | true => exact hold (hempty m' v' hheard hv')
    | false =>
      exact mem_occupants_iff_heard.mpr ⟨m', v', hheard, hmax', hv', by rw [hv]⟩

end

end Step

/-! ### The state of the port -/

theorem state_eq_attached_iff {limits : Limits} {port : PortRef} :
    (derivePortView s limits port policy).state = .attached ↔
      occupants s port policy ≠ [] ∧ portConflicting s port policy = false := by
  rw [derivePortView_eq, ne_eq, occupants_eq_nil]
  dsimp only
  cases hocc : occupiedRecords s port policy with
  | nil =>
    rw [List.isEmpty_nil, if_pos rfl]
    split <;> simp
  | cons record rest =>
    rw [List.isEmpty_cons, if_neg (by simp)]
    cases portConflicting s port policy <;> simp

/-- The detachment says that a slot of the port is empty, and is not outrun there. -/
def emptiesSlot (s : RegistryState) (port : PortRef) (e : Evidence) (p : DetachPayload) : Bool :=
  p.hasFromPort && p.fromPort == port &&
    (s.stored (.port ⟨e.key, p.fromPort, p.slot⟩)).all (·.1.generation < e.header.generation)

/-- There is a conflict about the port besides the given side. -/
def contestedOtherwise (s : RegistryState) (port : PortRef) (policy : ValidationPolicy)
    (subject : ObjectSideRef) : Bool :=
  tooManyOccupants s port policy || !(emptyRecords s port policy).isEmpty ||
    (occupants s port policy).any fun other => other != subject && subjectDoubleBooked s other policy

/-- The record attaches the side, does not count, empties the port, or leaves another conflict. -/
def staysContested (s : RegistryState) (port : PortRef) (policy : ValidationPolicy) (e : Evidence) :
    Bool :=
  match e.payload with
  | .detach p =>
    sessionIsFenced s e.key || p.objectIncarnation != objectIncarnationOf s p.subject.object ||
      emptiesSlot s port e p || contestedOtherwise s port policy p.subject
  | _ => true

section Settled

variable {limits : Limits} {historyPerKey : UInt32} {es : List Evidence} {s s' : RegistryState}
  {e : Evidence} {m : Attestation} {port : PortRef} {policy : ValidationPolicy}
  {subject : ObjectSideRef}

/-- An attachment, or a record that does not count, leaves the side double booked in the port. -/
theorem Dissents.not_attached (h : Dissents s port policy subject e)
    (ha : Accepts limits historyPerKey s e m s') (hc : Consistent limits es s) (hw : WellKeyed s)
    (hor : ¬ Joins s subject e ∨ e.payload.isAttach = true) :
    (derivePortView s' limits port policy).state ≠ .attached := by
  have hbooked := (h.booked_after ha hw).mpr hor
  have hin : subject ∈ occupants s' port policy := by
    refine h.occupies_after ha hc hw fun m₁ v₁ hheard hempty => ?_
    rcases h.heard_cases ha hc hw hheard with hbefore | ⟨-, hjoins, hv, -⟩
    · exact hbefore
    · rcases hor with hnot | hattach
      · exact absurd hjoins hnot
      · rw [hv, hattach] at hempty
        exact absurd hempty (by simp)
  intro hstate
  obtain ⟨-, hconflicting⟩ := state_eq_attached_iff.mp hstate
  simp only [portConflicting, Bool.or_eq_false_iff, List.any_eq_false] at hconflicting
  exact hconflicting.2 subject hin hbooked

/-- The claims about slots a detachment makes. -/
theorem port_mem_detachClaim :
    .port key v ∈ (detachClaim owner p).claims ↔ p.hasFromPort = true ∧
      key = ⟨owner, p.fromPort, p.slot⟩ ∧ v = ⟨p.objectIncarnation, true, p.subject⟩ := by
  rw [port_mem_claims]
  unfold detachClaim
  cases p.hasFromPort <;> simp

theorem emptiesSlot_iff (ha : Accepts limits historyPerKey s e m s') {p : DetachPayload}
    (hp : e.payload = .detach p) :
    emptiesSlot s port e p = true ↔ ∃ key : PortSlotKey, key.port = port ∧
      ∃ v, .port key v ∈ claimsOf e.key e.payload ∧ resolvedOutcome s m (.port key v) = .insert := by
  have hkind : e.payload.isReincarnation = false := by rw [hp]; rfl
  have hmem : ∀ key v, .port key v ∈ claimsOf e.key e.payload ↔ p.hasFromPort = true ∧
      key = ⟨e.key, p.fromPort, p.slot⟩ ∧ v = ⟨p.objectIncarnation, true, p.subject⟩ := by
    intro key v
    rw [hp]
    exact port_mem_detachClaim
  unfold emptiesSlot
  rw [Bool.and_eq_true, Bool.and_eq_true, beq_iff_eq, Option.all_eq_true]
  constructor
  · rintro ⟨⟨hfrom, hport⟩, hwins⟩
    have hu := (hmem _ _).mpr ⟨hfrom, rfl, rfl⟩
    refine ⟨_, hport, _, hu, (resolvedOutcome_insert_iff ha hkind hu).mpr fun w hstored => ?_⟩
    exact of_decide_eq_true (hwins w hstored)
  · rintro ⟨key, hport, v, hu, ho⟩
    obtain ⟨hfrom, rfl, rfl⟩ := (hmem _ _).mp hu
    refine ⟨⟨hfrom, hport⟩, fun w hstored => decide_eq_true ?_⟩
    exact (resolvedOutcome_insert_iff ha hkind hu).mp ho w hstored

section

variable (h : Dissents s port policy subject e) (ha : Accepts limits historyPerKey s e m s')
  (hc : Consistent limits es s) (hw : WellKeyed s)

include h ha hc hw

/-- What is heard at the port has no higher authority than the rivals about the side. -/
theorem Dissents.heard_le {m₁ : Attestation} {v₁ : PortValue} (hheard : Heard s port policy m₁ v₁) :
    m₁.authority ≤ m.authority := by
  obtain ⟨source, t, hsource, -, rfl⟩ := ha.source
  obtain ⟨claim, hclaim, heq⟩ := exists_claim_of_occupant hc hw h.occupies
  have hside := (mem_sideClaims.mp hclaim).1
  obtain ⟨top, htop⟩ := exists_binding (List.ne_nil_of_mem hside)
  obtain ⟨record, hlive, rfl, rfl⟩ := hheard
  calc record.2.metadata.authority
      ≤ topAuthority s port policy := le_bestAuthority (List.mem_map_of_mem hlive)
    _ = claim.2.metadata.authority := heq.symm
    _ ≤ top.2.metadata.authority := (mem_bindingRecords.mp htop).2 claim hside
    _ = source.descriptor.authority := h.peer source hsource top htop

/-- A detachment that empties a slot of the port is heard there, with the highest authority. -/
theorem Dissents.not_attached_of_emptied (hjoins : Joins s subject e) (hp : e.payload = .detach p)
    (hempties : emptiesSlot s port e p = true) :
    (derivePortView s' limits port policy).state ≠ .attached := by
  have hown := h.ownWord ha hw
  obtain ⟨key, hport, v, hu, ho⟩ := (emptiesSlot_iff ha hp).mp hempties
  obtain ⟨f, hf, hm, hv⟩ := portRecord_of_stored (stored_of_insert ha hu ho)
  have howner : key.owner = e.key := owner_key_of_mem_claimsOf hu
  have hvalue := port_claim_eq h.about hu
  have hempty : v.empty = true := by
    rw [hvalue, hp]
    rfl
  have hcounts : CountsAt s' port policy (key, f) := by
    refine ⟨?_, ?_, ?_, ?_, ?_, ?_, ?_⟩
    · rw [← hport]
      exact hf
    · rw [hown.beyond.sessionIsFenced_eq, howner]
      exact hjoins.1
    · rw [hm]
      exact ha.participates_eq policy
    · rw [hv, hvalue, hown.beyond.objectExists_eq]
      exact h.registered.1
    · rw [hv, hvalue, hown.beyond.objectExcluded_eq]
      exact h.registered.2
    · rw [hv, hvalue, hown.beyond.objectIncarnationOf_eq]
      exact hjoins.2
    · rw [hv, hempty]
      exact fun hfalse => absurd hfalse (by simp)
  have hforemost : Foremost s' port policy m.authority := by
    intro m₁ v₁ hheard
    rcases h.heard_cases ha hc hw hheard with hbefore | ⟨rfl, -⟩
    · exact h.heard_le ha hc hw hbefore
    · exact le_refl _
  have hnonempty : emptyRecords s' port policy ≠ [] :=
    emptyRecords_ne_nil_iff_heard.mpr ⟨m, v, ⟨_, countsAt_iff.mpr hcounts, hm, hv⟩, hforemost, hempty⟩
  intro hstate
  obtain ⟨-, hconflicting⟩ := state_eq_attached_iff.mp hstate
  simp only [portConflicting, Bool.or_eq_false_iff, Bool.not_eq_false', List.isEmpty_iff] at hconflicting
  exact hnonempty hconflicting.1.2

/-- A detachment that says nothing about the port leaves what is heard there. -/
theorem Dissents.heard_iff (hp : e.payload = .detach p) (hempties : emptiesSlot s port e p = false)
    (m₁ : Attestation) (v₁ : PortValue) :
    Heard s' port policy m₁ v₁ ↔ Heard s port policy m₁ v₁ := by
  have hown := h.ownWord ha hw
  have hnot : ∀ key : PortSlotKey, key.port = port → ∀ v, .port key v ∈ claimsOf e.key e.payload →
      resolvedOutcome s m (.port key v) ≠ .insert := by
    intro key hport v hu ho
    rw [(emptiesSlot_iff ha hp).mpr ⟨key, hport, v, hu, ho⟩] at hempties
    exact absurd hempties (by simp)
  constructor
  · intro hheard
    rcases h.heard_cases ha hc hw hheard with hbefore | ⟨-, -, -, key, hport, hu, ho⟩
    · exact hbefore
    · exact absurd ho (hnot key hport _ hu)
  · rintro ⟨record, hlive, rfl, rfl⟩
    have hcounts := countsAt_iff.mp hlive
    obtain ⟨hport, -⟩ := stored_of_portRecord hw hcounts.stored
    refine hown.heard hw hlive ?_ fun hempty => ?_
    · refine stored_of_not_insert ha fun u hu hk => ?_
      obtain ⟨v, rfl⟩ := eq_port_of_key hk
      exact hnot record.1 hport v hu
    · by_cases howner : record.1.owner = e.key
      · exact h.find_other ha (h.subject_ne hc hw hcounts.stored howner hempty) _
      · exact hown.subject _ _ howner

/-- **A detachment away from the port leaves it attached**, unless something else is wrong. -/
theorem Dissents.attached_iff (hjoins : Joins s subject e) (hp : e.payload = .detach p)
    (hempties : emptiesSlot s port e p = false) :
    (derivePortView s' limits port policy).state ≠ .attached ↔
      contestedOtherwise s port policy subject = true := by
  have hown := h.ownWord ha hw
  have hheard := h.heard_iff ha hc hw hp hempties
  have hoccupants := occupants_of_heard hheard
  have hfreed : subjectDoubleBooked s' subject policy = false := by
    rw [Bool.eq_false_iff, ne_eq, h.booked_after ha hw, hp]
    simp [hjoins, EvidencePayload.isAttach]
  have hother : ∀ other, other ≠ subject →
      subjectDoubleBooked s' other policy = subjectDoubleBooked s other policy := by
    intro other hne
    refine subjectDoubleBooked_of_sideRecords ?_
    refine (keyOrdered_sideRecords _ _ _).ext (keyOrdered_sideRecords _ _ _) fun record => ?_
    exact ⟨fun hmem => hown.symm.side hmem (h.find_other ha hne _).symm,
      fun hmem => hown.side hmem (h.find_other ha hne _)⟩
  have hconflicting : portConflicting s' port policy = contestedOtherwise s port policy subject := by
    unfold portConflicting contestedOtherwise tooManyOccupants
    rw [hoccupants, emptyRecords_of_heard hheard, hown.beyond.portCapabilityOf_eq]
    congr 1
    rw [Bool.eq_iff_iff, List.any_eq_true, List.any_eq_true]
    refine exists_congr fun other => and_congr_right fun _ => ?_
    by_cases heq : other = subject
    · rw [heq, hfreed]
      simp
    · rw [hother other heq]
      simp [heq]
  rw [ne_eq, state_eq_attached_iff, hoccupants, hconflicting]
  simp [List.ne_nil_of_mem h.occupies]

theorem Dissents.state_iff :
    (derivePortView s' limits port policy).state ≠ .attached ↔
      staysContested s port policy e = true := by
  have habout := h.about
  unfold staysContested
  cases hp : e.payload with
  | attach p =>
    exact iff_of_true (h.not_attached ha hc hw (.inr (by rw [hp]; rfl))) rfl
  | detach p =>
    rw [hp] at habout
    obtain rfl := Option.some.inj habout
    by_cases hjoins : Joins s p.subject e
    · obtain ⟨hfenced, hcurrent⟩ := id hjoins
      rw [hp] at hcurrent
      have hbne : (p.objectIncarnation != objectIncarnationOf s p.subject.object) = false :=
        bne_eq_false_iff_eq.mpr hcurrent
      dsimp only
      rw [hfenced, hbne, Bool.false_or, Bool.false_or]
      cases hempties : emptiesSlot s port e p with
      | true => exact iff_of_true (h.not_attached_of_emptied ha hc hw hjoins hp hempties) rfl
      | false => exact h.attached_iff ha hc hw hjoins hp hempties
    · refine iff_of_true (h.not_attached ha hc hw (.inl hjoins)) ?_
      by_contra hnot
      simp only [Bool.or_eq_true, not_or, Bool.not_eq_true, bne_eq_false_iff_eq] at hnot
      refine hjoins ⟨hnot.1.1.1, ?_⟩
      rw [hp]
      exact hnot.1.1.2
  | _ =>
    rw [hp] at habout
    exact absurd habout (by simp [EvidencePayload.contestedSide])

end

end Settled

/-- The notes of a port that speak of double booking. -/
theorem mem_conflicts_doubleBooked {limits : Limits} {port : PortRef} {note : ConflictNote}
    (hmem : note ∈ (derivePortView s limits port policy).conflicts)
    (hreason : note.reason = .objectSideDoubleBooked) :
    note.subject ∈ occupants s port policy ∧ subjectDoubleBooked s note.subject policy = true := by
  obtain ⟨-, ⟨edge, -, hnote⟩ | ⟨-, rfl⟩ | ⟨-, rfl⟩ | ⟨subject, hsubject, hbooked, rfl⟩⟩ :=
    mem_conflicts_iff.mp hmem
  · rcases (of_mem_compatibilityNotes hnote).2 with hother | hother <;>
      exact absurd (hother.symm.trans hreason) (by simp)
  · exact absurd hreason (by simp [tooManyNote])
  · exact absurd hreason (by simp [mixedNote])
  · exact ⟨hsubject, hbooked⟩

/-- **When one more voice settles a port.**  In every reachable state, for every policy and every
port whose view has a note that a side is double booked, let a source that said nothing about the
side attach or detach it with the authority of the claims that bind.  If the record is refused,
the port stays conflicting.  If it is accepted, the port is not reported as attached exactly if
the record attaches the side, does not count, empties a slot of this port, or leaves another
conflict about it. -/
theorem dissent_settles {r : Registry} {options : RegistryOptions} {requests : List Request}
    {es : List Evidence} (h : r.ReachedBy options requests es) (port : PortRef)
    (policy : ValidationPolicy) {subject : ObjectSideRef} {e : Evidence}
    (habout : e.payload.contestedSide = some subject)
    (hnote : ∃ note ∈ (derivePortView r.state r.limits port policy).conflicts,
      note.reason = .objectSideDoubleBooked ∧ note.subject = subject)
    (hsilent : ∀ record ∈ recordsOf r.state.subjectRecords subject,
      record.1.source ≠ e.header.source)
    (hpeer : ∀ source : SourceRecord, r.state.sources[e.header.source]? = some source →
      ∀ record ∈ bindingRecords r.state subject policy,
        record.2.metadata.authority = source.descriptor.authority)
    (t : Timestamp) (io : Store.AppendIo) :
    ((r.ingest e t io).2.disposition.isAccepted = false →
      (derivePortView (r.ingest e t io).1.state r.limits port policy).state = .conflicting) ∧
    ((r.ingest e t io).2.disposition.isAccepted = true →
      ((derivePortView (r.ingest e t io).1.state r.limits port policy).state ≠ .attached ↔
        staysContested r.state port policy e = true)) := by
  obtain ⟨hw, hindexed, -, -, id, openedAt, htrace⟩ := h.trace
  obtain ⟨note, hmem, hreason, rfl⟩ := hnote
  obtain ⟨hoccupies, hbooked⟩ := mem_conflicts_doubleBooked hmem hreason
  refine ⟨fun hd => ?_, fun hd => ?_⟩
  · have hsame : derivePortView (r.ingest e t io).1.state r.limits port policy =
        derivePortView r.state r.limits port policy := by
      rcases Registry.ingestLocked_refused hd with hstate | ⟨-, session, hstate⟩
      · rw [Registry.ingest, hstate]
      · rw [Registry.ingest, hstate]
        rfl
    rw [hsame, derivePortView_eq]
    have hconflicting : portConflicting r.state port policy = true := by
      unfold portConflicting
      rw [Bool.or_eq_true]
      exact .inr (List.any_eq_true.mpr ⟨_, hoccupies, hbooked⟩)
    have hoccupied : (occupiedRecords r.state port policy).isEmpty = false := by
      rw [List.isEmpty_eq_false_iff, ne_eq, ← occupants_eq_nil]
      exact List.ne_nil_of_mem hoccupies
    dsimp only
    rw [hoccupied, hconflicting]
    rfl
  · obtain ⟨m, -, ha⟩ := Registry.accepts_of_isAccepted hindexed hd
    have hdissents : Dissents r.state port policy note.subject e := by
      refine ⟨habout, hoccupies, hbooked, fun incarnation => ?_, hpeer⟩
      by_contra hsome
      obtain ⟨f, hf⟩ := Option.ne_none_iff_exists'.mp hsome
      exact hsilent (_, f) (mem_recordsOf.mpr hf) rfl
    exact hdissents.state_iff ha htrace.consistent hw

/-- Three sources of one rank; two of them place a side at different ports. -/
def sampleContested : List Request :=
  [Registry.sampleOpen 1 1 5, Registry.sampleOpen 2 1 5, Registry.sampleOpen 3 1 5,
    Registry.sampleIngest 1 1 1 Registry.sampleEndpoint,
    Registry.sampleIngest 1 1 2 (Registry.sampleObject 9),
    Registry.sampleIngest 1 1 3 (Registry.samplePlace 9 0 0 0),
    Registry.sampleIngest 2 1 1 (Registry.samplePlace 9 0 1 0)]

/-- The third source says that the side is nowhere. -/
def sampleDissent : Evidence :=
  Registry.sampleRecord 3 1 1 (.detach { subject := ⟨.fromParts 0 9, 0⟩, objectIncarnation := 1 })

/-- What makes the third source's record one more voice about the side. -/
def isContested (r : Registry) : Bool :=
  ((derivePortView r.state r.limits ⟨.fromParts 0 7, 0⟩ .includeAll).conflicts.any fun note =>
    note.reason == .objectSideDoubleBooked && note.subject == ⟨.fromParts 0 9, 0⟩) &&
  ((recordsOf r.state.subjectRecords ⟨.fromParts 0 9, 0⟩).all fun record =>
    record.1.source != sampleDissent.header.source) &&
  (r.state.sources[sampleDissent.header.source]?).all fun source =>
    (bindingRecords r.state ⟨.fromParts 0 9, 0⟩ .includeAll).all fun record =>
      record.2.metadata.authority == source.descriptor.authority

theorem isContested_iff {r : Registry} :
    isContested r = true ↔
      (∃ note ∈ (derivePortView r.state r.limits ⟨.fromParts 0 7, 0⟩ .includeAll).conflicts,
        note.reason = .objectSideDoubleBooked ∧ note.subject = ⟨.fromParts 0 9, 0⟩) ∧
      (∀ record ∈ recordsOf r.state.subjectRecords ⟨.fromParts 0 9, 0⟩,
        record.1.source ≠ sampleDissent.header.source) ∧
      ∀ source : SourceRecord, r.state.sources[sampleDissent.header.source]? = some source →
        ∀ record ∈ bindingRecords r.state ⟨.fromParts 0 9, 0⟩ .includeAll,
          record.2.metadata.authority = source.descriptor.authority := by
  unfold isContested
  simp only [Bool.and_eq_true, List.any_eq_true, List.all_eq_true, Option.all_eq_true, beq_iff_eq,
    bne_iff_ne, and_assoc]

theorem dissent_settles_sample :
    ∃ (r : Registry) (es : List Evidence), r.ReachedBy {} sampleContested es ∧
      ((r.ingest sampleDissent 4 .written).2.disposition.isAccepted = true →
        ((derivePortView (r.ingest sampleDissent 4 .written).1.state r.limits ⟨.fromParts 0 7, 0⟩
            .includeAll).state ≠ .attached ↔
          staysContested r.state ⟨.fromParts 0 7, 0⟩ .includeAll sampleDissent = true)) := by
  obtain ⟨r, es, hr, hp⟩ := Registry.exists_reached {} sampleContested
    (fun r _ => isContested r) (by decide +kernel)
  obtain ⟨hnote, hsilent, hpeer⟩ := isContested_iff.mp hp
  exact ⟨r, es, hr, (dissent_settles hr _ _ rfl hnote hsilent hpeer 4 .written).2⟩

/-- Two sources place the side at ports 0 and 1, and port 0 is conflicting.  A third source of
the same rank says that the side is nowhere, and port 0 is attached. -/
theorem detachment_settles_port :
    ∃ (r : Registry) (es : List Evidence), r.ReachedBy {} sampleContested es ∧
      (∃ note ∈ (derivePortView r.state r.limits ⟨.fromParts 0 7, 0⟩ .includeAll).conflicts,
        note.reason = .objectSideDoubleBooked ∧ note.subject = ⟨.fromParts 0 9, 0⟩) ∧
      (∀ record ∈ recordsOf r.state.subjectRecords ⟨.fromParts 0 9, 0⟩,
        record.1.source ≠ sampleDissent.header.source) ∧
      (∀ source : SourceRecord, r.state.sources[sampleDissent.header.source]? = some source →
        ∀ record ∈ bindingRecords r.state ⟨.fromParts 0 9, 0⟩ .includeAll,
          record.2.metadata.authority = source.descriptor.authority) ∧
      (derivePortView r.state r.limits ⟨.fromParts 0 7, 0⟩ .includeAll).state = .conflicting ∧
      (derivePortView (r.ingest sampleDissent 4 .written).1.state r.limits ⟨.fromParts 0 7, 0⟩
        .includeAll).state = .attached := by
  obtain ⟨r, es, hr, hp⟩ := Registry.exists_reached {} sampleContested
    (fun r _ => isContested r &&
      (derivePortView r.state r.limits ⟨.fromParts 0 7, 0⟩ .includeAll).state == .conflicting &&
      (derivePortView (r.ingest sampleDissent 4 .written).1.state r.limits ⟨.fromParts 0 7, 0⟩
        .includeAll).state == .attached) (by decide +kernel)
  simp only [Bool.and_eq_true, beq_iff_eq] at hp
  obtain ⟨⟨hcontested, hbefore⟩, hafter⟩ := hp
  obtain ⟨hnote, hsilent, hpeer⟩ := isContested_iff.mp hcontested
  exact ⟨r, es, hr, hnote, hsilent, hpeer, hbefore, hafter⟩

end CableRegistry
