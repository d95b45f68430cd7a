import CableRegistry.Fencing

/-!
# Claims that are not about a live unit

A record of a side or of a slot is *dead* when the object it is about is not registered or is
out of service, or when it was made against another incarnation of the object than the current
one (`isDead`).  Dead records stay in the maps.  The view of a port looks into both maps: it
takes the live slot records, joins each with the word of its owner on the side, ranks them,
and asks of every side that sits in the port whether it is claimed elsewhere.

* `dead_without_influence`: none of that depends on a dead record.  Without them every port is
  answered in the same way, under either policy.
-/

namespace CableRegistry

/-- The object is not a unit in service, or the claim is about another unit. -/
def isDead (s : RegistryState) (object : ObjectId) (incarnation : ObjectIncarnation) : Bool :=
  !objectExists s object || objectExcluded s object || incarnation != objectIncarnationOf s object

/-- The state without the dead records of sides and slots. -/
def dropDead (s : RegistryState) : RegistryState :=
  { s with
    subjectRecords := dropRecords
      (fun subject _ f => isDead s subject.object f.value.objectIncarnation) s.subjectRecords
    portRecords := dropRecords
      (fun _ _ f => isDead s f.value.subject.object f.value.objectIncarnation) s.portRecords }

section Dead

variable {s : RegistryState} {object : ObjectId} {incarnation : ObjectIncarnation}

theorem isDead_eq_false :
    isDead s object incarnation = false ↔ objectExists s object = true ∧
      objectExcluded s object = false ∧ incarnation = objectIncarnationOf s object := by
  unfold isDead
  simp [and_assoc]

theorem sameBeyondPositions_dropDead (s : RegistryState) : SameBeyondPositions s (dropDead s) :=
  ⟨rfl, rfl, rfl, rfl, rfl, rfl, rfl⟩

/-- The slot records that count are not dead, and neither are the words they rest on. -/
theorem livePortRecords_dropDead (s : RegistryState) (port : PortRef) (policy : ValidationPolicy) :
    livePortRecords (dropDead s) port policy = livePortRecords s port policy := by
  have hsame := sameBeyondPositions_dropDead s
  refine (keyOrdered_livePortRecords _ _ _).ext (keyOrdered_livePortRecords _ _ _) fun record => ?_
  rw [countsAt_iff, countsAt_iff]
  constructor
  · rintro ⟨hstored, hfenced, hpart, hregistered, hincluded, hcurrent, hstill⟩
    rw [hsame.sessionIsFenced_eq] at hfenced
    rw [hsame.objectExists_eq] at hregistered
    rw [hsame.objectExcluded_eq] at hincluded
    rw [hsame.objectIncarnationOf_eq] at hcurrent
    refine ⟨(find₂_dropRecords_eq_some.mp hstored).1, hfenced, hpart, hregistered, hincluded,
      hcurrent, fun hempty => ?_⟩
    obtain ⟨entry, hentry, hrest⟩ := hstill hempty
    exact ⟨entry, (find₂_dropRecords_eq_some.mp hentry).1, hrest⟩
  · rintro ⟨hstored, hfenced, hpart, hregistered, hincluded, hcurrent, hstill⟩
    refine ⟨find₂_dropRecords_eq_some.mpr ⟨hstored, isDead_eq_false.mpr
      ⟨hregistered, hincluded, hcurrent⟩⟩, ?_, hpart, ?_, ?_, ?_, fun hempty => ?_⟩
    · rw [hsame.sessionIsFenced_eq]
      exact hfenced
    · rw [hsame.objectExists_eq]
      exact hregistered
    · rw [hsame.objectExcluded_eq]
      exact hincluded
    · rw [hsame.objectIncarnationOf_eq]
      exact hcurrent
    · obtain ⟨entry, hentry, hattached, hport, hslot, hincarnation, hgeneration⟩ := hstill hempty
      refine ⟨entry, find₂_dropRecords_eq_some.mpr ⟨hentry, isDead_eq_false.mpr
        ⟨hregistered, hincluded, ?_⟩⟩, hattached, hport, hslot, hincarnation, hgeneration⟩
      rw [hincarnation]
      exact hcurrent

/-- A side of an object in service is derived from records that are not dead. -/
theorem deriveSubject_dropDead {subject : ObjectSideRef}
    (hincluded : objectExcluded s subject.object = false) (policy : ValidationPolicy) :
    deriveSubject (dropDead s) subject policy = deriveSubject s subject policy := by
  have hsame := sameBeyondPositions_dropDead s
  have hrecords : sideRecords (dropDead s) subject policy = sideRecords s subject policy := by
    refine (keyOrdered_sideRecords _ _ _).ext (keyOrdered_sideRecords _ _ _) fun record => ?_
    rw [mem_sideRecords, mem_sideRecords, hsame.objectExists_eq, hsame.sessionIsFenced_eq,
      hsame.objectIncarnationOf_eq]
    refine and_congr_right fun hexists => ⟨?_, ?_⟩
    · rintro ⟨hstored, hrest⟩
      exact ⟨(find₂_dropRecords_eq_some.mp hstored).1, hrest⟩
    · rintro ⟨hstored, hfenced, hpart, hcurrent⟩
      exact ⟨find₂_dropRecords_eq_some.mpr
        ⟨hstored, isDead_eq_false.mpr ⟨hexists, hincluded, hcurrent⟩⟩, hfenced, hpart, hcurrent⟩
  rw [deriveSubject_eq_derivationFrom, deriveSubject_eq_derivationFrom, hrecords,
    hsame.objectIncarnationOf_eq]

end Dead

/-- **Only live claims shape a port.**  Deleting every record of a side or a slot that is about
an object that is not registered, about an object that is quarantined, removed or retired, or
made against another incarnation than the object's current one changes no answer about a
port. -/
theorem dead_without_influence (r : Registry) (port : PortRef) (policy : ValidationPolicy) :
    { r with state := dropDead r.state }.queryPort port policy = r.queryPort port policy := by
  have hsame := sameBeyondPositions_dropDead r.state
  have hview : derivePortView (dropDead r.state) r.limits port policy =
      derivePortView r.state r.limits port policy := by
    refine derivePortView_congr r.limits (livePortRecords_dropDead r.state port policy)
      (hsame.portCapabilityOf_eq port) fun subject hsubject => ⟨?_, hsame.sideDescriptorOf_eq _ _⟩
    obtain ⟨record, hrecord, rfl⟩ := mem_occupants.mp hsubject
    have hcounts := countsAt_iff.mp
      (mem_topPortRecords.mp (mem_occupiedRecords.mp hrecord).1).1
    exact deriveSubject_dropDead hcounts.included policy
  rw [Registry.queryPort_cases, Registry.queryPort_cases, hview]
  rfl

end CableRegistry
