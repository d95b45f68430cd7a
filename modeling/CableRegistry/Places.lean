import CableRegistry.Dissent

/-!
# One side, one place

A side that is claimed at two ports is meant to show as a conflict at both.  The port learns of it
from the derivation of the side, and that looks at the claims of the highest authority about the
*side*, while the port itself goes by the highest authority about the *port*.  A claim that is
outranked for the side can be the highest one about its port, so both ports report the side without
a conflict; and so they do when a detachment of the same authority or a higher one hides the ports
from the derivation.

* `CountsAt.sideRecord`: a slot record that counts rests on a live record of the side.
* `sidesAgree`: live records that attach a side at two ports are not outranked for the side, by
  an attachment or by a detachment, nor matched by a detachment.
* `side_in_one_place`: then a side has no two edges without a conflict, at two ports.
-/

namespace CableRegistry

/-- Records that attach a side at two ports are not outranked, and are not matched by a detachment. -/
def recordsAgree (records : List SideRecord) : Bool :=
  records.all fun one => records.all fun other =>
    !(one.2.value.attached && other.2.value.attached) || one.2.value.port == other.2.value.port ||
      records.all fun third => decide (third.2.metadata.authority ≤ one.2.metadata.authority) &&
        (third.2.value.attached || third.2.metadata.authority != one.2.metadata.authority)

/-- This holds for the live records of every side. -/
def sidesAgree (s : RegistryState) (policy : ValidationPolicy) : Bool :=
  s.subjectRecords.toList.all fun entry => recordsAgree (sideRecords s entry.1 policy)

section Agree

variable {s : RegistryState} {policy : ValidationPolicy} {subject : ObjectSideRef}

theorem recordsAgree_of_sidesAgree (h : sidesAgree s policy = true) (subject : ObjectSideRef) :
    recordsAgree (sideRecords s subject policy) = true := by
  cases hrecords : sideRecords s subject policy with
  | nil => rfl
  | cons record records =>
    rw [← hrecords]
    have hmem : record ∈ sideRecords s subject policy := by
      rw [hrecords]
      exact List.mem_cons_self
    obtain ⟨owners, howners, -⟩ := Option.bind_eq_some_iff.mp (mem_sideRecords.mp hmem).2.1
    exact List.all_eq_true.mp h (subject, owners) (OrdMap.mem_toList.mpr howners)

/-- **Where the records agree, a side that is attached at two ports is double booked.** -/
theorem subjectDoubleBooked_of_agree (h : recordsAgree (sideRecords s subject policy) = true)
    {one other : SideRecord} (hone : one ∈ sideRecords s subject policy)
    (hother : other ∈ sideRecords s subject policy) (hattached : one.2.value.attached = true)
    (hattached' : other.2.value.attached = true) (hne : one.2.value.port ≠ other.2.value.port) :
    subjectDoubleBooked s subject policy = true := by
  have hrule : ∀ a ∈ sideRecords s subject policy, ∀ b ∈ sideRecords s subject policy,
      a.2.value.attached = true → b.2.value.attached = true → a.2.value.port ≠ b.2.value.port →
      ∀ c ∈ sideRecords s subject policy, c.2.metadata.authority ≤ a.2.metadata.authority ∧
        (c.2.value.attached = true ∨ c.2.metadata.authority ≠ a.2.metadata.authority) := by
    intro a ha b hb hatt hatt' hports c hc
    unfold recordsAgree at h
    have hpair := List.all_eq_true.mp (List.all_eq_true.mp h a ha) b hb
    rw [hatt, hatt', beq_eq_false_iff_ne.mpr hports] at hpair
    simp only [Bool.and_self, Bool.not_true, Bool.false_or] at hpair
    have hthird := List.all_eq_true.mp hpair c hc
    rw [Bool.and_eq_true, decide_eq_true_eq, Bool.or_eq_true, bne_iff_ne] at hthird
    exact hthird
  have hfirst := hrule one hone other hother hattached hattached' hne
  have hsecond := hrule other hother one hone hattached' hattached hne.symm
  have hbinding : one ∈ bindingRecords s subject policy :=
    mem_bindingRecords.mpr ⟨hone, fun c hc => (hfirst c hc).1⟩
  have hbinding' : other ∈ bindingRecords s subject policy :=
    mem_bindingRecords.mpr ⟨hother, fun c hc => (hsecond c hc).1⟩
  refine subjectDoubleBooked_iff_binding.mpr ⟨?_, one, hbinding, other, hbinding', hne⟩
  intro record hrecord
  obtain ⟨hmem, hmax⟩ := mem_bindingRecords.mp hrecord
  have hsame : record.2.metadata.authority = one.2.metadata.authority :=
    le_antisymm (hfirst record hmem).1 (hmax one hone)
  exact (hfirst record hmem).2.resolve_right fun hdiffers => hdiffers hsame

end Agree

/-! ### Edges -/

variable {edge : AttachmentEdge}

section Edges

variable {s : RegistryState} {limits : Limits} {es : List Evidence} {port : PortRef}
  {policy : ValidationPolicy}

/-- **A slot record that counts and puts a side in the port rests on a live record of the side**, of
the same source incarnation, that attaches it there. -/
theorem CountsAt.sideRecord (hc : Consistent limits es s) (hw : WellKeyed s) {record : LiveRecord}
    (h : CountsAt s port policy record) (hempty : record.2.value.empty = false) :
    ∃ side ∈ sideRecords s record.2.value.subject policy,
      side.2.value.attached = true ∧ side.2.value.port = port := by
  obtain ⟨entry, hentry, hattached, hport, -, hincarnation, hgeneration⟩ := h.still hempty
  have hstored := (stored_of_portRecord hw h.stored).2
  have hsame : entry.metadata = record.2.metadata :=
    hc.paired record.1 _ _ hstored hempty _ _ (stored_of_subjectRecord hentry) hgeneration
  refine ⟨(record.1.owner, entry), ?_, hattached, hport⟩
  refine mem_sideRecords.mpr ⟨h.registered, hentry, h.unfenced, ?_, hincarnation.trans h.current⟩
  rw [hsame]
  exact h.participates

/-- The side of an edge sits in the port, and the edge is in conflict when the port is. -/
theorem of_mem_edges (h : edge ∈ (derivePortView s limits port policy).edges) :
    edge.subject ∈ occupants s port policy ∧ edge.conflicting = portConflicting s port policy := by
  rw [derivePortView_eq] at h
  obtain ⟨subject, hsubject, rfl⟩ := List.mem_map.mp h
  exact ⟨hsubject, rfl⟩

theorem exists_sideRecord_of_occupant (hc : Consistent limits es s) (hw : WellKeyed s)
    {subject : ObjectSideRef} (h : subject ∈ occupants s port policy) :
    ∃ side ∈ sideRecords s subject policy,
      side.2.value.attached = true ∧ side.2.value.port = port := by
  obtain ⟨record, hrecord, rfl⟩ := mem_occupants.mp h
  obtain ⟨htop, hempty⟩ := mem_occupiedRecords.mp hrecord
  exact (countsAt_iff.mp (mem_topPortRecords.mp htop).1).sideRecord hc hw hempty

end Edges

/-- **A side is in one place**, in every reachable state in which the live records of every side agree:
no side has edges without a conflict at two ports. -/
theorem side_in_one_place {r : Registry} {options : RegistryOptions} {requests : List Request}
    {es : List Evidence} (h : r.ReachedBy options requests es) (policy : ValidationPolicy)
    (hagree : sidesAgree r.state policy = true) {port port' : PortRef} (hne : port ≠ port')
    {edge edge' : AttachmentEdge}
    (hedge : edge ∈ (derivePortView r.state r.limits port policy).edges)
    (hedge' : edge' ∈ (derivePortView r.state r.limits port' policy).edges)
    (hsame : edge.subject = edge'.subject) : edge.conflicting = true ∧ edge'.conflicting = true := by
  obtain ⟨hw, -, -, -, id, openedAt, htrace⟩ := h.trace
  have hconsistent := htrace.consistent
  obtain ⟨hoccupant, hconflicting⟩ := of_mem_edges hedge
  obtain ⟨hoccupant', hconflicting'⟩ := of_mem_edges hedge'
  rw [← hsame] at hoccupant'
  obtain ⟨one, hone, hattached, rfl⟩ := exists_sideRecord_of_occupant hconsistent hw hoccupant
  obtain ⟨other, hother, hattached', rfl⟩ := exists_sideRecord_of_occupant hconsistent hw hoccupant'
  have hbooked := subjectDoubleBooked_of_agree (recordsAgree_of_sidesAgree hagree edge.subject)
    hone hother hattached hattached' hne
  have hport : ∀ {port}, edge.subject ∈ occupants r.state port policy →
      portConflicting r.state port policy = true := by
    intro port hmem
    unfold portConflicting
    rw [Bool.or_eq_true]
    exact .inr (List.any_eq_true.mpr ⟨edge.subject, hmem, hbooked⟩)
  exact ⟨hconflicting.trans (hport hoccupant), hconflicting'.trans (hport hoccupant')⟩

/-- Two sources of the given ranks place one side of object 9 at two ports. -/
def sampleTwoPlaces (rank rank' : UInt32) : List Request :=
  [Registry.sampleOpen 1 1 rank, Registry.sampleOpen 2 1 rank',
    Registry.sampleIngest 1 1 1 Registry.sampleEndpoint,
    Registry.sampleIngest 1 1 2 (Registry.sampleObject 9),
    Registry.sampleIngest 1 1 3 (Registry.samplePlace 9 0 0 0),
    Registry.sampleIngest 2 1 1 (Registry.samplePlace 9 0 1 0)]

/-- The edges of side 0 of object 9 at a port of endpoint 7. -/
def sampleEdges (r : Registry) (index : PortIndex) : List AttachmentEdge :=
  (derivePortView r.state r.limits ⟨.fromParts 0 7, index⟩ .includeAll).edges.filter
    (·.subject == ⟨.fromParts 0 9, 0⟩)

theorem mem_sampleEdges {r : Registry} {index : PortIndex} :
    edge ∈ sampleEdges r index ↔
      edge ∈ (derivePortView r.state r.limits ⟨.fromParts 0 7, index⟩ .includeAll).edges ∧
        edge.subject = ⟨.fromParts 0 9, 0⟩ := by
  unfold sampleEdges
  rw [List.mem_filter, beq_iff_eq]

/-- Sources of one rank are in conflict. -/
theorem side_in_one_place_sample :
    ∃ (r : Registry) (es : List Evidence) (edge edge' : AttachmentEdge),
      r.ReachedBy {} (sampleTwoPlaces 5 5) es ∧ sidesAgree r.state .includeAll = true ∧
      edge ∈ sampleEdges r 0 ∧ edge' ∈ sampleEdges r 1 ∧
      edge.conflicting = true ∧ edge'.conflicting = true := by
  obtain ⟨r, es, hr, hp⟩ := Registry.exists_reached {} (sampleTwoPlaces 5 5)
    (fun r _ => sidesAgree r.state .includeAll && !(sampleEdges r 0).isEmpty &&
      !(sampleEdges r 1).isEmpty) (by decide +kernel)
  simp only [Bool.and_eq_true, Bool.not_eq_true', List.isEmpty_eq_false_iff] at hp
  obtain ⟨⟨hagree, hsome⟩, hsome'⟩ := hp
  obtain ⟨edge, hedge⟩ := List.exists_mem_of_ne_nil _ hsome
  obtain ⟨edge', hedge'⟩ := List.exists_mem_of_ne_nil _ hsome'
  obtain ⟨hmem, hsubject⟩ := mem_sampleEdges.mp hedge
  obtain ⟨hmem', hsubject'⟩ := mem_sampleEdges.mp hedge'
  exact ⟨r, es, edge, edge', hr, hagree, hedge, hedge',
    side_in_one_place hr .includeAll hagree (by decide) hmem hmem' (hsubject.trans hsubject'.symm)⟩

/-- A source of lower rank is the only one that speaks about its port. -/
theorem outranked_side_in_two_places :
    ∃ (r : Registry) (es : List Evidence) (edge edge' : AttachmentEdge),
      r.ReachedBy {} (sampleTwoPlaces 5 3) es ∧
      edge ∈ sampleEdges r 0 ∧ edge' ∈ sampleEdges r 1 ∧
      edge.conflicting = false ∧ edge'.conflicting = false := by
  obtain ⟨r, es, hr, hp⟩ := Registry.exists_reached {} (sampleTwoPlaces 5 3)
    (fun r _ => (sampleEdges r 0).any (!·.conflicting) && (sampleEdges r 1).any (!·.conflicting))
    (by decide +kernel)
  rw [Bool.and_eq_true, List.any_eq_true, List.any_eq_true] at hp
  obtain ⟨⟨edge, hedge, hfree⟩, edge', hedge', hfree'⟩ := hp
  rw [Bool.not_eq_true'] at hfree hfree'
  exact ⟨r, es, edge, edge', hr, hedge, hedge', hfree, hfree'⟩

end CableRegistry
